/-
Objects laid over one another, and the order of their members.

Settings of several sources are merged by laying one value over another:
an object is laid over an object member by member, and everything else
replaces what is under it. So what is looked up afterwards has two cases
(`Json.lookup_overlayMembers`). A member that only one of the two
objects has is looked up as it is there; where both have it, the upper
value is laid over the lower one in its turn (`Json.overlayOn`).

Such a look-up finds the first member of its name. That this is the only
one has to be known, or a second member would come to light as soon as
the first one is replaced. Objects that are read or put together member
by member keep their names in ascending order, at every depth
(`Json.IsOrdered`); each name then stands once (`Ascending.nodup`).
Laying keeps this order (`Json.IsOrdered.overlay`), by an induction on
the upper value, through which the lower one changes.
-/
import Prerender.Settings.Layers

namespace Prerender

-- ===================================================== sorted entries

/-- Entries in ascending order have each key once. -/
theorem Ascending.nodup {α : Type} {entries : List (String × α)}
    (h : Ascending entries) :
    (entries.map Prod.fst).Nodup :=
  List.pairwise_map.2 (h.imp fun hlt => String.ne_of_lt hlt)

/-- Nothing is looked up under a key that no entry has. -/
theorem lookup_eq_none_of_not_mem {α : Type} {key : String}
    {entries : List (String × α)}
    (h : key ∉ entries.map Prod.fst) : entries.lookup key = none :=
  List.lookup_eq_none_iff.2 fun _ hentry =>
    bne_iff_ne.2 fun heq => h (heq ▸ List.mem_map_of_mem hentry)

namespace Sorted

variable {α : Type} {entries : List (String × α)}

/-- What is so of all values is so of all values once they are sorted. -/
theorem forall_mem_ofList {p : α → Prop} (h : ∀ entry ∈ entries, p entry.2) :
    ∀ entry ∈ ofList entries, p entry.2 := by
  unfold ofList
  suffices ∀ sorted : List (String × α), (∀ entry ∈ sorted, p entry.2) →
      ∀ entry ∈ entries.foldl
        (fun sorted entry => insert entry.1 entry.2 sorted) sorted,
        p entry.2 from this [] (List.forall_mem_nil _)
  induction entries with
  | nil => exact fun _ hsorted => hsorted
  | cons head rest ih =>
      obtain ⟨hhead, hrest⟩ := List.forall_mem_cons.1 h
      intro sorted hsorted
      refine ih hrest _ fun entry hentry => ?_
      rcases mem_insert hentry with rfl | hentry
      · exact hhead
      · exact hsorted entry hentry

/-- Sorting changes no look-up where each key stands once. -/
theorem lookup_ofList (distinct : (entries.map Prod.fst).Nodup) (key : String) :
    (ofList entries).lookup key = entries.lookup key := by
  unfold ofList
  suffices ∀ sorted : List (String × α),
      (entries.foldl (fun sorted entry => insert entry.1 entry.2 sorted)
        sorted).lookup key
        = (entries.lookup key).or (sorted.lookup key) from
    (this []).trans (Option.or_none ..)
  induction entries with
  | nil => exact fun _ => rfl
  | cons head rest ih =>
      obtain ⟨k, v⟩ := head
      obtain ⟨hk, hrest⟩ := List.nodup_cons.1 distinct
      intro sorted
      rw [List.foldl_cons, ih hrest, lookup_insert, lookup_cons_ite]
      by_cases heq : key = k
      · subst heq
        rw [if_pos rfl, if_pos rfl, lookup_eq_none_of_not_mem hk]
        rfl
      · rw [if_neg heq, if_neg heq]

end Sorted

namespace Json

-- ============================================================== order

/-- Whether the members of all objects in a value, at any depth, are in
ascending order. -/
inductive IsOrdered : Json → Prop
  | null : IsOrdered .null
  | bool {b : Bool} : IsOrdered (.bool b)
  | int {n : Int} : IsOrdered (.int n)
  | double {d : Double} : IsOrdered (.double d)
  | str {s : String} : IsOrdered (.str s)
  | arr {items : List Json} (each : ∀ item ∈ items, item.IsOrdered) :
      IsOrdered (.arr items)
  | obj {members : List (String × Json)} (ascending : Ascending members)
      (each : ∀ member ∈ members, member.2.IsOrdered) : IsOrdered (.obj members)

namespace IsOrdered

variable {members : List (String × Json)}

/-- The names of an object in order ascend. -/
theorem ascending (h : IsOrdered (.obj members)) : Ascending members := by
  cases h
  assumption

theorem each (h : IsOrdered (.obj members)) :
    ∀ member ∈ members, member.2.IsOrdered := by
  cases h
  assumption

/-- What is looked up in an object is in order with it. -/
theorem of_lookup (h : IsOrdered (.obj members)) {name : String} {value : Json}
    (held : members.lookup name = some value) : value.IsOrdered := by
  obtain ⟨before, after, rfl, -⟩ := List.lookup_eq_some_iff.1 held
  exact h.each (name, value) (List.mem_append_right _ List.mem_cons_self)

/-- An object that is put together of values in order is in order. -/
theorem object (h : ∀ member ∈ members, member.2.IsOrdered) :
    (Json.object members).IsOrdered :=
  .obj (Sorted.ascending_ofList members) (Sorted.forall_mem_ofList h)

/-- A member more, or another value for one, keeps the order. -/
theorem insert (h : IsOrdered (.obj members)) {name : String} {value : Json}
    (hvalue : value.IsOrdered) :
    IsOrdered (.obj (Sorted.insert name value members)) := by
  refine .obj (Sorted.ascending_insert h.ascending) fun member hmember => ?_
  rcases Sorted.mem_insert hmember with rfl | hmember
  · exact hvalue
  · exact h.each member hmember

end IsOrdered

-- ============================================================= laying

/-- A value that is no object replaces what is under it. -/
theorem overlay_of_ne_obj (base : Json) {layer : Json}
    (h : ∀ members, layer ≠ .obj members) :
    base.overlay layer = layer := by
  cases layer with
  | obj members => exact absurd rfl (h members)
  | _ => cases base <;> rw [overlay] <;> nofun

/-- A value replaces what is under it if that is no object. -/
theorem overlay_on_ne_obj {base : Json} (h : ∀ members, base ≠ .obj members)
    (layer : Json) :
    base.overlay layer = layer := by
  cases base with
  | obj members => exact absurd rfl (h members)
  | _ => cases layer <;> rw [overlay] <;> nofun

/-- An object is laid over an object member by member. -/
theorem overlay_obj (base layer : List (String × Json)) :
    (obj base).overlay (.obj layer) = .obj (overlayMembers base layer) := by
  rw [overlay]

/-- What one member of the upper object becomes where `under` is what the
lower one has. -/
def overlayOn (under : Option Json) (value : Json) : Json :=
  under.elim value fun under => under.overlay value

/-- The first member is laid over what the lower object has under its name. -/
theorem overlayMembers_cons (base : List (String × Json)) (name : String)
    (value : Json) (rest : List (String × Json)) :
    overlayMembers base ((name, value) :: rest)
      = overlayMembers
        (Sorted.insert name (overlayOn (base.lookup name) value) base)
          rest := by
  rw [overlayMembers, overlayOn]
  cases base.lookup name <;> rfl

/-- What is looked up in an object that has been laid over another one. -/
theorem lookup_overlayMembers {layer : List (String × Json)}
    (distinct : (layer.map Prod.fst).Nodup) (base : List (String × Json))
    (name : String) :
    (overlayMembers base layer).lookup name
      = match layer.lookup name with
        | none => base.lookup name
        | some value => some (overlayOn (base.lookup name) value) := by
  induction layer generalizing base with
  | nil =>
      rw [overlayMembers]
      rfl
  | cons head rest ih =>
      obtain ⟨k, v⟩ := head
      obtain ⟨hk, hrest⟩ := List.nodup_cons.1 distinct
      rw [overlayMembers_cons, ih hrest, Sorted.lookup_insert, lookup_cons_ite]
      by_cases heq : name = k
      · subst heq
        rw [lookup_eq_none_of_not_mem hk, if_pos rfl, if_pos rfl]
      · rw [if_neg heq, if_neg heq]

mutual

/-- Laying one value over another keeps both in order. -/
theorem IsOrdered.overlay :
    ∀ {layer base : Json}, base.IsOrdered → layer.IsOrdered →
    (base.overlay layer).IsOrdered
  | .obj layer, base, hbase, hlayer => by
      cases base with
      | obj base =>
          rw [overlay_obj]
          exact hbase.overlayMembers hlayer.each
      | _ =>
          rw [overlay_on_ne_obj (by nofun)]
          exact hlayer
  | .null, _, _, hlayer | .bool _, _, _, hlayer | .int _, _, _,
      hlayer | .double _, _, _, hlayer
  | .str _, _, _, hlayer | .arr _, _, _, hlayer => by
      rw [overlay_of_ne_obj _ (by nofun)]
      exact hlayer

theorem IsOrdered.overlayMembers : ∀ {layer base : List (String × Json)},
    (Json.obj base).IsOrdered → (∀ member ∈ layer, member.2.IsOrdered) →
      (Json.obj (overlayMembers base layer)).IsOrdered
  | [], base, hbase, _ => by
      rw [Json.overlayMembers]
      exact hbase
  | (name, value) :: rest, base, hbase, hlayer => by
      obtain ⟨hvalue, hrest⟩ := List.forall_mem_cons.1 hlayer
      rw [overlayMembers_cons]
      refine IsOrdered.overlayMembers (hbase.insert ?_) hrest
      unfold overlayOn
      cases hunder : base.lookup name with
      | none => exact hvalue
      | some under => exact (hbase.of_lookup hunder).overlay hvalue

end

end Json
end Prerender
