/-
Maps from names to values that remember the order in which names first came.
Binding a name again keeps its place; taking a name out and binding it anew
moves it to the end. That no name occurs twice is part of the type.
-/
import Prerender.Sorted

namespace Prerender

/-- A map from names to values in order of first insertion. -/
structure OrderedMap (α : Type) where
  entries : List (String × α)
  distinct : (entries.map Prod.fst).Nodup

namespace OrderedMap

variable {α β : Type}

/-- The entries with `name` bound to `value`: in its place if it is there,
else at the end. -/
def put (name : String) (value : α) : List (String × α) → List (String × α)
  | [] => [(name, value)]
  | (k, v) :: rest => if k = name then (k, value) :: rest else (k, v)
      :: put name value rest

/-- The names after a binding are those before and the one that was bound. -/
theorem mem_names_put {name k : String} {value : α}
    {entries : List (String × α)} :
    k ∈ (put name value entries).map Prod.fst ↔ k = name
      ∨ k ∈ entries.map Prod.fst := by
  induction entries with
  | nil => simp [put]
  | cons head rest ih =>
      obtain ⟨l, v⟩ := head
      rw [put]
      split
      · next h => simp [h]
      · rw [List.map_cons, List.mem_cons, ih, List.map_cons, List.mem_cons]
        constructor
        · intro h
          rcases h with h | h | h <;> simp [h]
        · intro h
          rcases h with h | h | h <;> simp [h]

/-- Binding a name leaves no name twice. -/
theorem nodup_names_put {name : String} {value : α}
    {entries : List (String × α)}
    (h : (entries.map Prod.fst).Nodup) :
    ((put name value entries).map Prod.fst).Nodup := by
  induction entries with
  | nil => simp [put]
  | cons head rest ih =>
      obtain ⟨l, v⟩ := head
      obtain ⟨hl, hrest⟩ := List.nodup_cons.1 h
      rw [put]
      split
      · exact h
      · next hne =>
        refine List.nodup_cons.2 ⟨fun hmem => ?_, ih hrest⟩
        rcases mem_names_put.1 hmem with hmem | hmem
        · exact hne hmem
        · exact hl hmem

/-- What is looked up after a binding: the new value under its name, else what
was there. -/
theorem lookup_put (name k : String) (value : α) (entries : List (String × α)) :
    (put name value entries).lookup k = if k = name then some value
      else entries.lookup k := by
  induction entries with
  | nil => exact lookup_cons_ite k name value []
  | cons head rest ih =>
      obtain ⟨l, v⟩ := head
      rw [put]
      split
      · next heq =>
        subst heq
        rw [lookup_cons_ite, lookup_cons_ite]
        split <;> rfl
      · next hne =>
        rw [lookup_cons_ite, lookup_cons_ite, ih]
        by_cases h : k = l
        · rw [if_pos h, if_neg fun hk => hne (h.symm.trans hk), if_pos h]
        · rw [if_neg h, if_neg h]

/-- What is looked up after the entries of a name are taken out. -/
theorem lookup_filter_ne (name k : String) (entries : List (String × α)) :
    (entries.filter fun entry => entry.1 ≠ name).lookup k
      = if k = name then none else entries.lookup k := by
  induction entries with
  | nil => simp
  | cons head rest ih =>
      obtain ⟨l, v⟩ := head
      rw [lookup_cons_ite]
      by_cases hl : l = name
      · rw [List.filter_cons_of_neg (by simp [hl]), ih, hl]
        split <;> rfl
      · rw [List.filter_cons_of_pos (by simp [hl]), lookup_cons_ite, ih]
        by_cases h : k = l
        · rw [if_pos h, if_neg fun hk => hl (h.symm.trans hk), if_pos h]
        · rw [if_neg h, if_neg h]

/-- The map without entries. -/
def empty : OrderedMap α := ⟨[], List.nodup_nil⟩

instance : Inhabited (OrderedMap α) := ⟨empty⟩

/-- The value bound to `name`. -/
def get? (m : OrderedMap α) (name : String) : Option α := m.entries.lookup name

/-- The names in order. -/
def names (m : OrderedMap α) : List String := m.entries.map Prod.fst

/-- The map with `name` bound to `value`. -/
def insert (m : OrderedMap α) (name : String) (value : α) : OrderedMap α :=
  ⟨put name value m.entries, nodup_names_put m.distinct⟩

/-- The map without `name`; the other entries close the gap. -/
def erase (m : OrderedMap α) (name : String) : OrderedMap α :=
  ⟨m.entries.filter fun entry => entry.1 ≠ name,
    m.distinct.sublist ((List.filter_sublist).map Prod.fst)⟩

/-- The map that binding the entries one after the other makes. -/
def ofList (entries : List (String × α)) : OrderedMap α :=
  entries.foldl (fun m (name, value) => m.insert name value) empty

-- ============================================================= look-up

@[simp] theorem get?_insert (m : OrderedMap α) (name k : String) (value : α) :
    (m.insert name value).get? k = if k = name then some value else m.get? k :=
  lookup_put name k value m.entries

@[simp] theorem get?_erase (m : OrderedMap α) (name k : String) :
    (m.erase name).get? k = if k = name then none else m.get? k :=
  lookup_filter_ne name k m.entries

/-- What is looked up is what the entries say: no name occurs twice. -/
theorem get?_eq_some_iff {m : OrderedMap α} {name : String} {value : α} :
    m.get? name = some value ↔ (name, value) ∈ m.entries := by
  obtain ⟨entries, distinct⟩ := m
  show entries.lookup name = some value ↔ (name, value) ∈ entries
  induction entries with
  | nil => simp
  | cons head rest ih =>
      obtain ⟨k, v⟩ := head
      obtain ⟨hk, hrest⟩ := List.nodup_cons.1 distinct
      rw [lookup_cons_ite, List.mem_cons]
      by_cases h : name = k
      · subst h
        rw [if_pos rfl]
        constructor
        · intro h
          cases h
          exact Or.inl rfl
        · intro hmem
          rcases hmem with heq | hmem
          · cases heq
            rfl
          · exact absurd (List.mem_map_of_mem hmem) hk
      · rw [if_neg h, ih hrest]
        constructor
        · exact Or.inr
        · intro hmem
          rcases hmem with heq | hmem
          · cases heq
            exact absurd rfl h
          · exact hmem

/-- Nothing is looked up under a name that no entry has. -/
theorem get?_eq_none_iff {m : OrderedMap α} {name : String} :
    m.get? name = none ↔ ∀ value, (name, value) ∉ m.entries := by
  rw [Option.eq_none_iff_forall_not_mem]
  constructor
  · intro h value hmem
    exact h value (get?_eq_some_iff.2 hmem)
  · intro h value hsome
    exact h value (get?_eq_some_iff.1 hsome)

-- =============================================================== order

/-- Maps with the same entries in the same order are the same. -/
theorem eq_of_entries {m m' : OrderedMap α} (h : m.entries = m'.entries) :
    m = m' := by
  cases m
  cases m'
  cases h
  rfl

/-- A name that is not there yet is bound at the end. -/
theorem put_of_not_mem {name : String} (value : α) {entries : List (String × α)}
    (h : name ∉ entries.map Prod.fst) :
    put name value entries = entries ++ [(name, value)] := by
  induction entries with
  | nil => rfl
  | cons head rest ih =>
      obtain ⟨k, v⟩ := head
      rw [List.map_cons, List.mem_cons, not_or] at h
      rw [put, if_neg (Ne.symm h.1), ih h.2]
      rfl

/-- Taking out the first entry and binding its name anew moves it behind the
others. -/
theorem entries_insert_erase {m : OrderedMap α} {name : String} {old : α}
    {rest : List (String × α)} (h : m.entries = (name, old) :: rest)
    (value : α) :
    ((m.erase name).insert name value).entries = rest ++ [(name, value)] := by
  have hdistinct := m.distinct
  rw [h, List.map_cons, List.nodup_cons] at hdistinct
  have hothers : ∀ entry ∈ rest, entry.1 ≠ name := fun entry hmem heq =>
    hdistinct.1 (List.mem_map.2 ⟨entry, hmem, heq⟩)
  show put name value (m.entries.filter fun entry => entry.1 ≠ name) = _
  rw [h, List.filter_cons_of_neg (by simp),
    List.filter_eq_self.2 (by simpa using hothers)]
  exact put_of_not_mem value hdistinct.1

end OrderedMap
end Prerender
