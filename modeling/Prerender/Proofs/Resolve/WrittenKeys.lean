/-
Keys that the author writes.

A `key` on an element stands in the same map as everything else, so it
is rewritten like everything else, and new keys are counted without a
look at those already written. Two things that one would like to be true
of bindings are therefore true only on a condition: that a binding names
an element as the document shows it, and that bindings of different
elements have different keys.

Both conditions are read off the courses of the keys, which depend on
the options and on the next key alone (`Element.WorkedOffAll.courses`):

1. A binding names an element that is shown under its key exactly if
   some course ends with that key (`Node.resolve_bindings_shown_iff`).
   It always does where the elements settle their keys
   (`Element.SettlesKey`): the written key is plain, and shown as the
   key it reads as, or it reads as none and comes before all that leaves
   a binding. Otherwise a key that is written later is put back over the
   new one, while the binding has the new one
   (`Node.namedEntry_not_shown`).
2. Bindings of different elements have different keys, where all written
   keys are plain and no two are the same, exactly if no new key is one
   that another element has (`Node.resolve_keys_apart_iff`). A written
   key above all new ones is fine, and one that the counter has yet to
   come to is not (`Node.nestedEntries_clash`).

Each holds in all trees of a plain kind, and each fails in a small tree
that stands next to it. For the second, the courses are found by their
place in the row: what the element in place `i` takes is the next key
moved on by the number of elements before it that take one
(`Element.newKeyAt`).
-/
import Prerender.Proofs.Resolve.Numbering

namespace Prerender

-- ============================================================ all courses

/-- The courses of the keys of a row of elements, when `next` is the next new
key for the first. -/
def Element.courses (next : UInt32) : List Element → List KeyCourse
  | [] => []
  | e :: rest => e.course next :: Element.courses (e.course next).next rest

/-- A run leaves under `key` what the courses end with, and notes what they
note. -/
theorem Element.WorkedOffAll.courses {pass pass' : Pass} {es os : List Element}
    (run : Element.WorkedOffAll pass es os pass') :
    os.map Element.keyOption?
      = (Element.courses pass.nextKey es).map KeyCourse.entry
      ∧ pass'.bindings = pass.bindings
          ++ ((Element.courses pass.nextKey es).map KeyCourse.noted).flatten
      := by
  induction run with
  | nil => exact ⟨rfl, (List.append_nil _).symm⟩
  | cons first _ ih =>
      obtain ⟨hentry, hnext, hnoted⟩ := first.course
      obtain ⟨hentries, hbindings⟩ := ih
      rw [hnext] at hentries hbindings
      rw [Element.courses, List.map_cons, List.map_cons, List.map_cons,
        List.flatten_cons]
      refine ⟨by rw [hentry, hentries], ?_⟩
      rw [hbindings, hnoted, List.append_assoc]

/-- Something is so of what an element has under `key` if it is so where a
course ends. -/
theorem Element.WorkedOffAll.exists_entry_iff {pass pass' : Pass}
    {es os : List Element}
    (run : Element.WorkedOffAll pass es os pass')
    (P : Option OptionValue → Prop) :
    (∃ o ∈ os, P o.keyOption?)
      ↔ ∃ d ∈ Element.courses pass.nextKey es, P d.entry := by
  have hentries := run.courses.1
  constructor
  · intro h
    obtain ⟨o, ho, hP⟩ := h
    have hmem : o.keyOption? ∈ os.map Element.keyOption? :=
      List.mem_map_of_mem ho
    rw [hentries] at hmem
    obtain ⟨d, hd, heq⟩ := List.mem_map.1 hmem
    exact ⟨d, hd, heq ▸ hP⟩
  · intro h
    obtain ⟨d, hd, hP⟩ := h
    have hmem : d.entry ∈ (Element.courses pass.nextKey es).map
      KeyCourse.entry :=
      List.mem_map_of_mem hd
    rw [← hentries] at hmem
    obtain ⟨o, ho, heq⟩ := List.mem_map.1 hmem
    exact ⟨o, ho, heq ▸ hP⟩

/-- Every course in the row is that of one of the elements. -/
theorem Element.exists_of_mem_courses {es : List Element} {next : UInt32}
    {c : KeyCourse}
    (h : c ∈ Element.courses next es) : ∃ e ∈ es, ∃ n, c = e.course n := by
  induction es generalizing next with
  | nil => cases h
  | cons e rest ih =>
      rcases List.mem_cons.1 h with rfl | h
      · exact ⟨e, List.mem_cons_self, next, rfl⟩
      · obtain ⟨other, hmem, n, rfl⟩ := ih h
        exact ⟨other, List.mem_cons_of_mem _ hmem, n, rfl⟩

-- ============================================== bindings name what is shown

/-- Whether the value leaves a binding. -/
def OptionValue.leavesBinding : OptionValue → Bool
  | .literal _ => false
  | .reactive (.state link) => !link.value.isSource
  | .reactive _ => true

/-- Whether a value leaves a binding depends on neither its name nor the key.
-/
theorem OptionValue.isSome_binding? (name : String) (key : ElementKey)
    (value : OptionValue) :
    (value.binding? name key).isSome = value.leavesBinding := by
  cases value with
  | literal data => rfl
  | reactive value =>
      cases value with
      | state link =>
          show (if link.value.isSource then none else some _ :
            Option Binding).isSome = _
          rw [leavesBinding]
          cases link.value.isSource <;> rfl
      | observer o => rfl
      | reference handle => rfl

/-- An element that keeps its key is shown under the key of its bindings. -/
theorem Element.shownBy_of_keepsKey {e : Element} (keeps : e.KeepsKey)
    {next : UInt32} {b : Binding}
    (hb : b ∈ (e.course next).noted) : b.key.ShownBy (e.course next).entry := by
  rw [Element.course_of_keepsKey keeps] at hb ⊢
  have hkey : b.key = e.keyAt next := Element.key_of_mem_bindings hb
  have hreactive : e.isReactive = true := Element.isReactive_of_mem_bindings hb
  rw [hkey]
  cases hwritten : e.key? with
  | none =>
      simp only [Element.isNumbered, hreactive, hwritten, Option.isNone_none,
        Bool.and_true, if_true, Element.keyAt, Option.getD_none]
      exact ElementKey.shownBy_toOption ⟨next⟩
  | some key =>
      simp only [Element.isNumbered, hwritten, Option.isNone_some,
        Bool.and_false, Bool.false_eq_true, if_false, Element.keyAt,
        Option.getD_some]
      obtain ⟨value, hentry, hread⟩ := Option.bind_eq_some_iff.1 hwritten
      obtain ⟨-, data, shown, -, hread', hshown⟩ :=
        keeps _ _ (OrderedMap.get?_eq_some_iff.1 hentry) (Or.inl rfl)
      rw [hread] at hread'
      cases hread'
      rw [hentry]
      exact hshown

/-- Whether the element ends under the key of its bindings: only a plain `key`
touches the entry, and it is shown as the key that it reads as, or it reads as
none and comes before all that leaves a binding. -/
def Element.SettlesKey (e : Element) : Prop :=
  ∀ before name value after, e.written = before ++ (name, value) :: after →
    value.TouchesKey name →
    name = OptionName.key ∧ ∃ data, value = .literal data
      ∧ ((∃ key, ElementKey.ofOption? value = some key
        ∧ key.ShownBy (some value))
        ∨ ElementKey.ofOption? value = none
          ∧ ∀ option ∈ before, option.2.leavesBinding = false)

/-- An element whose written key can be read, if there is one, keeps its key. -/
theorem Element.SettlesKey.keepsKey {e : Element} (settles : e.SettlesKey)
    (readable : e.keyOption? ≠ none → e.key? ≠ none) : e.KeepsKey := by
  intro name value hmem htouch
  obtain ⟨before, after, hwritten⟩ := List.append_of_mem hmem
  obtain ⟨rfl, data, hvalue, ⟨key, hread, hshown⟩ | ⟨hnone, -⟩⟩ :=
    settles before name value after hwritten htouch
  · exact ⟨rfl, data, key, hvalue, hread, hshown⟩
  · have hentry : e.keyOption? = some value :=
      OrderedMap.get?_eq_some_iff.2 hmem
    refine absurd ?_
      (readable (by rw [hentry]; exact Option.some_ne_none value))
    rw [Element.key?, hentry, Option.bind_some, hnone]

namespace KeyCourse

/-- Options that leave no binding note none. -/
theorem noted_foldl_work {options : List (String × OptionValue)}
    (silent : ∀ option ∈ options, option.2.leavesBinding = false)
    (course : KeyCourse) :
    (options.foldl work course).noted = course.noted := by
  induction options generalizing course with
  | nil => rfl
  | cons option rest ih =>
      obtain ⟨name, value⟩ := option
      have hnone : value.binding? name course.key = none := by
        rw [← Option.not_isSome_iff_eq_none, value.isSome_binding?,
          silent (name, value) List.mem_cons_self]
        exact Bool.false_ne_true
      rw [List.foldl_cons, ih fun o ho => silent o (List.mem_cons_of_mem _ ho),
        work]
      simp only
      rw [hnone, Option.toList_none, List.append_nil]

/-- A plain `key` stands under `key` once it is worked off, whatever stood
there. -/
theorem work_plainKey (course : KeyCourse) (data : Json) :
    course.work (OptionName.key, .literal data)
      = { course with entry := some (.literal data) } := by
  simp [work, keyed, OptionValue.isReactive, OptionValue.binding?,
    OptionValue.attribute?, OptionValue.content?, OptionValue.data?,
    OptionValue.finalName, entryAfter]

end KeyCourse

/-- The course of an element whose written key reads as none, comes before all
that leaves a binding, and is touched by nothing after it: the bindings are
noted under a new key. -/
theorem Element.course_of_unread {e : Element}
    {before after : List (String × OptionValue)}
    {data : Json}
    (written : e.written = before ++ (OptionName.key, .literal data) :: after)
    (unread : ElementKey.ofOption? (.literal data) = none)
    (silent : ∀ option ∈ before, option.2.leavesBinding = false)
    (untouched : ∀ option ∈ after, ¬ option.2.TouchesKey option.1)
    (next : UInt32) :
    ∃ n, e.course next
      = ⟨if after.any (fun option => option.2.isReactive)
            then some (ElementKey.toOption ⟨n⟩) else some (.literal data),
          if after.any (fun option => option.2.isReactive) then n + 1 else n,
          after.filterMap fun option => option.2.binding? option.1 ⟨n⟩⟩ := by
  refine ⟨(before.foldl KeyCourse.work ⟨e.keyOption?, next, []⟩).next, ?_⟩
  rw [Element.course, written, List.foldl_append, List.foldl_cons,
    KeyCourse.work_plainKey, KeyCourse.noted_foldl_work silent]
  exact KeyCourse.foldl_work_of_untouched unread untouched

/-- An element that settles its key is shown under the key of its bindings. -/
theorem Element.shownBy_of_settlesKey {e : Element} (settles : e.SettlesKey)
    {next : UInt32}
    {b : Binding} (hb : b ∈ (e.course next).noted) :
    b.key.ShownBy (e.course next).entry := by
  by_cases readable : e.keyOption? ≠ none → e.key? ≠ none
  · exact Element.shownBy_of_keepsKey (settles.keepsKey readable) hb
  · -- the written key reads as none: what precedes it is silent, what
    -- follows takes a new key
    obtain ⟨hsome, hnone⟩ := Classical.not_imp.1 readable
    obtain ⟨value, hentry⟩ := Option.ne_none_iff_exists'.1 hsome
    have hunread : ElementKey.ofOption? value = none := by
      rw [Classical.not_not, Element.key?, hentry, Option.bind_some] at hnone
      exact hnone
    have hmem : (OptionName.key, value) ∈ e.written :=
      OrderedMap.get?_eq_some_iff.1 hentry
    obtain ⟨before, after, hwritten⟩ := List.append_of_mem hmem
    obtain ⟨-, data, rfl, ⟨key, hread, -⟩ | ⟨-, hsilent⟩⟩ :=
      settles before _ _ after hwritten (Or.inl rfl)
    · rw [hunread] at hread
      cases hread
    · -- a later option that touches the entry would be a second `key`
      have huntouched : ∀ option ∈ after, ¬ option.2.TouchesKey option.1 := by
        intro option hoption htouch
        obtain ⟨front, back, hsplit⟩ := List.append_of_mem hoption
        have hlater : e.written
            = (before ++ (OptionName.key, .literal data) :: front)
              ++ option :: back := by
          rw [hwritten, hsplit, List.append_assoc, List.cons_append]
        exact Element.ne_of_mem_after hwritten option hoption
          (settles _ option.1 option.2 back hlater htouch).1.symm
      obtain ⟨n, hcourse⟩ :=
        Element.course_of_unread hwritten hunread hsilent huntouched next
      rw [hcourse] at hb ⊢
      obtain ⟨option, hoption, hbinding⟩ := List.mem_filterMap.1 hb
      have hany : (after.any fun option => option.2.isReactive) = true :=
        List.any_eq_true.2
          ⟨option, hoption, OptionValue.isReactive_of_binding? hbinding⟩
      rw [OptionValue.key_of_binding? hbinding]
      simp only [hany, if_true]
      exact ElementKey.shownBy_toOption ⟨n⟩

/-- When every binding names an element that the document shows under its key:
exactly if the courses of the keys say so, and always if the elements settle
their keys. -/
theorem Node.resolve_bindings_shown_iff {node out : Node} {pass pass' : Pass}
    (h : node.resolve pass = .ok out pass') :
    ∃ new, pass'.bindings = pass.bindings ++ new
      ∧ ((∀ b ∈ new, ∃ o ∈ out.elements, b.key.ShownBy o.keyOption?)
          ↔ ∀ c ∈ Element.courses pass.nextKey node.visited, ∀ b ∈ c.noted,
            ∃ d ∈ Element.courses pass.nextKey node.visited,
              b.key.ShownBy d.entry)
      ∧ ((∀ e ∈ node.visited, e.SettlesKey) →
          ∀ b ∈ new, ∃ o ∈ out.elements, b.key.ShownBy o.keyOption?) := by
  have run := Node.resolve_workedOff h
  have hiff : (∀ b ∈ ((Element.courses pass.nextKey node.visited).map
    KeyCourse.noted).flatten,
        ∃ o ∈ out.elements, b.key.ShownBy o.keyOption?)
      ↔ ∀ c ∈ Element.courses pass.nextKey node.visited, ∀ b ∈ c.noted,
        ∃ d ∈ Element.courses pass.nextKey node.visited,
          b.key.ShownBy d.entry := by
    constructor
    · intro hall c hc b hb
      exact (run.exists_entry_iff b.key.ShownBy).1
        (hall b (List.mem_flatten.2 ⟨_, List.mem_map_of_mem hc, hb⟩))
    · intro hall b hb
      obtain ⟨_, hnoted, hb⟩ := List.mem_flatten.1 hb
      obtain ⟨c, hc, rfl⟩ := List.mem_map.1 hnoted
      exact (run.exists_entry_iff b.key.ShownBy).2 (hall c hc b hb)
  refine ⟨_, run.courses.2, hiff, fun settles => hiff.2 fun c hc b hb =>
    ⟨c, hc, ?_⟩⟩
  obtain ⟨e, he, n, rfl⟩ := Element.exists_of_mem_courses hc
  exact Element.shownBy_of_settlesKey (settles e he) hb

/-- An entry that follows a cell, with a key that is no number written before
or after. -/
def Node.namedEntry (keyFirst : Bool) : Node :=
  let title : String × OptionValue :=
    ("title", .reactive (.state ⟨⟨0⟩, .literal (.str "a"), none⟩))
  let key : String × OptionValue := (OptionName.key, .literal (.str "row-1"))
  .element ⟨"li", .options
    (.ofList (if keyFirst then [key, title] else [title, key])), some []⟩

/-- A key that comes first gives way to the new one. -/
theorem Node.namedEntry_shown : ∃ out pass',
    (Node.namedEntry true).resolve .fresh = .ok out pass'
      ∧ ∀ b ∈ pass'.bindings, ∃ o ∈ out.elements,
        b.key.ShownBy o.keyOption? := by
  have resolves : (Node.namedEntry true).resolve .fresh = .ok _ _ := rfl
  obtain ⟨new, hnew, hiff, -⟩ := Node.resolve_bindings_shown_iff resolves
  refine ⟨_, _, resolves, ?_⟩
  rw [show _ = new from hnew]
  refine hiff.2
    (List.forall_mem_cons.2 ⟨List.forall_mem_cons.2 ⟨?_, nofun⟩, nofun⟩)
  exact ⟨_, .head _, ElementKey.shownBy_toOption ⟨0⟩⟩

/-- A key that comes later takes its place again: the binding names no
element. -/
theorem Node.namedEntry_not_shown : ∃ out pass',
    (Node.namedEntry false).resolve .fresh = .ok out pass'
      ∧ ∃ b ∈ pass'.bindings, ∀ o ∈ out.elements,
        ¬ b.key.ShownBy o.keyOption? := by
  refine ⟨_, _, rfl, _, .head _, List.forall_mem_cons.2 ⟨?_, nofun⟩⟩
  intro hshown
  obtain ⟨data, hentry, hshown⟩ := hshown
  cases hentry
  exact absurd hshown (by decide)

-- ================================================ keys of different elements

/-- Whether a key on the element, if the author wrote one, is plain: named in
no other way, and a whole number below `2 ^ 32`. -/
def Element.PlainKey (e : Element) : Prop :=
  ∀ option ∈ e.written, Text.lowercase option.1 = OptionName.key →
    option.1 = OptionName.key ∧ ∃ key : ElementKey, option.2 = key.toOption

/-- Whether the author did not write the same key on both elements. -/
def Element.KeyApart (e e' : Element) : Prop :=
  ∀ key, e.key? = some key → e'.key? ≠ some key

/-- Whether an option of the element leaves a binding. -/
def Element.isBound (e : Element) : Bool :=
  e.written.any fun option => option.2.leavesBinding

/-- The new key that the element in place `i` of a row would take. -/
def Element.newKeyAt (next : UInt32) (es : List Element) (i : Nat) : UInt32 :=
  next + UInt32.ofNat ((es.take i).countP Element.isNumbered)

/-- Whether no element of a row that leaves bindings takes a new key that is
the key of another one that does. -/
def Element.NewKeysFree (next : UInt32) (es : List Element) : Prop :=
  ∀ (i j : Nat) (e e' : Element), i ≠ j → es[i]? = some e → es[j]? = some e' →
    e.isBound = true → e'.isBound = true → e'.key? = none →
    e.keyAt (Element.newKeyAt next es i) ≠ ⟨Element.newKeyAt next es j⟩

/-- Whether bindings of one group have no key of the other. -/
def Binding.Apart (group group' : List Binding) : Prop :=
  ∀ b ∈ group, ∀ b' ∈ group', b.key ≠ b'.key

/-- A plain key touches nothing but itself. -/
theorem Element.PlainKey.keepsKey {e : Element} (plain : e.PlainKey) :
    e.KeepsKey := by
  intro name value hmem htouch
  have hlower : Text.lowercase name = OptionName.key := by
    rcases htouch with rfl | ⟨data, hattr⟩
    · exact OptionName.lowercase_key
    · refine Classical.byContradiction fun hne => ?_
      exact value.finalName_ne_key hne
        (OptionValue.attribute?_eq_some_iff.1 hattr).2.2
  obtain ⟨hname, key, hvalue⟩ := plain (name, value) hmem hlower
  refine ⟨hname, .int key.number.toNat, key, hvalue, ?_, ?_⟩
  · rw [show value = key.toOption from hvalue, ElementKey.ofOption?_toOption]
  · rw [show value = key.toOption from hvalue]
    exact key.shownBy_toOption

namespace Element

/-- An element has bindings under a key exactly if one of its options leaves
one. -/
theorem exists_mem_bindings_iff {e : Element} {key : ElementKey} :
    (∃ b, b ∈ e.bindings key) ↔ e.isBound = true := by
  rw [isBound, List.any_eq_true]
  constructor
  · intro h
    obtain ⟨b, hb⟩ := h
    obtain ⟨⟨name, value⟩, hmem, hbinding⟩ := List.mem_filterMap.1 hb
    refine ⟨(name, value), hmem, ?_⟩
    rw [← value.isSome_binding? name key, hbinding, Option.isSome_some]
  · intro h
    obtain ⟨⟨name, value⟩, hmem, hleaves⟩ := h
    rw [← value.isSome_binding? name key] at hleaves
    obtain ⟨b, hbinding⟩ := Option.isSome_iff_exists.1 hleaves
    exact ⟨b, List.mem_filterMap.2 ⟨_, hmem, hbinding⟩⟩

/-- The courses of elements that keep their keys, each from the new key that
it would take. -/
theorem getElem?_courses {es : List Element} (keeps : ∀ e ∈ es, e.KeepsKey)
    (next : UInt32) (i : Nat) :
    (courses next es)[i]?
      = es[i]?.map fun e => e.course (newKeyAt next es i) := by
  induction es generalizing next i with
  | nil => rfl
  | cons e rest ih =>
      cases i with
      | zero =>
          show some (e.course next) = some (e.course (next + 0))
          rw [UInt32.add_zero]
      | succ i =>
          have hnext :
              newKeyAt (e.course next).next rest i
                = newKeyAt next (e :: rest) (i + 1) := by
            rw [course_of_keepsKey (keeps e List.mem_cons_self),
              newKeyAt, newKeyAt, List.take_succ_cons, List.countP_cons]
            cases e.isNumbered with
            | false => rfl
            | true =>
                show next + 1 + _ = next + UInt32.ofNat (_ + 1)
                rw [UInt32.ofNat_add, UInt32.add_assoc, UInt32.add_comm 1]
                rfl
          show (courses (e.course next).next rest)[i]? = rest[i]?.map _
          rw [ih (fun e he => keeps e (List.mem_cons_of_mem _ he)), hnext]

/-- What bindings an element in a row of elements that keep their keys
leaves. -/
theorem getElem?_noted {es : List Element} (keeps : ∀ e ∈ es, e.KeepsKey)
    (next : UInt32) (i : Nat) :
    ((courses next es).map KeyCourse.noted)[i]?
      = es[i]?.map fun e => e.bindings (e.keyAt (newKeyAt next es i)) := by
  rw [List.getElem?_map, getElem?_courses keeps, Option.map_map]
  cases he : es[i]? with
  | none => rfl
  | some e =>
      show some (e.course _).noted = some _
      rw [course_of_keepsKey (keeps e (List.mem_of_getElem? he))]

/-- The bindings of two elements have different keys if the elements do or one
leaves no binding. -/
theorem apart_iff {e e' : Element} {key key' : ElementKey} :
    Binding.Apart (e.bindings key) (e'.bindings key')
      ↔ (e.isBound = true → e'.isBound = true → key ≠ key') := by
  constructor
  · intro hapart hbound hbound' hsame
    obtain ⟨b, hb⟩ : ∃ b, b ∈ e.bindings key := exists_mem_bindings_iff.2 hbound
    obtain ⟨b', hb'⟩ : ∃ b, b ∈ e'.bindings key' :=
      exists_mem_bindings_iff.2 hbound'
    refine hapart b hb b' hb' ?_
    rw [key_of_mem_bindings hb, key_of_mem_bindings hb', hsame]
  · intro h b hb b' hb'
    rw [key_of_mem_bindings hb, key_of_mem_bindings hb']
    exact h (exists_mem_bindings_iff.1 ⟨b, hb⟩)
      (exists_mem_bindings_iff.1 ⟨b', hb'⟩)

/-- A relation holds pairwise if it holds between places in order. -/
private theorem pairwise_iff_getElem? {α : Type} {R : α → α → Prop}
    {l : List α} :
    l.Pairwise R
      ↔ ∀ (i j : Nat) (a b : α), i < j → l[i]? = some a →
        l[j]? = some b → R a b := by
  rw [List.pairwise_iff_getElem]
  constructor
  · intro h i j a b hlt ha hb
    obtain ⟨hi, rfl⟩ := List.getElem?_eq_some_iff.1 ha
    obtain ⟨hj, rfl⟩ := List.getElem?_eq_some_iff.1 hb
    exact h i j hi hj hlt
  · intro h i j hi hj hlt
    exact h i j _ _ hlt (List.getElem?_eq_getElem hi)
      (List.getElem?_eq_getElem hj)

/-- Without a written key the key of an element is the new one. -/
theorem keyAt_of_key?_eq_none {e : Element} (new : e.key? = none)
    (next : UInt32) :
    e.keyAt next = ⟨next⟩ := by
  rw [keyAt, new, Option.getD_none]

/-- Bindings of different elements have different keys exactly if no new key
is taken already. -/
theorem groups_apart_iff {es : List Element} (keeps : ∀ e ∈ es, e.KeepsKey)
    (distinct : es.Pairwise KeyApart) (next : UInt32) :
    ((courses next es).map KeyCourse.noted).Pairwise Binding.Apart
      ↔ NewKeysFree next es := by
  have hgroups : ((courses next es).map KeyCourse.noted).Pairwise Binding.Apart
      ↔ ∀ (i j : Nat) (e e' : Element), i < j → es[i]? = some e →
        es[j]? = some e' →
        e.isBound = true → e'.isBound = true →
        e.keyAt (newKeyAt next es i) ≠ e'.keyAt (newKeyAt next es j) := by
    rw [pairwise_iff_getElem?]
    simp only [getElem?_noted keeps, Option.map_eq_some_iff]
    constructor
    · intro h i j e e' hlt he he'
      exact apart_iff.1 (h i j _ _ hlt ⟨e, he, rfl⟩ ⟨e', he', rfl⟩)
    · rintro h i j _ _ hlt ⟨e, he, rfl⟩ ⟨e', he', rfl⟩
      exact apart_iff.2 (h i j e e' hlt he he')
  rw [hgroups]
  constructor
  · -- the statement looks at each pair from both sides, the groups from one
    intro h i j e e' hne he he' hbound hbound' hnew
    rw [← keyAt_of_key?_eq_none hnew]
    rcases Nat.lt_or_gt_of_ne hne with hlt | hgt
    · exact h i j e e' hlt he he' hbound hbound'
    · exact (h j i e' e hgt he' he hbound' hbound).symm
  · intro hfree i j e e' hlt he he' hbound hbound'
    -- of the two keys the new one is compared, whichever element has it
    cases hkey' : e'.key? with
    | none =>
        rw [keyAt_of_key?_eq_none hkey']
        exact hfree i j e e' (Nat.ne_of_lt hlt) he he' hbound hbound' hkey'
    | some key' =>
        cases hkey : e.key? with
        | none =>
            rw [keyAt_of_key?_eq_none hkey]
            exact (hfree j i e' e
              (Nat.ne_of_gt hlt) he' he hbound' hbound hkey).symm
        | some key =>
            -- both keys are the author's
            have hdistinct :=
              pairwise_iff_getElem?.1 distinct i j e e' hlt he he' key hkey
            rw [hkey'] at hdistinct
            rw [keyAt, keyAt, hkey, hkey', Option.getD_some, Option.getD_some]
            intro hsame
            exact hdistinct (by rw [hsame])

end Element

/-- When bindings of different elements have different keys. The bindings come
in groups, one for each visited element, whatever keys there are. Where these
are plain and no two are the same, the groups share no key exactly if no new
key is one that another element has. -/
theorem Node.resolve_keys_apart_iff {node out : Node} {pass pass' : Pass}
    (h : node.resolve pass = .ok out pass') :
    ∃ groups, pass'.bindings = pass.bindings ++ groups.flatten
      ∧ groups = (Element.courses pass.nextKey node.visited).map KeyCourse.noted
      ∧ ((∀ e ∈ node.elements, e.PlainKey) →
        node.elements.Pairwise Element.KeyApart →
          (groups.Pairwise Binding.Apart
            ↔ Element.NewKeysFree pass.nextKey node.visited)) := by
  refine ⟨_, (Node.resolve_workedOff h).courses.2, rfl,
    fun plain distinct => ?_⟩
  exact Element.groups_apart_iff
    (fun e he => (plain e (node.visited_sublist.subset he)).keepsKey)
    (distinct.sublist node.visited_sublist) pass.nextKey

/-- An entry with a written key around one without, each of which follows a
cell. -/
def Node.nestedEntries (key : ElementKey) : Node :=
  .element ⟨"li",
    .options (.ofList [(OptionName.key, key.toOption),
      ("title", .reactive (.state ⟨⟨0⟩, .literal (.str "a"), none⟩))]),
    some [.element ⟨"li",
      .options (.ofList
        [("label", .reactive (.state ⟨⟨1⟩, .literal (.str "b"), none⟩))]),
      some []⟩]⟩

/-- The written key is plain, and the only one. -/
theorem Node.nestedEntries_keys (key : ElementKey) :
    (∀ e ∈ (Node.nestedEntries key).elements, e.PlainKey)
      ∧ (Node.nestedEntries key).elements.Pairwise Element.KeyApart := by
  constructor
  · refine List.forall_mem_cons.2 ⟨?_, List.forall_mem_cons.2 ⟨?_, nofun⟩⟩
    · exact List.forall_mem_cons.2
        ⟨fun _ => ⟨rfl, key, rfl⟩, List.forall_mem_cons.2
          ⟨fun h => absurd h (by decide), nofun⟩⟩
    · exact List.forall_mem_cons.2 ⟨fun h => absurd h (by decide), nofun⟩
  · exact .cons (List.forall_mem_cons.2 ⟨fun _ _ => nofun, nofun⟩)
      (.cons nofun .nil)

/-- Written as 7, it is not the new key of the entry inside. -/
theorem Node.nestedEntries_apart : ∃ out pass', ∃ groups : List (List Binding),
    (Node.nestedEntries ⟨7⟩).resolve .fresh = .ok out pass'
      ∧ pass'.bindings = [] ++ groups.flatten
      ∧ groups.length = 2 ∧ groups.Pairwise Binding.Apart := by
  have resolves : (Node.nestedEntries ⟨7⟩).resolve .fresh = .ok _ _ := rfl
  obtain ⟨groups, hgroups, hlist, hiff⟩ := Node.resolve_keys_apart_iff resolves
  obtain ⟨hplain, hapart⟩ := Node.nestedEntries_keys ⟨7⟩
  refine ⟨_, _, groups, resolves, hgroups, ?_, (hiff hplain hapart).2 ?_⟩
  · rw [hlist]
    rfl
  · rintro (_ | _ | i) (_ | _ | j) e e' hne ⟨⟩ ⟨⟩ - - hnew
    · exact absurd rfl hne
    · decide
    · exact absurd hnew (by decide)
    · exact absurd rfl hne

/-- Written as 0, it is: the title of the one entry and the label of the other
have the same key. -/
theorem Node.nestedEntries_clash :
    (∀ e ∈ (Node.nestedEntries ⟨0⟩).elements, e.PlainKey)
      ∧ (Node.nestedEntries ⟨0⟩).elements.Pairwise Element.KeyApart
      ∧ ∃ out pass', (Node.nestedEntries ⟨0⟩).resolve .fresh = .ok out pass'
        ∧ pass'.bindings.map (fun b => (b.attributeName, b.key))
          = [("title", ⟨0⟩), ("label", ⟨0⟩)] :=
  ⟨(Node.nestedEntries_keys ⟨0⟩).1, (Node.nestedEntries_keys ⟨0⟩).2, _,
    _, rfl, rfl⟩

end Prerender
