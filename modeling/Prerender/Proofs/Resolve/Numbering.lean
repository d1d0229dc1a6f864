/-
Keys number the reactive elements in document order.

Where the author keeps off the name `key`, an element has a key
afterwards exactly if one of its options was reactive, and the keys
count up from the next key of the pass without a gap. The bindings
follow the same order, each under the key of the element whose option
left it.

The numbering is a relation between the elements as written and as left,
without a pass in it (`Numbering`). Its numbers are natural ones that
become keys at the very end, so that running over the size of a key is
no matter of the relation: where a statement needs that the numbers fit,
it says so (`room`). A run of a pass is a numbering
(`Element.WorkedOffAll.numbering`), by induction over the run with the
course of one element's key as the step. Everything that is said of keys
and bindings is an induction over the numbering:

1. it takes one number for each reactive element (`Numbering.last_eq`);
2. elements with a key are the reactive ones (`Numbering.keyed_iff`),
   and their keys are the numbers in order (`Numbering.keys_eq`);
3. bindings are those of the elements in order
   (`Numbering.bindings_eq`), under keys that do not fall
   (`Numbering.sorted`).

`Node.NumberedAs` puts these together for a tree, and
`Node.resolve_numbers` has them for every tree, every counter and every
list of earlier bindings.
-/
import Mathlib.Data.List.Forall2
import Prerender.Proofs.Resolve.Walk

namespace Prerender

-- ================================================ elements without `key`

/-- Whether no option of the element is named `key`, however it is written. -/
def Element.AvoidsKey (e : Element) : Prop :=
  ∀ option ∈ e.written, Text.lowercase option.1 ≠ OptionName.key

instance : DecidablePred Element.AvoidsKey := fun e =>
  inferInstanceAs
    (Decidable (∀ option ∈ e.written, Text.lowercase option.1 ≠ OptionName.key))

/-- An option that is not named `key` does not end as `key` either. -/
theorem OptionValue.finalName_ne_key {name : String} (value : OptionValue)
    (avoids : Text.lowercase name ≠ OptionName.key) :
    value.finalName name ≠ OptionName.key := by
  cases value with
  | literal data =>
      exact fun h => avoids (OptionName.lowercase_of_kebab_eq_key h)
  | reactive value =>
      cases value with
      | state link => exact avoids
      | observer o => exact avoids
      | reference handle => exact OptionName.reference_ne_key

/-- An option that is not named `key` does not touch what stands there. -/
theorem OptionValue.not_touchesKey {name : String} {value : OptionValue}
    (avoids : Text.lowercase name ≠ OptionName.key) :
    ¬ value.TouchesKey name := by
  intro htouch
  rcases htouch with rfl | ⟨data, h⟩
  · exact avoids OptionName.lowercase_key
  · exact value.finalName_ne_key avoids
      (OptionValue.attribute?_eq_some_iff.1 h).2.2

namespace Element

/-- So nothing gets in the way of the key of such an element. -/
theorem AvoidsKey.keepsKey {e : Element} (avoids : e.AvoidsKey) :
    e.KeepsKey := by
  intro name value hmem htouch
  exact absurd htouch (OptionValue.not_touchesKey (avoids (name, value) hmem))

/-- There is nothing under `key` to begin with. -/
theorem AvoidsKey.keyOption? {e : Element} (avoids : e.AvoidsKey) :
    e.keyOption? = none := by
  refine OrderedMap.get?_eq_none_iff.2 fun value hmem => ?_
  exact avoids (OptionName.key, value) hmem OptionName.lowercase_key

theorem AvoidsKey.key? {e : Element} (avoids : e.AvoidsKey) :
    e.key? = none := by
  rw [Element.key?, avoids.keyOption?]
  rfl

/-- An element under the option of a key has this key. -/
theorem key?_eq_some_of_toOption {e : Element} {key : ElementKey}
    (h : e.keyOption? = some key.toOption) : e.key? = some key := by
  rw [Element.key?, h, Option.bind_some, ElementKey.ofOption?_toOption]

end Element

-- ========================================================== the numbering

/-- The key with the given number. -/
def ElementKey.ofNat (n : Nat) : ElementKey := ⟨UInt32.ofNat n⟩

/-- A number that fits is the number of its key. -/
theorem ElementKey.toNat_ofNat {n : Nat} (small : n < UInt32.size) :
    (ElementKey.ofNat n).number.toNat = n :=
  UInt32.toNat_ofNat_of_lt' small

theorem ElementKey.toOption_ofNat {n : Nat} (small : n < UInt32.size) :
    (ElementKey.ofNat n).toOption = .literal (.int n) := by
  rw [ElementKey.toOption, ElementKey.toNat_ofNat small]

/-- `os` is left of the elements `es`, numbered from `first` up to before
`last` and with the given bindings. Numbers that are too large for a key start
over. -/
inductive Numbering :
    Nat → List Element → List Element → List Binding → Nat → Prop
  | nil {n : Nat} : Numbering n [] [] [] n
  /-- An element without reactive options has no key and leaves no binding. -/
  | plain {n m : Nat} {e o : Element} {es os : List Element}
      {new : List Binding}
      (still : e.isReactive = false) (tag : o.tag = e.tag)
      (bare : o.keyOption? = none)
      (rest : Numbering n es os new m) : Numbering n (e :: es) (o :: os) new m
  /-- A reactive element has the next number and leaves all its bindings under
  it. -/
  | reactive {n m : Nat} {e o : Element} {es os : List Element}
      {new : List Binding} (moves : e.isReactive = true) (tag : o.tag = e.tag)
      (keyed : o.keyOption? = some (ElementKey.ofNat n).toOption)
      (rest : Numbering (n + 1) es os new m) :
      Numbering n (e :: es) (o :: os) (e.bindings (.ofNat n) ++ new) m

/-- A run over elements without `key` is a numbering from the next key on. -/
theorem Element.WorkedOffAll.numbering {pass pass' : Pass}
    {es os : List Element}
    (run : Element.WorkedOffAll pass es os pass')
    (avoids : ∀ e ∈ es, e.AvoidsKey) {n : Nat}
    (start : pass.nextKey = UInt32.ofNat n) :
    ∃ new m, pass'.bindings = pass.bindings ++ new
      ∧ pass'.nextKey = UInt32.ofNat m
      ∧ Numbering n es os new m := by
  induction run generalizing n with
  | nil => exact ⟨[], n, (List.append_nil _).symm, start, .nil⟩
  | @cons pass mid pass' e o es os first rest ih =>
      have havoid := avoids e List.mem_cons_self
      have havoids : ∀ e ∈ es, e.AvoidsKey := fun e he =>
        avoids e (List.mem_cons_of_mem _ he)
      obtain ⟨hentry, hnext, hnoted⟩ := first.course
      rw [Element.course_of_keepsKey havoid.keepsKey] at hentry hnext hnoted
      simp only [Element.isNumbered, Element.keyAt, havoid.key?,
        havoid.keyOption?, Option.isNone_none, Bool.and_true, Option.getD_none]
        at hentry hnext hnoted
      obtain ⟨-, -, htag, -⟩ := first
      cases hreactive : e.isReactive with
      | false =>
          rw [hreactive, if_neg Bool.false_ne_true] at hentry hnext
          rw [Element.bindings_eq_nil hreactive, List.append_nil] at hnoted
          obtain ⟨new, m, hnew, hlast, hnumbering⟩ :=
            ih havoids (hnext.trans start)
          rw [hnoted] at hnew
          exact ⟨new, m, hnew, hlast, .plain hreactive htag hentry hnumbering⟩
      | true =>
          rw [hreactive, if_pos rfl] at hentry hnext
          -- the counter moves on with the number, even where it starts over
          have hstep : mid.nextKey = UInt32.ofNat (n + 1) := by
            rw [hnext, start, UInt32.ofNat_add]
            rfl
          have hkey : (⟨pass.nextKey⟩ : ElementKey) = .ofNat n := by
            rw [ElementKey.ofNat, start]
          obtain ⟨new, m, hnew, hlast, hnumbering⟩ := ih havoids hstep
          rw [hkey] at hentry hnoted
          refine ⟨e.bindings (.ofNat n) ++ new, m, ?_, hlast,
            .reactive hreactive htag hentry hnumbering⟩
          rw [hnew, hnoted, List.append_assoc]

-- ================================================== what a numbering says

namespace Numbering

variable {n m : Nat} {es os : List Element} {new : List Binding}

/-- Every reactive element takes one number. -/
theorem last_eq (h : Numbering n es os new m) :
    m = n + es.countP Element.isReactive := by
  induction h with
  | nil => rfl
  | plain still _ _ _ ih => rw [ih, List.countP_cons_of_neg (by simp [still])]
  | reactive moves _ _ _ ih =>
      rw [ih, List.countP_cons_of_pos moves]
      omega

/-- The elements stay the same ones in the same order, and those with a key
are the reactive ones. -/
theorem keyed_iff (h : Numbering n es os new m) :
    List.Forall₂
      (fun e o => o.tag = e.tag ∧ o.keyOption?.isSome = e.isReactive)
      es os := by
  induction h with
  | nil => exact .nil
  | plain still tag bare _ ih => exact .cons ⟨tag, by rw [bare, still]; rfl⟩ ih
  | reactive moves tag keyed _ ih =>
      exact .cons ⟨tag, by rw [keyed, moves]; rfl⟩ ih

/-- While the numbers fit, the keys are the numbers from the first to the last
in document order. -/
theorem keys_eq (h : Numbering n es os new m) (room : m ≤ UInt32.size) :
    os.filterMap Element.keyOption?
      = (List.range' n (es.countP Element.isReactive)).map fun k =>
        .literal (.int k) := by
  induction h with
  | nil => rfl
  | plain still _ bare _ ih =>
      rw [List.filterMap_cons_none bare, List.countP_cons_of_neg
        (by simp [still]), ih room]
  | reactive moves _ keyed rest ih =>
      have hlast := rest.last_eq
      rw [List.filterMap_cons_some keyed, List.countP_cons_of_pos moves,
        List.range'_succ, List.map_cons, ih room,
        ElementKey.toOption_ofNat (by omega)]

/-- The bindings are those of the elements one after the other, each element
under its key. -/
theorem bindings_eq (h : Numbering n es os new m) :
    new = (List.zipWith
      (fun e o => o.key?.elim [] e.bindings) es os).flatten := by
  induction h with
  | nil => rfl
  | plain _ _ bare _ ih =>
      rw [List.zipWith_cons_cons, List.flatten_cons, Element.key?, bare, ih]
      rfl
  | @reactive n m e o es os new _ _ keyed _ ih =>
      rw [List.zipWith_cons_cons, List.flatten_cons,
        Element.key?_eq_some_of_toOption keyed, ← ih]
      rfl

/-- Every binding is under one of the numbers. -/
theorem within (h : Numbering n es os new m) (room : m ≤ UInt32.size) :
    ∀ b ∈ new, n ≤ b.key.number.toNat ∧ b.key.number.toNat < m := by
  induction h with
  | nil => nofun
  | plain _ _ _ _ ih => exact ih room
  | reactive _ _ _ rest ih =>
      intro b hb
      rcases List.mem_append.1 hb with hb | hb
      · have hlast := rest.last_eq
        rw [Element.key_of_mem_bindings hb, ElementKey.toNat_ofNat (by omega)]
        omega
      · obtain ⟨hle, hlt⟩ := ih room b hb
        omega

/-- No binding is under a smaller number than one before it. -/
theorem sorted (h : Numbering n es os new m) (room : m ≤ UInt32.size) :
    new.Pairwise fun a b => a.key.number.toNat ≤ b.key.number.toNat := by
  induction h with
  | nil => exact .nil
  | plain _ _ _ _ ih => exact ih room
  | reactive _ _ _ rest ih =>
      refine List.pairwise_append.2 ⟨?_, ih room, ?_⟩
      · refine List.pairwise_iff_forall_sublist.2 fun {a b} hsub => ?_
        have ha := Element.key_of_mem_bindings (hsub.subset List.mem_cons_self)
        have hb := Element.key_of_mem_bindings
          (hsub.subset (List.mem_cons_of_mem _ List.mem_cons_self))
        exact Nat.le_of_eq (by rw [ha, hb])
      · intro a ha b hb
        have hlast := rest.last_eq
        rw [Element.key_of_mem_bindings ha, ElementKey.toNat_ofNat (by omega)]
        exact Nat.le_of_succ_le (rest.within room b hb).1

/-- Every binding is under the key of the element whose options left it. -/
theorem left_by (h : Numbering n es os new m) :
    ∀ b ∈ new, ∃ (i : Nat) (e o : Element), es[i]? = some e ∧ os[i]? = some o
      ∧ o.keyOption? = some b.key.toOption ∧ b ∈ e.bindings b.key := by
  induction h with
  | nil => nofun
  | plain _ _ _ _ ih =>
      intro b hb
      obtain ⟨i, e, o, he, ho, hrest⟩ := ih b hb
      exact ⟨i + 1, e, o, he, ho, hrest⟩
  | @reactive n m e o es os new _ _ keyed _ ih =>
      intro b hb
      rcases List.mem_append.1 hb with hb | hb
      · have hkey := Element.key_of_mem_bindings hb
        rw [← hkey] at hb keyed
        exact ⟨0, e, o, rfl, rfl, keyed, hb⟩
      · obtain ⟨i, e, o, he, ho, hrest⟩ := ih b hb
        exact ⟨i + 1, e, o, he, ho, hrest⟩

/-- While the numbers fit, no two elements have the same key. -/
theorem keys_distinct (h : Numbering n es os new m)
    (room : m ≤ UInt32.size) {i j : Nat}
    {o o' : Element} {v : OptionValue} (hi : os[i]? = some o)
    (hj : os[j]? = some o')
    (ho : o.keyOption? = some v) (ho' : o'.keyOption? = some v) : i = j := by
  have hnodup : (os.filterMap Element.keyOption?).Nodup := by
    rw [h.keys_eq room]
    refine List.Pairwise.map _ (fun a b hne heq => hne ?_) List.nodup_range'
    injection heq with heq
    injection heq with heq
    exact Int.ofNat.inj heq
  have hapart := List.pairwise_iff_getElem.1 (List.pairwise_filterMap.1 hnodup)
  obtain ⟨hilt, rfl⟩ := List.getElem?_eq_some_iff.1 hi
  obtain ⟨hjlt, rfl⟩ := List.getElem?_eq_some_iff.1 hj
  rcases Nat.lt_trichotomy i j with hlt | heq | hgt
  · exact absurd rfl (hapart i j hilt hjlt hlt v ho v ho')
  · exact heq
  · exact absurd rfl (hapart j i hjlt hilt hgt v ho' v ho)

end Numbering

-- ========================================================= resolved trees

/-- The keys of a tree number its reactive elements: `out` is resolved out of
`node`, with keys from `first` up to before `last` and the bindings `new`. -/
structure Node.NumberedAs (node out : Node) (first last : Nat)
    (new : List Binding) : Prop where
  /-- In document order, the elements with a key have the numbers from `first`
  on, each once. -/
  keys : out.elements.filterMap Element.keyOption?
    = (List.range' first (last - first)).map fun k => .literal (.int k)
  /-- No number but these is taken. -/
  counted : last = first + node.visited.countP Element.isReactive
  /-- The elements of the result are the visited ones, and an element has a
  key exactly if the author wrote a reactive option on it. -/
  keyed : List.Forall₂
    (fun e o => o.tag = e.tag ∧ (o.keyOption?.isSome ↔ e.isReactive))
    node.visited out.elements
  /-- The bindings are those of the elements in document order, each element
  under its key. -/
  bindings : new
    = (List.zipWith (fun e o => o.key?.elim [] e.bindings) node.visited
      out.elements).flatten
  /-- No binding has a smaller key than one before it. -/
  sorted : new.Pairwise fun a b => a.key.number.toNat ≤ b.key.number.toNat
  /-- The key of every binding is one of the new numbers. -/
  within : ∀ b ∈ new, first ≤ b.key.number.toNat ∧ b.key.number.toNat < last
  /-- Every binding names the element whose options left it, and no other. -/
  named : ∀ b ∈ new, ∃ (i : Nat) (e o : Element), node.visited[i]? = some e
    ∧ out.elements[i]? = some o ∧ b ∈ e.bindings b.key
      ∧ o.keyOption? = some b.key.toOption
    ∧ ∀ (j : Nat) (o' : Element), out.elements[j]? = some o' →
        o'.keyOption? = some b.key.toOption → j = i

/-- Where no option of a tree is named `key` and the counter has room,
resolving the tree numbers its reactive elements in document order, whatever
the pass has seen before. -/
theorem Node.resolve_numbers {node out : Node} {pass pass' : Pass}
    (avoids : ∀ e ∈ node.elements, e.AvoidsKey)
    (room : pass.nextKey.toNat + node.visited.countP Element.isReactive
      < UInt32.size)
    (h : node.resolve pass = .ok out pass') :
    ∃ new, pass'.bindings = pass.bindings ++ new
      ∧ node.NumberedAs out pass.nextKey.toNat pass'.nextKey.toNat new := by
  have run := Node.resolve_workedOff h
  obtain ⟨new, m, hnew, hlast, hnumbering⟩ := run.numbering
    (fun e he => avoids e (node.visited_sublist.subset he))
      UInt32.ofNat_toNat.symm
  have hm := hnumbering.last_eq
  rw [← hm] at room
  have hlast : pass'.nextKey.toNat = m := by
    rw [hlast, UInt32.toNat_ofNat_of_lt' room]
  rw [hlast]
  have hfits := Nat.le_of_lt room
  refine ⟨new, hnew, ?_, hm, ?_, hnumbering.bindings_eq,
    hnumbering.sorted hfits, hnumbering.within hfits, ?_⟩
  · rw [hnumbering.keys_eq hfits, hm, Nat.add_sub_cancel_left]
  · refine hnumbering.keyed_iff.imp fun e o heo => ⟨heo.1, ?_⟩
    rw [heo.2]
  · intro b hb
    obtain ⟨i, e, o, he, ho, hkey, hmem⟩ := hnumbering.left_by b hb
    exact ⟨i, e, o, he, ho, hmem, hkey, fun j o' hj hkey' =>
      hnumbering.keys_distinct hfits hj ho hkey' hkey⟩

/-- A list of three reactive entries: the first stands in the place of the
options, the second only listens, and the text of the third takes the place of
a reactive child. The fragment between them is left alone. -/
def Node.sampleList : Node :=
  let a : OptionValue := .reactive (.state ⟨⟨0⟩, .literal (.str "a"), none⟩)
  let tap : OptionValue := .reactive (.state ⟨⟨1⟩, .source "() => 0", none⟩)
  let mark : OptionValue := .reactive (.reference ⟨.bool true⟩)
  let inner : Element := ⟨"b", .options (.ofList [("title", a)]), some []⟩
  .element ⟨"ul",
    .child (.element
      ⟨"li", .options
        (.ofList [("className", .literal (.str "row")), ("title", a)]), some
        []⟩),
    some [
      .element ⟨"li", .options (.ofList [("onClick", tap)]),
        some [.text "tap"]⟩,
      .fragment [.element inner],
      .element
        ⟨"li", .options (.ofList [("innerText", a), ("hidden", mark)]),
          some [.element inner]⟩]⟩

/-- Resolved with 4 as the next key, its entries are numbered 4, 5 and 6. -/
theorem Node.sampleList_numbers : ∃ out pass' new,
    Node.sampleList.resolve ⟨4, []⟩ = .ok out pass' ∧ pass'.bindings = [] ++ new
      ∧ Node.sampleList.NumberedAs out 4 7 new := by
  have avoids : ∀ e ∈ Node.sampleList.elements, e.AvoidsKey := by decide
  have resolves : Node.sampleList.resolve ⟨4, []⟩ = .ok _ _ := rfl
  obtain ⟨new, hnew, hnumbered⟩ :=
    Node.resolve_numbers avoids (by decide) resolves
  exact ⟨_, _, new, resolves, hnew, hnumbered⟩

end Prerender
