/-
Bind groups on the client.

The payload has one group for each key, under the label of the key. The
client evaluates the payload as code, and there a label is the name of a
property: quoted text stands for the text, an identifier for itself, but
digits for a number, whose decimal text is then the name. Keys that are
different texts of one number, such as `1` and `01`, therefore get one
property, and the client finds the last group of them there. Every other
two keys stay apart (`GroupKey.property_eq_iff`): an identifier is no
number, and a quoted key is neither.

So groups are lost exactly where two keys of digits denote one number
(`Payload.ofPage_groups_apart_iff`). Two ways of saying that none is
lost are equivalent to this: no two groups get into one property
(`nodup_properties_iff`), and every cell of a group can be reached in
just one property (`reached_iff`).

How the client reads digits is left open. It depends on the client
whether a number that begins with zero is octal, and how large numbers
are rounded; every statement is about any reading `number`.
-/
import Mathlib.Data.List.Nodup
import Prerender.Proofs.Payload.Fields
import Prerender.Proofs.Payload.Groups

namespace Prerender

open Json (quoted)

-- ================================================================ labels

/-- The property that the client takes a label for: quoted text stands for the
text, digits for the decimal text of the number that they denote, and any
other label for itself. -/
def Payload.propertyName? (number : String → Nat) (label : String) :
    Option String :=
  match label.toList with
  | [] => none
  | '\x22' :: rest =>
      match Json.readQuoted [] (rest.length + 1) rest with
      | some (text, []) => some text
      | _ => none
  | c :: _ => some (if c.isDigit then toString (number label) else label)

namespace GroupKey

/-- Whether the key consists of digits. -/
def isNumeral (key : GroupKey) : Bool :=
  !key.text.isEmpty && key.text.toList.all Char.isDigit

/-- The property of the client that the cells of a key get into. -/
def property (number : String → Nat) (key : GroupKey) : String :=
  if key.isNumeral then toString (number key.text) else key.text

variable {number : String → Nat} {key key' : GroupKey}

theorem isNumeral_iff :
    key.isNumeral = true
      ↔ key.text.toList ≠ [] ∧ ∀ c ∈ key.text.toList, c.isDigit = true := by
  rw [isNumeral, Bool.and_eq_true, Bool.not_eq_true', List.all_eq_true,
    Bool.eq_false_iff, ne_eq, String.isEmpty_iff, ne_eq,
    String.toList_eq_nil_iff]

/-- A key that begins with anything but a digit is none of these. -/
theorem isNumeral_eq_false {c : Char} {rest : List Char}
    (htext : key.text.toList = c :: rest)
    (hc : c.isDigit = false) : key.isNumeral = false := by
  refine Bool.eq_false_iff.2 fun h => ?_
  rw [(isNumeral_iff.1 h).2 c (htext ▸ .head _)] at hc
  cases hc

/-- The number of characters does not shrink by quoting. -/
theorem length_le_flatMap_quotedChar (cs : List Char) :
    cs.length ≤ (cs.flatMap Json.quotedChar).length := by
  induction cs with
  | nil => exact Nat.le_refl _
  | cons c rest ih =>
      rw [List.flatMap_cons, List.length_append, List.length_cons]
      have hpos : 0 < (Json.quotedChar c).length := by
        rcases Json.quotedChar_cases c with ⟨hself, -⟩ | ⟨escape, hescape, -⟩
        · rw [hself]
          exact Nat.one_pos
        · rw [hescape]
          exact Nat.succ_pos _
      omega

/-- Quoted text is read as the text. -/
theorem propertyName?_quoted (s : String) :
    Payload.propertyName? number (quoted s) = some s := by
  have enough : s.toList.length
    < (s.toList.flatMap Json.quotedChar ++ ['\x22']).length + 1 := by
    have := length_le_flatMap_quotedChar s.toList
    rw [List.length_append]
    omega
  have hread := Json.readQuoted_quoted s.toList [] [] enough
  rw [List.reverse_nil, List.nil_append, String.ofList_toList] at hread
  rw [Payload.propertyName?, quoted, String.toList_ofList]
  simp only [hread]

/-- The label of a key gets its cells into the property of the key. -/
theorem propertyName?_label (key : GroupKey) :
    Payload.propertyName? number key.label = some (key.property number) := by
  by_cases h : key.isVerbatim = true
  · obtain ⟨c, rest, htext, hall⟩ := exists_of_isVerbatim h
    have hquote : c ≠ '\x22' := by
      rintro rfl
      cases hall _ (.head _)
    rw [label, if_pos h, Payload.propertyName?, htext]
    simp only
    rw [property]
    unfold isVerbatim at h
    rw [htext] at h
    simp only at h
    cases hdigit : c.isDigit with
    | true =>
        rw [hdigit, if_pos rfl] at h
        have hnumeral : key.isNumeral = true := by
          refine isNumeral_iff.2 ⟨by rw [htext]; exact List.cons_ne_nil _ _, ?_⟩
          rw [htext]
          exact List.forall_mem_cons.2 ⟨hdigit, List.all_eq_true.1 h⟩
        rw [hnumeral]
    | false =>
        rw [isNumeral_eq_false htext hdigit]
  · rw [label, if_neg h, propertyName?_quoted, property]
    have hnumeral : key.isNumeral = false := by
      refine Bool.eq_false_iff.2 fun hnumeral => h ?_
      obtain ⟨hne, hall⟩ := isNumeral_iff.1 hnumeral
      obtain ⟨c, rest, htext⟩ := List.exists_cons_of_ne_nil hne
      rw [htext] at hall
      obtain ⟨hc, hrest⟩ := List.forall_mem_cons.1 hall
      rw [isVerbatim, htext]
      simp only [hc, if_true]
      exact List.all_eq_true.2 hrest
    rw [hnumeral]
    rfl

/-- No two keys share a property but those of digits that denote one number. -/
theorem property_eq_iff : key.property number = key'.property number
    ↔ key = key' ∨ key.isNumeral = true ∧ key'.isNumeral = true
      ∧ number key.text = number key'.text := by
  have hmixed : ∀ a b : GroupKey, a.isNumeral = true → b.isNumeral = false →
      toString (number a.text) ≠ b.text := by
    intro a b _ hb heq
    refine Bool.eq_false_iff.1 hb (isNumeral_iff.2 ⟨?_, fun c hc => ?_⟩)
    · rw [← heq, show (toString (number a.text)).toList = _
        from Nat.toList_repr]
      exact Nat.toDigits_ne_nil
    · rw [← heq] at hc
      exact Text.isDigit_of_mem_toString hc
  have htext : ∀ a b : GroupKey, a.text = b.text ↔ a = b := by
    rintro ⟨a⟩ ⟨b⟩
    simp
  -- both keys are digits, or one of them, or neither
  unfold property
  cases h : key.isNumeral with
  | true =>
      cases h' : key'.isNumeral with
      | true =>
          simp only [if_true, true_and]
          constructor
          · intro heq
            exact Or.inr (Text.toString_nat_inj.1 heq)
          · rintro (rfl | heq)
            · rfl
            · rw [heq]
      | false =>
          simp only [if_true, Bool.false_eq_true, if_false, false_and,
            and_false, or_false]
          refine ⟨fun heq => absurd heq (hmixed key key' h h'), ?_⟩
          rintro rfl
          rw [h] at h'
          cases h'
  | false =>
      cases h' : key'.isNumeral with
      | true =>
          simp only [if_true, Bool.false_eq_true, if_false, false_and, or_false]
          refine ⟨fun heq => absurd heq.symm (hmixed key' key h' h), ?_⟩
          rintro rfl
          rw [h] at h'
          cases h'
      | false =>
          simp only [Bool.false_eq_true, if_false, false_and, or_false]
          exact htext key key'

end GroupKey

-- ================================================================ groups

namespace Payload

variable {number : String → Nat} {cells : List Cell}

/-- What the client finds in the property `name` of the groups: the last group
under that name, since a later one takes the place of an earlier one. -/
def groupAt? (number : String → Nat) (groups : List (GroupKey × List Cell))
    (name : String) :
    Option (List Cell) :=
  (groups.reverse.find? fun group => propertyName? number group.1.label
    = some name).map Prod.snd

/-- The client finds the cells of a key, all of them, in the property of the
key and nothing else there unless another key has this property. -/
theorem groupAt?_groupCells {name : String} {held : List Cell} :
    groupAt? number (groupCells cells) name = some held →
      ∃ key, key ∈ cells.filterMap Cell.group ∧ key.property number = name
        ∧ held = cells.filter fun cell => cell.group = some key := by
  intro h
  obtain ⟨⟨key, found⟩, hfind, rfl⟩ := Option.map_eq_some_iff.1 h
  have hname := List.find?_some hfind
  have hmem := List.mem_reverse.1 (List.mem_of_find?_eq_some hfind)
  refine ⟨key, ?_, ?_, mem_groupCells hmem⟩
  · rw [groupCells_eq] at hmem
    obtain ⟨k, hk, heq⟩ := List.mem_map.1 hmem
    cases heq
    exact List.mem_eraseDups.1 hk
  · have hlabel := of_decide_eq_true hname
    rw [GroupKey.propertyName?_label] at hlabel
    exact Option.some.inj hlabel

/-- Under the property of a key something is found. -/
theorem isSome_groupAt? (number : String → Nat) {key : GroupKey}
    (h : key ∈ cells.filterMap Cell.group) :
    (groupAt? number (groupCells cells) (key.property number)).isSome
      = true := by
  rw [groupAt?, Option.isSome_map, List.find?_isSome]
  refine ⟨(key, cells.filter fun cell => cell.group = some key), ?_, ?_⟩
  · rw [List.mem_reverse, groupCells_eq]
    exact List.mem_map_of_mem (List.mem_eraseDups.2 h)
  · rw [GroupKey.propertyName?_label]
    exact decide_eq_true rfl

/-- Whether no two different keys of the cells are digits that denote one
number. -/
def NumeralsApart (number : String → Nat) (cells : List Cell) : Prop :=
  ∀ key ∈ cells.filterMap Cell.group, ∀ key' ∈ cells.filterMap Cell.group,
    key.isNumeral = true → key'.isNumeral = true →
    number key.text = number key'.text → key = key'

/-- Then keys with one property are one key. -/
theorem NumeralsApart.eq_of_property (apart : NumeralsApart number cells)
    {key key' : GroupKey}
    (h : key ∈ cells.filterMap Cell.group)
    (h' : key' ∈ cells.filterMap Cell.group)
    (same : key.property number = key'.property number) : key = key' := by
  rcases GroupKey.property_eq_iff.1 same with rfl | ⟨hdigits, hdigits', hnumber⟩
  · rfl
  · exact apart key h key' h' hdigits hdigits' hnumber

/-- No two groups get into one property exactly if no two keys of digits
denote one number. -/
theorem nodup_properties_iff :
    ((groupCells cells).map fun group =>
      propertyName? number group.1.label).Nodup
      ↔ NumeralsApart number cells := by
  have hmap : ((groupCells cells).map fun group =>
    propertyName? number group.1.label)
      = (cells.filterMap Cell.group).eraseDups.map fun key =>
        some (key.property number) := by
    rw [groupCells_eq, List.map_map]
    exact List.map_congr_left fun key _ => GroupKey.propertyName?_label key
  rw [hmap]
  constructor
  · intro hdistinct key hkey key' hkey' hdigits hdigits' hnumber
    refine List.inj_on_of_nodup_map hdistinct (List.mem_eraseDups.2 hkey)
      (List.mem_eraseDups.2 hkey') ?_
    exact congrArg some
      (GroupKey.property_eq_iff.2 (Or.inr ⟨hdigits, hdigits', hnumber⟩))
  · intro apart
    refine List.Nodup.map_on (fun key hkey key' hkey' heq => ?_)
      (nodup_eraseDups _)
    exact apart.eq_of_property (List.mem_eraseDups.1 hkey)
      (List.mem_eraseDups.1 hkey') (Option.some.inj heq)

/-- So is every cell of a group reached in one property. -/
theorem reached_iff :
    (∀ cell ∈ cells, cell.group ≠ none →
        ∃! name, ∃ held, groupAt? number (groupCells cells) name = some held
          ∧ cell ∈ held)
      ↔ NumeralsApart number cells := by
  constructor
  · intro hreached key hkey key' hkey' hdigits hdigits' hnumber
    -- what is found under the property of a key is the group of the key
    have hfound : ∀ k ∈ cells.filterMap Cell.group,
        groupAt? number (groupCells cells) (k.property number)
          = some (cells.filter fun cell => cell.group = some k) := by
      intro k hk
      obtain ⟨cell, hcell, hgroup⟩ := List.mem_filterMap.1 hk
      obtain ⟨name, ⟨held, hheld, hmem⟩, -⟩ :=
        hreached cell hcell (by rw [hgroup]; exact Option.some_ne_none k)
      obtain ⟨k', -, rfl, rfl⟩ := groupAt?_groupCells hheld
      have hk' := of_decide_eq_true (List.mem_filter.1 hmem).2
      rw [hgroup] at hk'
      cases hk'
      exact hheld
    have hsame :=
      GroupKey.property_eq_iff.2 (Or.inr ⟨hdigits, hdigits', hnumber⟩)
    have heq := (hfound key hkey).symm.trans (hsame ▸ hfound key' hkey')
    obtain ⟨cell, hcell, hgroup⟩ := List.mem_filterMap.1 hkey
    have hmem : cell ∈ cells.filter fun cell => cell.group = some key :=
      List.mem_filter.2 ⟨hcell, decide_eq_true hgroup⟩
    rw [Option.some.inj heq] at hmem
    have hgroup' := of_decide_eq_true (List.mem_filter.1 hmem).2
    exact Option.some.inj (hgroup.symm.trans hgroup')
  · -- the group is found under its key, and under no other
    intro apart cell hcell hbound
    obtain ⟨key, hgroup⟩ := Option.ne_none_iff_exists'.1 hbound
    have hkey : key ∈ cells.filterMap Cell.group :=
      List.mem_filterMap.2 ⟨cell, hcell, hgroup⟩
    obtain ⟨held, hheld⟩ :=
      Option.isSome_iff_exists.1 (isSome_groupAt? number hkey)
    refine ⟨key.property number, ⟨held, hheld, ?_⟩, ?_⟩
    · obtain ⟨k, hk, hsame, rfl⟩ := groupAt?_groupCells hheld
      rw [apart.eq_of_property hk hkey hsame]
      exact List.mem_filter.2 ⟨hcell, decide_eq_true hgroup⟩
    · rintro name ⟨held', hheld', hmem⟩
      obtain ⟨k, -, rfl, rfl⟩ := groupAt?_groupCells hheld'
      have hk := of_decide_eq_true (List.mem_filter.1 hmem).2
      rw [hgroup] at hk
      cases hk
      rfl

/-- The bind groups of a payload: one for each key of the cells, in the order
in which the keys first come, with the cells of the key in their order. No two
groups get into one property of the client, and every cell of a group can be
reached in just one property, exactly as long as no two different keys are
digits that denote one number. -/
theorem ofPage_groups_apart_iff (number : String → Nat) (url : String)
    (cells : List Cell) (bindings : List Binding) (hooks : List LoadHook) :
    let groups := (ofPage url cells bindings hooks).groups
    groups.map Prod.fst = (cells.filterMap Cell.group).eraseDups
      ∧ (∀ group ∈ groups, group.2 = cells.filter fun cell =>
        cell.group = some group.1)
      ∧ ((groups.map fun group => propertyName? number group.1.label).Nodup
        ↔ NumeralsApart number cells)
      ∧ ((∀ cell ∈ cells, cell.group ≠ none →
          ∃! name, ∃ held, groupAt? number groups name = some held
            ∧ cell ∈ held)
        ↔ NumeralsApart number cells) := by
  have hkeys : (groupCells cells).map Prod.fst
    = (cells.filterMap Cell.group).eraseDups := by
    rw [groupCells_eq, List.map_map]
    exact List.map_id _
  exact ⟨hkeys, fun _ hgroup => mem_groupCells hgroup, nodup_properties_iff,
    reached_iff⟩

/-- Two cells whose keys are texts of the number one. -/
def twinCells : List Cell :=
  [⟨⟨0⟩, .literal (.str "a"), some ⟨"1"⟩, []⟩,
    ⟨⟨1⟩, .literal (.str "b"), some ⟨"01"⟩, []⟩]

/-- Both labels are written as they are, both groups get into the property
`1`, and the client finds the second one there. -/
theorem twinCells_clash : let groups :=
  (ofPage "/" twinCells [] []).groups
    let decimal (s : String) : Nat := Text.digitsValue s.toList
    groups.map (fun group => group.1.label) = ["1", "01"]
      ∧ ¬ (groups.map fun group => propertyName? decimal group.1.label).Nodup
      ∧ ((groupAt? decimal groups "1").map fun held => held.map fun cell =>
        cell.id.number)
        = some [1] := by
  decide +kernel

end Payload
end Prerender
