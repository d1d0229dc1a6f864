/-
What small-letter forms are made of.

The program makes texts small for two ends: names of attributes are
written in small letters, and names of variables are compared without
regard to case. Letters beyond ASCII have small forms of one or two
characters, and capital sigma has two, depending on where it stands.
What is needed of all this is where the small-letter form meets ASCII.

Everything about one character is read off `lowerChar_cases`. A
character of ASCII has its small letter in ASCII. One beyond ASCII
leaves ASCII only as the Kelvin sign does, which becomes a `k`; the
table of the others is checked entry by entry (`target_lowerRuns`). From
there on texts are followed character by character
(`forall_mem_lowerAfter`):

1. no small-letter form holds a capital of ASCII
   (`isUpper_of_mem_lowerAfter`);
2. the form of a text of ASCII is in ASCII (`ascii_lowerAfter`);
3. a text whose form is in ASCII and holds no `k` was in ASCII itself
   (`ascii_of_lowerAfter`).

So if a text becomes one of the names that the program looks for, and
that name has no `k`, then no letter beyond ASCII had a part in it
(`lowercase_eq_iff`).
-/
import Prerender.Text.Case

namespace Prerender.Text

-- ========================================================== one character

/-- A property of all characters of ASCII, checked one by one. -/
theorem forall_ascii {p : Char → Prop} (h : ∀ n < 128, p (Char.ofNat n))
    {c : Char} (ascii : c.toNat < 128) : p c := by
  have hc := h c.toNat ascii
  rwa [Char.ofNat_toNat] at hc

/-- The small letters in the table are beyond ASCII, the `k` of the Kelvin
sign excepted, and are characters. -/
theorem target_lowerRuns : ∀ entry ∈ lowerRuns,
    (entry.target = 'k'.toNat ∧ entry.run.first = entry.run.last)
      ∨ (128 ≤ entry.target
        ∧ (entry.target + (entry.run.last - entry.run.first) < 0xD800
          ∨ (0xDFFF < entry.target
            ∧ entry.target + (entry.run.last - entry.run.first) < 0x110000)))
              := by
  decide +kernel

/-- What the small-letter form of a character can be. -/
theorem lowerChar_cases (c : Char) :
    (c.toNat < 128 ∧ lowerChar c = [c.toLower])
      ∨ (128 ≤ c.toNat
        ∧ ((∃ d, lowerChar c = [d] ∧ (d = 'k' ∨ 128 ≤ d.toNat))
          ∨ lowerChar c = ['i', '\u0307'])) := by
  unfold lowerChar
  by_cases hascii : c.toNat < 128
  · exact Or.inl ⟨hascii, if_pos hascii⟩
  · -- beyond ASCII: the capital I with a dot, an entry of the table, or no
    -- letter that has a small form
    refine Or.inr ⟨Nat.le_of_not_lt hascii, ?_⟩
    rw [if_neg hascii]
    split
    · exact Or.inr rfl
    · refine Or.inl ?_
      split
      · next entry hfind =>
        have hentry := target_lowerRuns entry (List.mem_of_find?_eq_some hfind)
        have hrun := List.find?_some hfind
        simp only [CodeRun.contains, Bool.and_eq_true, decide_eq_true_eq]
          at hrun
        obtain ⟨⟨hfirst, hlast⟩, -⟩ := hrun
        refine ⟨_, rfl, ?_⟩
        -- the Kelvin sign, which has an entry of its own, or an entry beyond
        -- ASCII
        rcases hentry with ⟨htarget, hsingle⟩ | ⟨hbeyond, hvalid⟩
        · left
          rw [htarget, show c.toNat - entry.run.first = 0 by omega]
          rfl
        · right
          have hchar :
            (entry.target + (c.toNat - entry.run.first)).isValidChar := by
            unfold Nat.isValidChar
            omega
          rw [Char.ofNat, dif_pos hchar]
          show 128 ≤ entry.target + (c.toNat - entry.run.first)
          omega
      · exact ⟨c, rfl, Or.inr (Nat.le_of_not_lt hascii)⟩

theorem lowerChar_ne_nil (c : Char) : lowerChar c ≠ [] := by
  rcases lowerChar_cases c with ⟨-, heq⟩ | ⟨-, ⟨d, heq, -⟩ | heq⟩
  all_goals
    rw [heq]
    exact List.cons_ne_nil _ _

/-- A small letter of ASCII is no capital. -/
theorem isUpper_toLower {c : Char} (ascii : c.toNat < 128) :
    c.toLower.isUpper = false :=
  forall_ascii (p := fun c => c.toLower.isUpper = false) (by decide) ascii

theorem isUpper_of_le {c : Char} (h : 97 ≤ c.toNat) : c.isUpper = false := by
  refine decide_eq_false fun ⟨_, hle⟩ => ?_
  have htoNat : c.toNat ≤ 90 := UInt32.le_iff_toNat_le.1 hle
  omega

/-- No small-letter form holds a capital of ASCII. -/
theorem isUpper_of_mem_lowerChar {c d : Char} (h : d ∈ lowerChar c) :
    d.isUpper = false := by
  rcases lowerChar_cases c with
    ⟨hascii, heq⟩ | ⟨-, ⟨e, heq, rfl | hbeyond⟩ | heq⟩
  · rw [heq, List.mem_singleton] at h
    rw [h]
    exact isUpper_toLower hascii
  · rw [heq, List.mem_singleton] at h
    rw [h]
    rfl
  · rw [heq, List.mem_singleton] at h
    rw [h]
    exact isUpper_of_le (by omega)
  · simp only [heq, List.mem_cons, List.not_mem_nil, or_false] at h
    rcases h with rfl | rfl <;> rfl

/-- What is no capital stays as it is, if it is in ASCII. -/
theorem toLower_of_isUpper {c : Char} (ascii : c.toNat < 128)
    (small : c.isUpper = false) :
    c.toLower = c :=
  forall_ascii (p := fun c => c.isUpper = false → c.toLower = c)
    (by decide) ascii small

/-- The small-letter form of what is no capital is itself, if it is in ASCII.
-/
theorem lowerChar_of_isUpper {c : Char} (ascii : c.toNat < 128)
    (small : c.isUpper = false) :
    lowerChar c = [c] := by
  rw [lowerChar, if_pos ascii, toLower_of_isUpper ascii small]

/-- The small-letter form of a character of ASCII is in ASCII. -/
theorem toNat_lt_of_mem_lowerChar {c d : Char} (ascii : c.toNat < 128)
    (h : d ∈ lowerChar c) :
    d.toNat < 128 := by
  rw [lowerChar, if_pos ascii, List.mem_singleton] at h
  rw [h]
  exact forall_ascii (p := fun c => c.toLower.toNat < 128) (by decide) ascii

-- ================================================================= texts

/-- Whether a text is in ASCII. -/
def IsAscii (s : String) : Prop := ∀ c ∈ s.toList, c.toNat < 128

instance : DecidablePred IsAscii := fun s =>
  List.decidableBAll (fun c : Char => c.toNat < 128) s.toList

variable {cs before : List Char}

/-- In ASCII small letters are taken character by character. -/
theorem lowerAfter_eq_map (h : ∀ c ∈ cs, c.toNat < 128) :
    lowerAfter before cs = cs.map Char.toLower := by
  induction cs generalizing before with
  | nil => rfl
  | cons c rest ih =>
      obtain ⟨hascii, hrest⟩ := List.forall_mem_cons.1 h
      have hsigma : c ≠ 'Σ' := by
        rintro rfl
        exact absurd hascii (by decide)
      rw [lowerAfter, if_neg hsigma, lowerChar, if_pos hascii, ih hrest]
      rfl

/-- Text of ASCII without capitals is its own small-letter form. -/
theorem lowerAfter_eq_self (h : ∀ c ∈ cs, c.toNat < 128 ∧ c.isUpper = false) :
    lowerAfter before cs = cs := by
  rw [lowerAfter_eq_map fun c hc => (h c hc).1,
    List.map_congr_left fun c hc => toLower_of_isUpper (h c hc).1 (h c hc).2,
    List.map_id']

/-- What is so of the small-letter form of every character is so of that of a
text, if it is so of the two small sigmas wherever there is a capital one. -/
theorem forall_mem_lowerAfter {p : Char → Prop}
    (sigma : 'Σ' ∈ cs → p 'σ' ∧ p 'ς')
    (letters : ∀ c ∈ cs, ∀ d ∈ lowerChar c, p d) :
    ∀ d ∈ lowerAfter before cs, p d := by
  induction cs generalizing before with
  | nil => exact List.forall_mem_nil _
  | cons c rest ih =>
      obtain ⟨hc, hrest⟩ := List.forall_mem_cons.1 letters
      rw [lowerAfter, List.forall_mem_append]
      refine ⟨?_, ih (fun hmem => sigma (List.mem_cons_of_mem c hmem)) hrest⟩
      by_cases hsigma : c = 'Σ'
      · obtain ⟨hmedial, hfinal⟩ := sigma (hsigma ▸ List.mem_cons_self)
        rw [if_pos hsigma, List.forall_mem_singleton, lowerSigma]
        split
        · exact hfinal
        · exact hmedial
      · rw [if_neg hsigma]
        exact hc

/-- A text in small letters holds no capital of ASCII. -/
theorem isUpper_of_mem_lowerAfter :
    ∀ d ∈ lowerAfter before cs, d.isUpper = false :=
  forall_mem_lowerAfter (fun _ => ⟨rfl, rfl⟩) fun _ _ _ hd =>
    isUpper_of_mem_lowerChar hd

/-- The small-letter form of a text of ASCII is in ASCII. -/
theorem ascii_lowerAfter (h : ∀ c ∈ cs, c.toNat < 128) :
    ∀ d ∈ lowerAfter before cs, d.toNat < 128 :=
  forall_mem_lowerAfter (fun hmem => absurd (h 'Σ' hmem) (by decide))
    fun c hc _ hd => toNat_lt_of_mem_lowerChar (h c hc) hd

/-- Text whose small-letter form is in ASCII and holds no `k` is in ASCII. -/
theorem ascii_of_lowerAfter
    (h : ∀ d ∈ lowerAfter before cs, d.toNat < 128 ∧ d ≠ 'k') :
    ∀ c ∈ cs, c.toNat < 128 := by
  induction cs generalizing before with
  | nil => nofun
  | cons c rest ih =>
      rw [lowerAfter, List.forall_mem_append] at h
      refine List.forall_mem_cons.2 ⟨?_, ih h.2⟩
      -- a capital sigma would leave a small one, which is beyond ASCII
      by_cases hsigma : c = 'Σ'
      · rw [if_pos hsigma] at h
        have hbeyond := (List.forall_mem_singleton.1 h.1).1
        unfold lowerSigma at hbeyond
        split at hbeyond <;> exact absurd hbeyond (by decide)
      · rw [if_neg hsigma] at h
        rcases lowerChar_cases c with ⟨hascii, -⟩ | ⟨-, ⟨d, heq, hd⟩ | heq⟩
        · exact hascii
        · rw [heq, List.forall_mem_singleton] at h
          rcases hd with rfl | hbeyond
          · exact absurd rfl h.1.2
          · omega
        · rw [heq] at h
          exact absurd (h.1 '\u0307' (by simp)).1 (by decide)

/-- Text without capitals of ASCII is its small-letter form already, if this
is in ASCII and holds no `k`. -/
theorem eq_of_lowercase_eq {s t : String}
    (small : ∀ c ∈ s.toList, c.isUpper = false)
    (target : ∀ c ∈ t.toList, c.toNat < 128 ∧ c ≠ 'k') (h : lowercase s = t) :
    s = t := by
  have hlower : lowerAfter [] s.toList = t.toList := by
    rw [← h, lowercase, String.toList_ofList]
  have hascii : ∀ c ∈ s.toList, c.toNat < 128 := by
    rw [← hlower] at target
    exact ascii_of_lowerAfter target
  rw [lowerAfter_eq_self fun c hc => ⟨hascii c hc, small c hc⟩] at hlower
  exact String.toList_inj.1 hlower

-- ============================================================ either case

/-- Making the letters of ASCII small does not bring anything into ASCII. -/
theorem toNat_lt_of_toLower {c : Char} (h : c.toLower.toNat < 128) :
    c.toNat < 128 := by
  unfold Char.toLower at h
  split at h
  · next hcapital =>
    have hle : c.toNat ≤ 90 := UInt32.le_iff_toNat_le.1 hcapital.2
    omega
  · exact h

/-- A text has a form in small letters of ASCII, none of them a `k`, exactly
if it has this form when only the letters of ASCII are made small: no letter
beyond ASCII comes in. -/
theorem lowercase_eq_iff {s form : String}
    (small : ∀ c ∈ form.toList, c.toNat < 128 ∧ c ≠ 'k') :
    lowercase s = form ↔ s.toLower = form := by
  have htoLower : s.toLower.toList = s.toList.map Char.toLower :=
    String.toList_map
  have hletters : (∀ c ∈ s.toList, c.toNat < 128) →
    (lowercase s = form ↔ s.toLower = form) := by
    intro hascii
    rw [lowercase, lowerAfter_eq_map hascii, ← String.toList_inj,
      ← String.toList_inj, String.toList_ofList, htoLower]
  constructor
  · intro h
    rw [← h, lowercase, String.toList_ofList] at small
    exact (hletters (ascii_of_lowerAfter small)).1 h
  · intro h
    refine (hletters fun c hc => toNat_lt_of_toLower ?_).2 h
    rw [← h, htoLower] at small
    exact (small _ (List.mem_map_of_mem hc)).1

end Prerender.Text
