/-
White space at the ends of a text, and texts of one line.

Trimming takes what is blank from both ends. What is left is best told
by a split: a text is blank throughout, or it is a core between two runs
of blanks, where the core begins and ends with characters that are not
blank (`blank_or_firm`). Such a core is what trimming leaves
(`trimChars_eq`), and everything else about trimming is read off the
split: what stands at the end and is blank does not count
(`trimChars_append_blank`), the carriage return in front of a line feed
among it (`trimChars_dropReturn`), and what is left has a firm start
unless nothing is left (`blank_or_trimChars`).

`FirmStart` and `FirmEnd` are decided by the first and the last
character. So a fixed piece of code has them by evaluation, and they
pass on to any text that begins or ends with the piece. This is how the
client code of a payload gets them, whose pieces in between are not
known.

The last part is about texts without a line feed. Most of what a program
writes is made of these: numbers, quoted texts, names and punctuation.
They stay so when they are put together, one after the other or with
commas.
-/
import Mathlib.Data.List.TakeWhile
import Prerender.Proofs.Text.Told
import Prerender.Text.Blank

namespace Prerender.Text

-- ============================================================= trimming

variable {cs ds gap pre core post : List Char}

/-- Whether the characters begin with one that is not blank. -/
def FirmStart (cs : List Char) : Prop :=
  cs.head?.any (fun c => !isBlank c) = true

/-- Whether the characters end with one that is not blank. -/
def FirmEnd (cs : List Char) : Prop :=
  cs.getLast?.any (fun c => !isBlank c) = true

instance : Decidable (FirmStart cs) := inferInstanceAs (Decidable (_ = true))

instance : Decidable (FirmEnd cs) := inferInstanceAs (Decidable (_ = true))

/-- There is a first character, and it is not blank. -/
theorem firmStart_iff :
    FirmStart cs ↔ ∃ c rest, cs = c :: rest ∧ isBlank c = false := by
  unfold FirmStart
  cases cs with
  | nil => exact ⟨nofun, nofun⟩
  | cons c rest =>
      rw [List.head?_cons, Option.any_some, Bool.not_eq_true']
      refine ⟨fun h => ⟨c, rest, rfl, h⟩, ?_⟩
      rintro ⟨d, rest', heq, h⟩
      cases heq
      exact h

/-- There is a last character, and it is not blank. -/
theorem firmEnd_iff :
    FirmEnd cs ↔ ∃ front c, cs = front ++ [c] ∧ isBlank c = false := by
  unfold FirmEnd
  rcases List.eq_nil_or_concat cs with rfl | ⟨front, c, rfl⟩
  · refine ⟨nofun, ?_⟩
    rintro ⟨front, c, heq, -⟩
    exact absurd heq.symm
      (List.append_ne_nil_of_right_ne_nil front (List.cons_ne_nil c []))
  · rw [List.concat_eq_append, List.getLast?_concat, Option.any_some,
      Bool.not_eq_true']
    refine ⟨fun h => ⟨front, c, rfl, h⟩, ?_⟩
    rintro ⟨front', d, heq, h⟩
    have hlast : c = d := List.singleton_inj.1 (List.append_inj' heq rfl).2
    rwa [hlast]

theorem FirmStart.ne_nil (h : FirmStart cs) : cs ≠ [] := by
  rintro rfl
  cases h

/-- What follows does not change how a text begins. -/
theorem FirmStart.append (h : FirmStart cs) (ds : List Char) :
    FirmStart (cs ++ ds) := by
  obtain ⟨c, rest, rfl, hc⟩ := firmStart_iff.1 h
  exact firmStart_iff.2 ⟨c, rest ++ ds, rfl, hc⟩

/-- What stands in front does not change how a text ends. -/
theorem FirmEnd.append (h : FirmEnd ds) (cs : List Char) :
    FirmEnd (cs ++ ds) := by
  obtain ⟨front, c, rfl, hc⟩ := firmEnd_iff.1 h
  exact firmEnd_iff.2 ⟨cs ++ front, c, (List.append_assoc ..).symm, hc⟩

/-- Nothing is trimmed from a firm start. -/
theorem FirmStart.dropWhile (h : FirmStart cs) : cs.dropWhile isBlank = cs := by
  obtain ⟨c, rest, rfl, hc⟩ := firmStart_iff.1 h
  rw [List.dropWhile_cons, hc]
  rfl

/-- Nothing is trimmed from an end that is not blank. -/
theorem FirmEnd.dropEndWhile (h : FirmEnd cs) :
    dropEndWhile isBlank cs = cs := by
  obtain ⟨front, c, rfl, hc⟩ := firmEnd_iff.1 h
  have hreverse : FirmStart (front ++ [c]).reverse :=
    firmStart_iff.2 ⟨c, front.reverse, List.reverse_concat .., hc⟩
  rw [Text.dropEndWhile, hreverse.dropWhile, List.reverse_reverse]

theorem trimChars_of_blank (h : ∀ c ∈ cs, isBlank c = true) :
    trimChars cs = [] := by
  rw [trimChars, stripChars, List.dropWhile_eq_nil_iff.2 h]
  rfl

/-- Blanks in front of a text do not count when it is trimmed. -/
theorem trimChars_append_of_blank (h : ∀ c ∈ cs, isBlank c = true)
    (ds : List Char) :
    trimChars (cs ++ ds) = trimChars ds := by
  rw [trimChars, trimChars, stripChars, stripChars,
    List.dropWhile_append_of_pos h]

/-- Blanks around a text without blanks at its ends are what trimming leaves
out. -/
theorem trimChars_eq (hpre : ∀ c ∈ pre, isBlank c = true)
    (hstart : FirmStart core)
    (hend : FirmEnd core) (hpost : ∀ c ∈ post, isBlank c = true) :
    trimChars (pre ++ (core ++ post)) = core := by
  have hdrop : dropEndWhile isBlank (core ++ post)
    = dropEndWhile isBlank core := by
    rw [dropEndWhile, dropEndWhile, List.reverse_append,
      List.dropWhile_append_of_pos fun c hc => hpost c (List.mem_reverse.1 hc)]
  rw [trimChars_append_of_blank hpre, trimChars, stripChars,
    (hstart.append post).dropWhile, hdrop, hend.dropEndWhile]

/-- A text is blank, or has something to be trimmed to. -/
theorem blank_or_firm (cs : List Char) : (∀ c ∈ cs, isBlank c = true)
    ∨ ∃ pre core post, cs = pre ++ (core ++ post)
      ∧ (∀ c ∈ pre, isBlank c = true)
      ∧ FirmStart core ∧ FirmEnd core ∧ ∀ c ∈ post, isBlank c = true := by
  induction cs with
  | nil => exact Or.inl nofun
  | cons c rest ih =>
      cases hc : isBlank c with
      | true =>
          -- a blank is one more in front
          rcases ih with hblank | ⟨pre, core, post, rfl, hpre, hcore⟩
          · exact Or.inl (List.forall_mem_cons.2 ⟨hc, hblank⟩)
          · exact Or.inr ⟨c :: pre, core, post, rfl, List.forall_mem_cons.2
              ⟨hc, hpre⟩, hcore⟩
      | false =>
          -- here the core begins, and takes in what was in front of the old
          -- one
          rcases ih with hblank | ⟨pre, core, post, rfl, -, -, hend, hpost⟩
          · exact Or.inr
              ⟨[], [c], rest, rfl, nofun, firmStart_iff.2 ⟨c, [], rfl, hc⟩,
                firmEnd_iff.2 ⟨[], c, rfl, hc⟩, hblank⟩
          · refine Or.inr ⟨[], c :: (pre ++ core), post, ?_, nofun,
              firmStart_iff.2 ⟨c, _, rfl, hc⟩, hend.append (c :: pre), hpost⟩
            rw [List.nil_append, List.cons_append, List.append_assoc]

/-- What trimming leaves begins firmly, if anything does. -/
theorem blank_or_trimChars (cs : List Char) :
    (∀ c ∈ cs, isBlank c = true) ∨ FirmStart (trimChars cs) := by
  rcases blank_or_firm cs with hblank | ⟨pre, core, post, rfl, hpre, hstart,
    hend, hpost⟩
  · exact Or.inl hblank
  · rw [trimChars_eq hpre hstart hend hpost]
    exact Or.inr hstart

theorem mem_of_mem_trimChars {c : Char} (h : c ∈ trimChars cs) : c ∈ cs :=
  (List.dropWhile_sublist _).subset (mem_of_mem_dropEndWhile h)

/-- Blanks behind do not count. -/
theorem trimChars_append_blank (h : ∀ c ∈ ds, isBlank c = true)
    (cs : List Char) :
    trimChars (cs ++ ds) = trimChars cs := by
  rcases blank_or_firm cs with hblank | ⟨pre, core, post, rfl, hpre, hstart,
    hend, hpost⟩
  · rw [trimChars_append_of_blank hblank, trimChars_of_blank h,
      trimChars_of_blank hblank]
  · rw [List.append_assoc, List.append_assoc,
      trimChars_eq hpre hstart hend hpost, trimChars_eq hpre hstart hend
      (List.forall_mem_append.2 ⟨hpost, h⟩)]

/-- A carriage return at the end of a line is trimmed in any case. -/
theorem trimChars_dropReturn (line : List Char) :
    trimChars (dropReturn line) = trimChars line := by
  unfold dropReturn
  split
  · next h =>
    obtain ⟨front, rfl⟩ := List.getLast?_eq_some_iff.1 h
    rw [List.dropLast_concat, trimChars_append_blank
      (List.forall_mem_singleton.2 rfl)]
  · rfl

/-- The lines of a text hold no line feed. -/
theorem not_mem_of_mem_splitLines {line : List Char}
    (h : line ∈ splitLines cs) : '\n' ∉ line := by
  induction cs generalizing line with
  | nil =>
      cases List.mem_singleton.1 h
      exact List.not_mem_nil
  | cons c rest ih =>
      rw [splitLines] at h
      split at h
      · rcases List.mem_cons.1 h with rfl | h
        · exact List.not_mem_nil
        · exact ih h
      · next hc =>
        -- the character goes to the first line of the rest
        cases hlines : splitLines rest with
        | nil => exact absurd hlines (splitLines_ne_nil rest)
        | cons first lines =>
            rw [hlines] at h ih
            rcases List.mem_cons.1 h with rfl | h
            · exact List.not_mem_cons_of_ne_of_not_mem (Ne.symm hc)
                (ih (.head _))
            · exact ih (.tail _ h)

-- ============================================================= one line

/-- Whether the text has no line feed. -/
def OneLine (s : String) : Prop := '\n' ∉ s.toList

instance (s : String) : Decidable (OneLine s) :=
  inferInstanceAs (Decidable (_ ∉ _))

/-- Texts of one line make a text of one line. -/
theorem OneLine.append {s t : String} (hs : OneLine s) (ht : OneLine t) :
    OneLine (s ++ t) := by
  rw [OneLine, String.toList_append, List.mem_append]
  exact fun h => h.elim hs ht

/-- Entries of one line each are of one line with commas between. -/
theorem oneLine_commaSeparated {entries : List String}
    (h : ∀ s ∈ entries, OneLine s) :
    OneLine (Json.commaSeparated entries) := by
  induction entries with
  | nil => exact List.not_mem_nil
  | cons s rest ih =>
      obtain ⟨hs, hrest⟩ := List.forall_mem_cons.1 h
      rw [commaSeparated_cons]
      cases rest with
      | nil => exact hs.append List.not_mem_nil
      | cons t rest => exact hs.append (OneLine.append (by decide) (ih hrest))

end Prerender.Text
