/-
What minification does to a text.

The program takes the text by lines: it trims each, leaves out those of
which nothing remains, and joins the others. Lines are an odd way to say
it. A blank line that goes, and the blanks at the ends of the lines
around it, are one run of blanks, of which one line feed is left. So
minifying is trimming the text and merging each run of blanks that has a
line feed (`minifyChars_eq`).

The proof follows the lines from the end (`joinLines_keptOf`). A line is
blank, and then it belongs to the run around it; or it has a core, and
then the run behind the core goes on to the next core or to the end of
the text. The carriage returns of line ends need no care: they are
blanks and are trimmed anyway (`keptLines_eq`).

Merging looks at nothing but the run. So it may be done piece by piece
wherever a piece begins or ends without a blank (`mergeBreaks_between`),
which is how a text is followed that was put together from many pieces,
only some of which are known.
-/
import Prerender.Proofs.Text.Blank
import Prerender.Script.Minify

namespace Prerender.Script

-- =============================================================== merging

open Text (isBlank trimChars joinLines splitLines FirmStart FirmEnd OneLine)

/-- What is left of a run of blanks: one line feed if there is a line feed in
it, else all of it. -/
def mergeRun (run : List Char) : List Char := if '\n' ∈ run then ['\n'] else run

/-- The characters with each run of blanks merged, where `run` is what was
read of a run so far. -/
def mergeFrom (run : List Char) : List Char → List Char
  | [] => mergeRun run
  | c :: rest =>
      if isBlank c then mergeFrom (run ++ [c]) rest
      else mergeRun run ++ c :: mergeFrom [] rest

/-- The text with each run of blanks that has a line feed put down to one line
feed. -/
def mergeBreaks (s : String) : String := String.ofList (mergeFrom [] s.toList)

section
variable {run cs ds gap : List Char} {c : Char}

/-- Blanks are read into the run. -/
theorem mergeFrom_append_of_blank (h : ∀ c ∈ cs, isBlank c = true)
    (run ds : List Char) :
    mergeFrom run (cs ++ ds) = mergeFrom (run ++ cs) ds := by
  induction cs generalizing run with
  | nil => rw [List.nil_append, List.append_nil]
  | cons c rest ih =>
      obtain ⟨hc, hrest⟩ := List.forall_mem_cons.1 h
      rw [List.cons_append, mergeFrom, if_pos hc, ih hrest, List.append_assoc,
        List.singleton_append]

/-- A run ends at a character that is not blank. -/
theorem mergeFrom_append_cons (h : isBlank c = false) (run cs ds : List Char) :
    mergeFrom run (cs ++ c :: ds)
      = mergeFrom run cs ++ c :: mergeFrom [] ds := by
  induction cs generalizing run with
  | nil =>
      rw [List.nil_append, mergeFrom, mergeFrom, h]
      rfl
  | cons d rest ih =>
      rw [List.cons_append, mergeFrom, mergeFrom]
      split
      · exact ih _
      · rw [ih, List.append_assoc, List.cons_append]

/-- So it does where a text begins without a blank. -/
theorem FirmStart.mergeFrom_append (h : FirmStart ds) (run cs : List Char) :
    mergeFrom run (cs ++ ds) = mergeFrom run cs ++ mergeFrom [] ds := by
  obtain ⟨c, rest, rfl, hc⟩ := Text.firmStart_iff.1 h
  rw [mergeFrom_append_cons hc, ← List.nil_append (c :: rest),
    mergeFrom_append_cons hc]
  rfl

theorem FirmEnd.mergeFrom_append (h : FirmEnd cs) (run ds : List Char) :
    mergeFrom run (cs ++ ds) = mergeFrom run cs ++ mergeFrom [] ds := by
  obtain ⟨front, c, rfl, hc⟩ := Text.firmEnd_iff.1 h
  rw [List.append_assoc, List.singleton_append, mergeFrom_append_cons hc,
    mergeFrom_append_cons hc, List.append_assoc]
  rfl

/-- Without a line feed nothing is merged. -/
theorem mergeFrom_of_not_mem (hrun : '\n' ∉ run) (hcs : '\n' ∉ cs) :
    mergeFrom run cs = run ++ cs := by
  induction cs generalizing run with
  | nil => rw [mergeFrom, mergeRun, if_neg hrun, List.append_nil]
  | cons c rest ih =>
      have hc : '\n' ≠ c := List.ne_of_not_mem_cons hcs
      have hrest : '\n' ∉ rest := List.not_mem_of_not_mem_cons hcs
      rw [mergeFrom]
      split
      · have hlonger : '\n' ∉ run ++ [c] := by
          rw [List.mem_append, List.mem_singleton]
          exact fun h => h.elim hrun hc
        rw [ih hlonger hrest, List.append_assoc, List.singleton_append]
      · rw [mergeRun, if_neg hrun, ih List.not_mem_nil hrest, List.nil_append]

/-- What stands between two texts is one run. If there is a line feed in it,
that is what is left. -/
theorem mergeFrom_across (hend : FirmEnd cs) (hstart : FirmStart ds)
    (hone : '\n' ∉ cs)
    (hgap : ∀ c ∈ gap, isBlank c = true) (hbreak : '\n' ∈ gap) :
    mergeFrom [] (cs ++ (gap ++ ds)) = cs ++ '\n' :: mergeFrom [] ds := by
  have hmerged : mergeFrom [] gap = ['\n'] := by
    rw [← List.append_nil gap, mergeFrom_append_of_blank hgap, List.nil_append,
      mergeFrom, mergeRun, if_pos hbreak]
  rw [FirmEnd.mergeFrom_append hend, mergeFrom_of_not_mem List.not_mem_nil hone,
    FirmStart.mergeFrom_append hstart, hmerged]
  rfl

/-- What begins without a blank is not merged away. -/
theorem FirmStart.mergeFrom_ne_nil (h : FirmStart cs) :
    mergeFrom [] cs ≠ [] := by
  obtain ⟨c, rest, rfl, hc⟩ := Text.firmStart_iff.1 h
  rw [mergeFrom, hc]
  exact List.cons_ne_nil _ _

/-- Two lines with text in each of them. -/
theorem mergeFrom_trimChars_lines (hone : '\n' ∉ cs)
    (hcs : FirmStart (trimChars cs))
    (hds : FirmStart (trimChars ds)) :
    mergeFrom [] (trimChars (cs ++ '\n' :: ds))
      = trimChars cs ++ '\n' :: mergeFrom [] (trimChars ds) := by
  rcases Text.blank_or_firm cs with hblank | ⟨pre, core, post, rfl, hpre,
    hstart, hend, hpost⟩
  · exact absurd (Text.trimChars_of_blank hblank) hcs.ne_nil
  rcases Text.blank_or_firm ds with hblank | ⟨pre', core', post', rfl, hpre',
    hstart', hend', hpost'⟩
  · exact absurd (Text.trimChars_of_blank hblank) hds.ne_nil
  have hsplit : pre ++ (core ++ post) ++ '\n' :: (pre' ++ (core' ++ post'))
      = pre ++ ((core ++ ((post ++ '\n' :: pre') ++ core')) ++ post') := by
    simp only [List.append_assoc, List.cons_append]
  have hgap : ∀ c ∈ post ++ '\n' :: pre', isBlank c = true :=
    List.forall_mem_append.2 ⟨hpost, List.forall_mem_cons.2 ⟨rfl, hpre'⟩⟩
  rw [hsplit, Text.trimChars_eq hpre (hstart.append _)
    ((hend'.append _).append _) hpost', Text.trimChars_eq hpre hstart hend
      hpost, Text.trimChars_eq hpre' hstart' hend' hpost']
  refine mergeFrom_across hend hstart' ?_ hgap
    (List.mem_append_right _ (.head _))
  exact fun hmem => hone (List.mem_append_right _ (List.mem_append_left _ hmem))

-- ============================================================ minifying

/-- Only no lines are joined to nothing, if none of them is empty. -/
theorem joinLines_eq_nil {lines : List (List Char)}
    (hne : ∀ line ∈ lines, line ≠ [])
    (h : joinLines lines = []) : lines = [] := by
  cases lines with
  | nil => rfl
  | cons line rest =>
      cases rest with
      | nil => exact absurd h (hne line (.head _))
      | cons line' rest =>
          exact absurd (List.append_eq_nil_iff.1 h).2 (List.cons_ne_nil _ _)

/-- What is left of a list of lines. -/
def keptOf (lines : List (List Char)) : List (List Char) :=
  (lines.map trimChars).filter fun line => !line.isEmpty

theorem ne_nil_of_mem_keptOf {lines : List (List Char)} {line : List Char}
    (h : line ∈ keptOf lines) :
    line ≠ [] := by
  have hne := (List.mem_filter.1 h).2
  rintro rfl
  cases hne

theorem keptOf_cons_of_blank {line : List Char}
    (h : ∀ c ∈ line, isBlank c = true)
    (rest : List (List Char)) : keptOf (line :: rest) = keptOf rest := by
  rw [keptOf, List.map_cons, Text.trimChars_of_blank h]
  rfl

/-- A line with a core is kept with its core. -/
theorem keptOf_cons_of_firm {line : List Char} (h : FirmStart (trimChars line))
    (rest : List (List Char)) :
    keptOf (line :: rest) = trimChars line :: keptOf rest := by
  rw [keptOf, List.map_cons, List.filter_cons_of_pos]
  · rfl
  · rw [List.isEmpty_eq_false_iff.2 h.ne_nil]
    rfl

theorem keptOf_append (front back : List (List Char)) :
    keptOf (front ++ back) = keptOf front ++ keptOf back := by
  rw [keptOf, List.map_append, List.filter_append]
  rfl

/-- The lines that are kept are what is left of the pieces between line feeds:
a carriage return at the end of a piece is trimmed with it, and a piece
without characters is not kept anyway. -/
theorem keptLines_eq (cs : List Char) :
    keptLines cs = keptOf (splitLines cs) := by
  have hne := Text.splitLines_ne_nil cs
  have hreturn : trimChars ∘ Text.dropReturn = trimChars :=
    funext Text.trimChars_dropReturn
  have hlast : ∀ last : List Char, keptOf
    ([last].filter fun line => !line.isEmpty) = keptOf [last] := by
    intro last
    cases last with
    | nil => rfl
    | cons c rest => rfl
  have hkept := keptOf_append (splitLines cs).dropLast
    [(splitLines cs).getLast hne]
  rw [List.dropLast_concat_getLast hne] at hkept
  show keptOf (Text.lines cs) = _
  rw [hkept, Text.lines, List.getLast?_eq_some_getLast hne, Option.toList_some,
    keptOf_append, hlast, keptOf, List.map_map, hreturn]
  rfl

/-- Joining the lines that are kept is merging the runs between the ends of
the trimmed text. -/
theorem joinLines_keptOf {lines : List (List Char)}
    (h : ∀ line ∈ lines, '\n' ∉ line) :
    joinLines (keptOf lines) = mergeFrom [] (trimChars (joinLines lines)) := by
  induction lines with
  | nil => rfl
  | cons line rest ih =>
      obtain ⟨hone, hrest⟩ := List.forall_mem_cons.1 h
      have ih := ih hrest
      cases rest with
      | nil =>
          rcases Text.blank_or_trimChars line with hblank | hfirm
          · rw [keptOf_cons_of_blank hblank, joinLines,
              Text.trimChars_of_blank hblank]
            rfl
          · have hone' : '\n' ∉ trimChars line := fun hmem =>
              hone (Text.mem_of_mem_trimChars hmem)
            rw [keptOf_cons_of_firm hfirm, joinLines,
              mergeFrom_of_not_mem List.not_mem_nil hone']
            rfl
      | cons next rest =>
          rw [Text.joinLines_cons (List.cons_ne_nil next rest)]
          generalize joinLines (next :: rest) = more at ih
          rcases Text.blank_or_trimChars line with hblank | hfirm
          · -- a blank line belongs to the run of blanks around it
            have hrun : ∀ c ∈ line ++ ['\n'], isBlank c = true :=
              List.forall_mem_append.2 ⟨hblank, List.forall_mem_singleton.2 rfl⟩
            rw [keptOf_cons_of_blank hblank, ih, List.append_cons,
              Text.trimChars_append_of_blank hrun]
          rw [keptOf_cons_of_firm hfirm]
          rcases Text.blank_or_trimChars more with hblank | hmore
          · -- nothing but blanks follows, and is trimmed
            have hrun : ∀ c ∈ '\n' :: more, isBlank c = true :=
              List.forall_mem_cons.2 ⟨rfl, hblank⟩
            have hone' : '\n' ∉ trimChars line := fun hmem =>
              hone (Text.mem_of_mem_trimChars hmem)
            rw [Text.trimChars_of_blank hblank] at ih
            rw [joinLines_eq_nil (fun _ => ne_nil_of_mem_keptOf) ih,
              Text.trimChars_append_blank hrun,
              mergeFrom_of_not_mem List.not_mem_nil hone']
            rfl
          · -- a core follows, and one line feed is left in front of it
            have hkept : keptOf (next :: rest) ≠ [] := by
              intro hnil
              rw [hnil] at ih
              exact FirmStart.mergeFrom_ne_nil hmore ih.symm
            rw [Text.joinLines_cons hkept, ih,
              mergeFrom_trimChars_lines hone hfirm hmore]

end

/-- Minifying trims a text and merges its runs of blanks. -/
theorem minifyChars_eq (cs : List Char) :
    minifyChars cs = mergeFrom [] (trimChars cs) := by
  have h := joinLines_keptOf fun line (hline : line ∈ splitLines cs) =>
    Text.not_mem_of_mem_splitLines hline
  rwa [Text.joinLines_splitLines, ← keptLines_eq] at h

-- ================================================================= texts

section
variable {s t u : String}

/-- A text of one line behind which another text begins anew. -/
structure Opening (s : String) : Prop where
  oneLine : OneLine s
  firmEnd : FirmEnd s.toList

/-- A text of one line with which the text before it ends. -/
structure Closing (s : String) : Prop where
  oneLine : OneLine s
  firmStart : FirmStart s.toList

theorem Opening.append (hs : OneLine s) (ht : Opening t) :
    Opening (s ++ t) := by
  refine ⟨hs.append ht.oneLine, ?_⟩
  rw [String.toList_append]
  exact ht.firmEnd.append _

/-- What comes behind the beginning of a closing closes too, if it is of one
line. -/
theorem Closing.append (hs : Closing s) (ht : OneLine t) :
    Closing (s ++ t) := by
  refine ⟨hs.oneLine.append ht, ?_⟩
  rw [String.toList_append]
  exact hs.firmStart.append _

/-- A text without blanks at its ends is minified by merging alone. -/
theorem minify_eq (hstart : FirmStart s.toList) (hend : FirmEnd s.toList) :
    minify s = mergeBreaks s := by
  have htrim : trimChars s.toList = s.toList := by
    have h := @Text.trimChars_eq [] s.toList [] nofun hstart hend nofun
    rwa [List.append_nil, List.nil_append] at h
  rw [minify, minifyChars_eq, htrim, mergeBreaks]

/-- In a text of one line there is nothing to merge. -/
theorem mergeBreaks_of_oneLine (h : OneLine s) : mergeBreaks s = s := by
  rw [mergeBreaks, mergeFrom_of_not_mem List.not_mem_nil h, List.nil_append,
    String.ofList_toList]

/-- Behind a text that ends without a blank merging begins anew. -/
theorem mergeBreaks_append_of_firmEnd (h : FirmEnd s.toList) (t : String) :
    mergeBreaks (s ++ t) = mergeBreaks s ++ mergeBreaks t := by
  rw [mergeBreaks, String.toList_append, FirmEnd.mergeFrom_append h,
    String.ofList_append]
  rfl

/-- So it does in front of one that begins without a blank. -/
theorem mergeBreaks_append_of_firmStart (h : FirmStart t.toList) (s : String) :
    mergeBreaks (s ++ t) = mergeBreaks s ++ mergeBreaks t := by
  rw [mergeBreaks, String.toList_append, FirmStart.mergeFrom_append h,
    String.ofList_append]
  rfl

/-- Only what stands between the two is touched. -/
theorem mergeBreaks_between (hs : Opening s) (ht : Closing t) (u : String) :
    mergeBreaks (s ++ u ++ t) = s ++ mergeBreaks u ++ t := by
  rw [mergeBreaks_append_of_firmStart ht.firmStart,
    mergeBreaks_append_of_firmEnd hs.firmEnd, mergeBreaks_of_oneLine hs.oneLine,
    mergeBreaks_of_oneLine ht.oneLine]

/-- Entries between commas are merged each by itself. -/
theorem mergeBreaks_commaSeparated (entries : List String) :
    mergeBreaks (Json.commaSeparated entries)
      = Json.commaSeparated (entries.map mergeBreaks) := by
  induction entries with
  | nil => rfl
  | cons s rest ih =>
      cases rest with
      | nil => rfl
      | cons t rest =>
          have hstart : FirmStart
            ("," ++ Json.commaSeparated (t :: rest)).toList := by
            rw [String.toList_append]
            exact Text.FirmStart.append (by decide) _
          have hend : FirmEnd ",".toList := by decide
          have hcomma : OneLine "," := by decide
          rw [Text.commaSeparated_cons, Text.commaTail,
            mergeBreaks_append_of_firmStart hstart,
            mergeBreaks_append_of_firmEnd hend,
            mergeBreaks_of_oneLine hcomma, ih]
          exact (Text.commaSeparated_cons (mergeBreaks s)
            ((t :: rest).map mergeBreaks)).symm

end

end Prerender.Script
