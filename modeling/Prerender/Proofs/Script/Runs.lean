/-
Minification run by run.

A text falls into runs of blanks and runs of other characters, which
alternate. What is left of a text is what is left of each run between
its outermost blanks, so that the rule on single runs says all
(`Script.mergeRun`): a run of blanks with a line feed becomes that line
feed, and every other run stays. The runs are those of `List.splitBy`,
about which the library says that they are of one kind each, and that
neighbours differ; from these two facts merging is followed run by run
(`mergeFrom_flatten`).

Two things follow. A text that was minified stays as it is: what is left
of a run has a line feed exactly if the run had one, and is left as it
is (`mergeRun_mergeRun`). And no line break between two neighbours that
are not blank comes or goes (`trimChars_around`), so that a statement
that ended at the end of its line still does.
-/
import Mathlib.Data.List.SplitBy
import Prerender.Proofs.Script.Minify
import Prerender.Site.Builder

namespace Prerender

namespace Text

-- ================================================================= runs

/-- The longest runs of characters that are all blank or all not. -/
def runs (cs : List Char) : List (List Char) :=
  cs.splitBy fun c d => isBlank c == isBlank d

/-- The characters that are not blank. -/
def firm (cs : List Char) : List Char := cs.filter fun c => !isBlank c

section
variable {cs ds run : List Char} {c d : Char}

/-- Characters that are not blank are taken from texts in a row. -/
theorem firm_append (cs ds : List Char) :
    firm (cs ++ ds) = firm cs ++ firm ds :=
  List.filter_append ..

theorem firm_cons (h : isBlank c = false) (cs : List Char) :
    firm (c :: cs) = c :: firm cs :=
  List.filter_cons_of_pos (by rw [h]; rfl)

theorem firm_of_blank (h : ∀ c ∈ cs, isBlank c = true) : firm cs = [] := by
  refine List.filter_eq_nil_iff.2 fun c hc => ?_
  rw [h c hc]
  nofun

theorem firm_dropWhile (cs : List Char) :
    firm (cs.dropWhile isBlank) = firm cs := by
  have hblank : ∀ c ∈ cs.takeWhile isBlank, isBlank c = true := fun _ hc =>
    List.mem_takeWhile_imp hc
  conv_rhs => rw [← List.takeWhile_append_dropWhile (p := isBlank) (l := cs)]
  rw [firm_append, firm_of_blank hblank, List.nil_append]

theorem firm_dropEndWhile (cs : List Char) :
    firm (dropEndWhile isBlank cs) = firm cs := by
  have h := firm_dropWhile cs.reverse
  unfold firm at h ⊢
  rw [dropEndWhile, List.filter_reverse, h, List.filter_reverse,
    List.reverse_reverse]

/-- Nothing is trimmed behind a character that is not blank. -/
theorem dropWhile_append_cons (h : isBlank c = false) (cs ds : List Char) :
    (cs ++ c :: ds).dropWhile isBlank = cs.dropWhile isBlank ++ c :: ds := by
  rw [List.dropWhile_append, List.dropWhile_cons_of_neg
    (by rw [h]; exact Bool.false_ne_true)]
  split
  · next hnil => rw [List.isEmpty_iff.1 hnil, List.nil_append]
  · rfl

/-- Nor is anything in front of it from the other side. -/
theorem dropEndWhile_append_cons (h : isBlank c = false) (cs ds : List Char) :
    dropEndWhile isBlank (cs ++ c :: ds)
      = cs ++ c :: dropEndWhile isBlank ds := by
  have hreverse : (cs ++ c :: ds).reverse = ds.reverse ++ c :: cs.reverse := by
    simp
  rw [dropEndWhile, hreverse, dropWhile_append_cons h, List.reverse_append,
    List.reverse_cons, List.reverse_reverse, List.append_assoc]
  rfl

/-- Between two characters that are not blank nothing is trimmed. -/
theorem trimChars_around (hc : isBlank c = false) (hd : isBlank d = false)
    (before gap after : List Char) :
    trimChars (before ++ c :: (gap ++ d :: after))
      = before.dropWhile isBlank ++ c
        :: (gap ++ d :: dropEndWhile isBlank after) := by
  rw [trimChars, stripChars, dropWhile_append_cons hc, ← List.cons_append,
    ← List.append_assoc, dropEndWhile_append_cons hd, List.append_assoc,
    List.cons_append]

/-- In a run one character is as blank as another. -/
theorem isBlank_of_isChain
    (h : (c :: cs).IsChain fun c d => isBlank c == isBlank d) :
    ∀ d ∈ cs, isBlank d = isBlank c := by
  induction cs generalizing c with
  | nil => nofun
  | cons e rest ih =>
      obtain ⟨hce, hrest⟩ := List.isChain_cons_cons.1 h
      have hce : isBlank e = isBlank c := (beq_iff_eq.1 hce).symm
      exact List.forall_mem_cons.2 ⟨hce, fun d hd => (ih hrest d hd).trans hce⟩

/-- A run is blank throughout, or nowhere. -/
theorem blank_or_not_of_isChain
    (h : run.IsChain fun c d => isBlank c == isBlank d) :
    (∀ c ∈ run, isBlank c = true) ∨ ∀ c ∈ run, isBlank c = false := by
  cases run with
  | nil => exact Or.inl nofun
  | cons c rest =>
      have hsame : ∀ d ∈ c :: rest, isBlank d = isBlank c :=
        List.forall_mem_cons.2 ⟨rfl, isBlank_of_isChain h⟩
      cases hc : isBlank c with
      | true => exact Or.inl fun d hd => (hsame d hd).trans hc
      | false => exact Or.inr fun d hd => (hsame d hd).trans hc

end

end Text

namespace Script

open Text (isBlank trimChars FirmStart FirmEnd runs firm)

-- =============================================================== merging

section
variable {cs ds run : List Char} {c d : Char}

theorem mergeFrom_of_blank (h : ∀ c ∈ cs, isBlank c = true) (run : List Char) :
    mergeFrom run cs = mergeRun (run ++ cs) := by
  have hmerged := mergeFrom_append_of_blank h run []
  rwa [List.append_nil, mergeFrom] at hmerged

/-- Merging leaves no more than a blank of a run of blanks. -/
theorem blank_mergeRun (h : ∀ c ∈ run, isBlank c = true) :
    ∀ c ∈ mergeRun run, isBlank c = true := by
  unfold mergeRun
  split
  · exact List.forall_mem_singleton.2 rfl
  · exact h

/-- What is left of a run has a line feed exactly if the run had one. -/
theorem mem_mergeRun : '\n' ∈ mergeRun run ↔ '\n' ∈ run := by
  unfold mergeRun
  split
  · next h => simp [h]
  · rfl

/-- What is left of a run is left as it is. -/
theorem mergeRun_mergeRun (run : List Char) :
    mergeRun (mergeRun run) = mergeRun run := by
  conv_lhs => rw [mergeRun]
  split
  · next h => rw [mergeRun, if_pos (mem_mergeRun.1 h)]
  · rfl

/-- Merging takes away blanks only. -/
theorem firm_mergeFrom (h : ∀ c ∈ run, isBlank c = true) (cs : List Char) :
    firm (mergeFrom run cs) = firm cs := by
  -- the run in hand is blank all along
  induction cs generalizing run with
  | nil => exact Text.firm_of_blank (blank_mergeRun h)
  | cons c rest ih =>
      rw [mergeFrom]
      split
      · next hc =>
        rw [ih (List.forall_mem_append.2 ⟨h, List.forall_mem_singleton.2 hc⟩),
          firm, firm, List.filter_cons_of_neg
          (by rw [hc]; exact Bool.false_ne_true)]
      · next hc =>
        have hc : isBlank c = false := Bool.eq_false_iff.2 hc
        rw [Text.firm_append, Text.firm_of_blank (blank_mergeRun h),
          Text.firm_cons hc, Text.firm_cons hc, ih (List.forall_mem_nil _),
          List.nil_append]

/-- What was merged has nothing to be merged. -/
theorem mergeFrom_mergeFrom (h : ∀ c ∈ run, isBlank c = true) (cs : List Char) :
    mergeFrom [] (mergeFrom run cs) = mergeFrom run cs := by
  induction cs generalizing run with
  | nil =>
      rw [mergeFrom, mergeFrom_of_blank (blank_mergeRun h), List.nil_append,
        mergeRun_mergeRun]
  | cons c rest ih =>
      rw [mergeFrom]
      split
      · next hc =>
        exact ih (List.forall_mem_append.2 ⟨h, List.forall_mem_singleton.2 hc⟩)
      · next hc =>
        rw [mergeFrom_append_cons (Bool.eq_false_iff.2 hc),
          mergeFrom_of_blank (blank_mergeRun h), List.nil_append,
          mergeRun_mergeRun, ih (List.forall_mem_nil _)]

/-- What begins with a character that is not blank does so after merging. -/
theorem firmStart_mergeFrom (h : FirmStart cs) :
    FirmStart (mergeFrom [] cs) := by
  obtain ⟨c, rest, rfl, hc⟩ := Text.firmStart_iff.1 h
  rw [mergeFrom, hc]
  exact Text.firmStart_iff.2 ⟨c, _, rfl, hc⟩

/-- What ends with a character that is not blank does so after merging. -/
theorem firmEnd_mergeFrom (h : FirmEnd cs) : FirmEnd (mergeFrom [] cs) := by
  obtain ⟨front, c, rfl, hc⟩ := Text.firmEnd_iff.1 h
  rw [mergeFrom_append_cons hc]
  exact Text.firmEnd_iff.2 ⟨_, c, rfl, hc⟩

/-- Merging run by run. -/
theorem mergeFrom_flatten {pieces : List (List Char)} (hne : [] ∉ pieces)
    (heach : ∀ run ∈ pieces, run.IsChain fun c d => isBlank c == isBlank d)
    (hapart : pieces.IsChain fun a b =>
      ∃ ha hb, (isBlank (a.getLast ha) == isBlank (b.head hb)) = false) :
    mergeFrom [] pieces.flatten = (pieces.map mergeRun).flatten := by
  -- the runs are taken off one by one; behind the first there is one of the
  -- other kind, or none
  induction pieces with
  | nil => rfl
  | cons run rest ih =>
      obtain ⟨hrun, hrest⟩ := List.forall_mem_cons.1 heach
      obtain ⟨hnil, hne⟩ := not_or.1 (List.mem_cons.not.1 hne)
      have hnil : run ≠ [] := Ne.symm hnil
      have ih := ih hne hrest hapart.tail
      rw [List.flatten_cons, List.map_cons, List.flatten_cons, ← ih]
      rcases Text.blank_or_not_of_isChain hrun with hblank | hfirm
      · have hmerged : mergeFrom [] run = mergeRun run :=
          mergeFrom_of_blank hblank []
        cases rest with
        | nil =>
            show mergeFrom [] (run ++ []) = mergeRun run ++ []
            rw [List.append_nil, List.append_nil, hmerged]
        | cons next more =>
            -- the next run begins with a character of the other sort
            obtain ⟨hlast, hhead, hdiffer⟩ :=
              (List.isChain_cons_cons.1 hapart).1
            have hstart : FirmStart next := by
              rw [hblank _ (List.getLast_mem hlast), Bool.true_beq] at hdiffer
              exact Text.firmStart_iff.2
                ⟨_, _, (List.cons_head_tail hhead).symm, hdiffer⟩
            have hmore : FirmStart (next :: more).flatten :=
              hstart.append more.flatten
            rw [FirmStart.mergeFrom_append hmore, hmerged]
      · have hbreak : '\n' ∉ run := fun hmem => by cases hfirm _ hmem
        have hend : FirmEnd run := Text.firmEnd_iff.2
          ⟨_, _, (List.dropLast_append_getLast hnil).symm,
            hfirm _ (List.getLast_mem hnil)⟩
        rw [FirmEnd.mergeFrom_append hend,
          mergeFrom_of_not_mem List.not_mem_nil hbreak, mergeRun, if_neg hbreak,
          List.nil_append]

/-- Merging a text is merging its runs one by one. -/
theorem mergeFrom_eq_runs (cs : List Char) :
    mergeFrom [] cs = ((runs cs).map mergeRun).flatten := by
  have h := mergeFrom_flatten
    (List.nil_notMem_splitBy (fun c d => isBlank c == isBlank d) cs)
    (fun _ hrun => List.isChain_of_mem_splitBy hrun)
    (List.isChain_getLast_head_splitBy (fun c d => isBlank c == isBlank d) cs)
  rwa [List.flatten_splitBy] at h

/-- Minifying again changes nothing, as no run that is left changes again. -/
theorem minifyChars_minifyChars (cs : List Char) :
    minifyChars (minifyChars cs) = minifyChars cs := by
  rw [minifyChars_eq (minifyChars cs), minifyChars_eq cs]
  rcases Text.blank_or_firm cs with hblank | ⟨pre, core, post, rfl, hpre,
    hstart, hend, hpost⟩
  · rw [Text.trimChars_of_blank hblank]
    rfl
  · have htrim := @Text.trimChars_eq [] (mergeFrom [] core) [] nofun
      (firmStart_mergeFrom hstart) (firmEnd_mergeFrom hend) nofun
    rw [List.append_nil, List.nil_append] at htrim
    rw [Text.trimChars_eq hpre hstart hend hpost, htrim,
      mergeFrom_mergeFrom (List.forall_mem_nil _)]

end

end Script

open Text (isBlank trimChars runs firm) in
/-- What minification makes of any source. The blanks at its ends go, each
other run of blanks that has a line feed becomes one line feed, and every
other run stays; what comes of it is not changed by minifying it again. Two
neighbours that are not blank stay neighbours, behind and before the same
others, with a line break between them exactly if there was one. -/
theorem Builder.plainTransform_merges_runs (options : Script.Options)
    (source : String) :
    let transform := fun s => plainTransform s { options with minify := true }
    let minified :=
    String.ofList ((runs (trimChars source.toList)).map Script.mergeRun).flatten
    transform source = .ok minified
      ∧ transform minified = .ok minified
      ∧ ∀ before c gap d after, source.toList = before ++ c
        :: (gap ++ d :: after) →
        isBlank c = false → isBlank d = false → (∀ b ∈ gap, isBlank b = true) →
        ∃ before' gap' after', minified.toList = before' ++ c
          :: (gap' ++ d :: after')
          ∧ firm before' = firm before ∧ firm after' = firm after
          ∧ (∀ b ∈ gap', isBlank b = true) ∧ ('\n' ∈ gap' ↔ '\n' ∈ gap) := by
  intro transform minified
  have hminified : minified = Script.minify source := by
    rw [Script.minify, Script.minifyChars_eq, Script.mergeFrom_eq_runs]
  refine ⟨congrArg Except.ok hminified.symm, congrArg Except.ok ?_, ?_⟩
  · rw [hminified, if_pos rfl, Script.minify, Script.minify,
      String.toList_ofList, Script.minifyChars_minifyChars]
  · intro before c gap d after hsource hc hd hgap
    refine ⟨Script.mergeFrom [] (before.dropWhile isBlank), Script.mergeRun gap,
      Script.mergeFrom [] (Text.dropEndWhile isBlank after), ?_, ?_, ?_,
      Script.blank_mergeRun hgap, Script.mem_mergeRun⟩
    · rw [hminified, Script.minify, String.toList_ofList,
        Script.minifyChars_eq, hsource, Text.trimChars_around hc hd,
        Script.mergeFrom_append_cons hc, Script.mergeFrom_append_cons hd,
        Script.mergeFrom_of_blank hgap, List.nil_append]
    · rw [Script.firm_mergeFrom (List.forall_mem_nil _), Text.firm_dropWhile]
    · rw [Script.firm_mergeFrom (List.forall_mem_nil _), Text.firm_dropEndWhile]

/-- Two lines between which there is a blank one, the second with a carriage
return in it, and blanks at the ends. -/
def Script.looseLines : String := "\r\n  a \r\n \n\tb  c\rd\u0085\n"

/-- Of the loose lines two tight ones are left, with one line feed between `a`
and `b`, and none between `c` and `d`, which the carriage return keeps apart
as before. -/
theorem Script.looseLines_merges : let options : Script.Options :=
  ⟨true, [], .esm, .browser, .js⟩
    let minified := "a\nb  c\rd"
    Builder.plainTransform looseLines options = .ok minified
      ∧ Builder.plainTransform minified options = .ok minified
      ∧ (∃ before gap after, minified.toList = before ++ 'a'
        :: (gap ++ 'b' :: after) ∧ '\n' ∈ gap)
      ∧ ∃ before gap after, minified.toList = before ++ 'c'
        :: (gap ++ 'd' :: after)
        ∧ (∀ b ∈ gap, Text.isBlank b = true) ∧ '\n' ∉ gap := by
  intro options minified
  have hminified : String.ofList
      ((Text.runs (Text.trimChars looseLines.toList)).map mergeRun).flatten
        = minified := by
    decide +kernel
  obtain ⟨hfirst, hagain, hpairs⟩ :=
    Builder.plainTransform_merges_runs options looseLines
  rw [hminified] at hfirst hagain hpairs
  obtain ⟨before, gap, after, hab, -, -, -, hbreak⟩ :=
    hpairs "\r\n  ".toList 'a' " \r\n \n\t".toList 'b'
    "  c\rd\u0085\n".toList (by decide) (by decide) (by decide)
    (List.all_eq_true.1 (by decide))
  obtain ⟨before', gap', after', hcd, -, -, hblank, hnone⟩ :=
    hpairs "\r\n  a \r\n \n\tb  ".toList 'c'
    "\r".toList 'd' "\u0085\n".toList (by decide) (by decide) (by decide)
    (List.all_eq_true.1 (by decide))
  exact ⟨hfirst, hagain, ⟨before, gap, after, hab, hbreak.2 (by decide)⟩,
    before', gap', after', hcd, hblank, fun hmem =>
    absurd (hnone.1 hmem) (by decide)⟩

end Prerender
