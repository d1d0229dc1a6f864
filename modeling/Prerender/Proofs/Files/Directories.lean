/-
Making directories.

The program makes a directory together with those above it that are
missing. It tries the last one first, and only if this fails because
something above is missing it makes what is above and tries again; then
a directory that exists already is as good as a new one. Three things
are shown of this.

1. What is new afterwards are directories on the way and nothing else,
   whether all could be made or not (`FileStep.makes_makeDirectories`).
   Such a change touches no file (`FileSystem.Makes`).
2. All directories of a path can be made exactly when there is no hurdle
   on the way (`FileStep.settles_makeDirectories`).
3. Which error is given, if not. A name that is too long gives the same
   error everywhere. A file in the way gives one of two, depending on
   the directories before it: if all are there, the path is followed to
   the file, which is no directory; if one has to be made first, the
   file is met as something that exists already (`FileStep.blame`).

The induction is over the parts of the path, from its end
(`FileStep.settles_makeDirectoryBelow`). In each step the directory
above is reached, or missing, or behind a hurdle, and there is a lemma
for each of these. Parts that stay in place make two paths of one way;
`Spells` is about paths up to these.
-/
import Mathlib.Data.List.Induction
import Prerender.Proofs.Files.Way

namespace Prerender

open Files

namespace FileSystem

open Files.Place (step walk OnWay)

-- ========================================================= what is made

/-- `fs'` comes of `fs` by making directories at some of the given places. -/
structure Makes (made : Place → Prop) (fs fs' : FileSystem) : Prop where
  workingDirectory : fs'.workingDirectory = fs.workingDirectory
  kinds : ∀ place, fs'.kindAt? place = fs.kindAt? place
    ∨ made place ∧ fs.kindAt? place = none
      ∧ fs'.kindAt? place = some .directory

variable {fs fs' fs'' : FileSystem} {made touched : Place → Prop}
  {place : Place}

theorem Makes.refl (made : Place → Prop) (fs : FileSystem) : Makes made fs fs :=
  ⟨rfl, fun _ => Or.inl rfl⟩

theorem Makes.trans (first : Makes made fs fs') (second : Makes made fs' fs'') :
    Makes made fs fs'' := by
  refine ⟨second.workingDirectory.trans first.workingDirectory, fun place => ?_⟩
  rcases first.kinds place with hsame | ⟨hmade, hnone, hdir⟩
  · rcases second.kinds place with hsame' | ⟨hmade, hnone, hdir⟩
    · exact Or.inl (hsame'.trans hsame)
    · exact Or.inr ⟨hmade, hsame ▸ hnone, hdir⟩
  · rcases second.kinds place with hsame' | ⟨-, hnone', -⟩
    · exact Or.inr ⟨hmade, hnone, hsame'.trans hdir⟩
    · rw [hdir] at hnone'
      cases hnone'

/-- The places may be more than those where something is made. -/
theorem Makes.mono {more : Place → Prop} (h : Makes made fs fs')
    (sub : ∀ place, made place → more place) :
    Makes more fs fs' :=
  ⟨h.workingDirectory, fun place =>
    (h.kinds place).imp_right fun ⟨hmade, hkinds⟩ => ⟨sub place hmade, hkinds⟩⟩

theorem Makes.start (h : Makes made fs fs') (path : OsText) :
    fs'.start path = fs.start path := by
  unfold FileSystem.start
  rw [h.workingDirectory]

theorem Makes.directories (h : Makes made fs fs')
    (hdir : fs.kindAt? place = some .directory) :
    fs'.kindAt? place = some .directory := by
  rcases h.kinds place with hsame | ⟨-, -, hdir'⟩
  · exact hsame.trans hdir
  · exact hdir'

theorem Makes.textAt? (h : Makes made fs fs') (place : Place) :
    fs'.textAt? place = fs.textAt? place := by
  unfold FileSystem.textAt?
  rcases h.kinds place with hsame | ⟨-, hnone, hdir⟩
  · rw [hsame]
  · rw [hnone, hdir]

theorem Makes.keeps (h : Makes made fs fs') : Keeps touched fs fs' := by
  refine ⟨h.workingDirectory, fun _ => h.directories, fun place _ text => ?_⟩
  rw [← textAt?_eq_some, ← textAt?_eq_some, h.textAt?]

theorem Makes.hurdle? (h : Makes made fs fs') (place : Place)
    (parts : List OsText) :
    fs'.hurdle? place parts = fs.hurdle? place parts :=
  hurdle?_congr fun passed _ => h.textAt? passed

theorem Makes.reach (h : Makes made fs fs') {parts : List OsText} {last : Place}
    (hreach : fs.reach place parts = .ok last) :
    fs'.reach place parts = .ok last := by
  obtain ⟨hlast, hway, hshort⟩ := reach_eq_ok.1 hreach
  exact reach_eq_ok.2
    ⟨hlast, fun passed hpassed => h.directories (hway passed hpassed), hshort⟩

-- ========================================================= one directory

/-- Whether a usable path has the parts `front` and a last one, up to parts
that stay in place. -/
structure Spells (path : OsText) (front : List OsText) (last : OsText) :
    Prop where
  check : checkPath path = .ok ()
  parts : ∃ raw, Path.parts path = raw ++ [last]
    ∧ raw.filter Path.isMove = front.filter Path.isMove

variable {path last : OsText} {front : List OsText} {parent : Place}

/-- Such a path leads to the directory above like its front. -/
theorem Spells.reach_front (h : Spells path front last) (fs : FileSystem)
    (place : Place) :
    fs.reach place (Path.parts path).dropLast = fs.reach place front := by
  obtain ⟨raw, hparts, hsame⟩ := h.parts
  rw [hparts, List.dropLast_concat, ← reach_filter, hsame, reach_filter]

/-- It leads where its front and its last part do. -/
theorem Spells.reach_parts (h : Spells path front last) (fs : FileSystem)
    (place : Place)
    (more : List OsText) (still : more.filter Path.isMove = []) :
    fs.reach place (Path.parts path ++ more)
      = fs.reach place (front ++ [last]) := by
  obtain ⟨raw, hparts, hsame⟩ := h.parts
  rw [hparts, ← reach_filter, List.filter_append, List.filter_append, hsame,
    still, List.append_nil, ← List.filter_append, reach_filter]

/-- Making one directory, by what is reached above it. -/
theorem Spells.makeDirectory_eq (h : Spells path front last) (fs : FileSystem) :
    fs.makeDirectory path = (fs.reach (fs.start path) front).bind fun parent =>
      if last = "." ∨ last = ".." then .error .alreadyExists
      else if nameLimit < last.size then .error .nameTooLong
      else if (fs.root.at? (parent ++ [last])).isSome then .error .alreadyExists
      else .ok { fs with
        root := Item.put (.directory []) fs.root (parent ++ [last]) } := by
  have hlast : (Path.parts path).getLast? = some last := by
    obtain ⟨raw, hparts, -⟩ := h.parts
    rw [hparts, List.getLast?_concat]
  rw [makeDirectory, h.check, ← h.reach_front]
  show Except.bind (fs.reach (fs.start path) (Path.parts path).dropLast) _ = _
  refine congrArg _ (funext fun parent => ?_)
  rw [lastName?, hlast]
  by_cases hdots : last = "." ∨ last = ".."
  · simp only [if_pos hdots]
  · simp only [if_neg hdots]

/-- A path is that of a directory if one is reached. -/
theorem Spells.isDirectory_iff (h : Spells path front last) (fs : FileSystem) :
    fs.isDirectory path = true
      ↔ ∃ place, fs.reach (fs.start path) (front ++ [last]) = .ok place := by
  have hreach : fs.reach (fs.start path) (partsToItem path)
      = fs.reach (fs.start path) (front ++ [last]) := by
    unfold partsToItem
    split
    · exact h.reach_parts fs _ [OsText.ofText "."] (by decide)
    · exact h.reach_parts fs _ [] rfl
  rw [← hreach]
  constructor
  · intro hdirectory
    rw [isDirectory] at hdirectory
    split at hdirectory
    · next item hitem =>
      obtain ⟨_, -, hitem⟩ := bind_eq_ok.1 hitem
      obtain ⟨place, hfollow, hat⟩ := bind_eq_ok.1 hitem
      split at hat
      · next held hheld =>
        cases hat
        cases item with
        | file text => cases hdirectory
        | directory items =>
            refine ⟨place,
              bind_eq_ok.2 ⟨place, hfollow, bind_eq_ok.2 ⟨(), ?_, rfl⟩⟩⟩
            rw [requireDirectory, hheld]
      · cases hat
    · cases hdirectory
  · rintro ⟨place, hfollow⟩
    obtain ⟨reached, hfollow, hlast⟩ := bind_eq_ok.1 hfollow
    obtain ⟨_, hrequire, hlast⟩ := bind_eq_ok.1 hlast
    obtain ⟨held, hheld, hkind⟩ :=
      Option.map_eq_some_iff.1 (requireDirectory_eq_ok.1 hrequire)
    have hitem : fs.item path = .ok held := by
      refine bind_eq_ok.2 ⟨(), h.check, bind_eq_ok.2 ⟨reached, hfollow, ?_⟩⟩
      rw [hheld]
    rw [isDirectory, hitem]
    cases held with
    | file text => cases hkind
    | directory items => rfl

/-- A directory that is put into one that is there is all that is made. -/
theorem makes_put {name : OsText} (inside : fs.kindAt? parent = some .directory)
    (free : fs.kindAt? (parent ++ [name]) = none) :
    ∃ fs', fs' = { fs with
      root := Item.put (.directory []) fs.root (parent ++ [name]) }
      ∧ Makes (· = parent ++ [name]) fs fs'
        ∧ fs'.kindAt? (parent ++ [name]) = some .directory := by
  have hfree : fs.kindAt? (parent ++ [name]) ≠ some .directory := by
    rw [free]
    nofun
  have hput : ∀ place, Item.kindAt?
    (Item.put (.directory []) fs.root (parent ++ [name])) place = _ :=
    Item.kindAt?_put_leaf (fun _ _ => rfl) inside hfree
  refine ⟨_, rfl, ⟨rfl, fun place => ?_⟩, (hput _).trans (if_pos rfl)⟩
  by_cases hplace : place = parent ++ [name]
  · exact Or.inr ⟨hplace, hplace ▸ free, (hput place).trans (if_pos hplace)⟩
  · exact Or.inl ((hput place).trans (if_neg hplace))

theorem kindAt?_dropLast (h : fs.kindAt? place = some .directory) :
    fs.kindAt? place.dropLast = some .directory := by
  rcases List.eq_nil_or_concat place with rfl | ⟨front, name, rfl⟩
  · exact h
  · rw [List.concat_eq_append] at h ⊢
    rw [List.dropLast_concat]
    exact kindAt?_of_below h

/-- From a directory that is reached, one more part leads to a directory, to
nothing or to a hurdle. -/
theorem reach_concat {parent : Place}
    (hfront : fs.reach place front = .ok parent) (last : OsText) :
    fs.reach place (front ++ [last])
      = if nameLimit < last.size then .error .nameTooLong
        else (fs.requireDirectory (step parent last)).map fun _ =>
          step parent last := by
  obtain ⟨rfl, hway, -⟩ := reach_eq_ok.1 hfront
  rw [reach_append, hfront]
  show fs.reach _ [last] = _
  rw [reach_cons_of_kind (hway _ (Place.onWay_end _ _)), reach_nil]

/-- The same for hurdles. -/
theorem hurdle?_concat {parent : Place}
    (hfront : fs.reach place front = .ok parent) (last : OsText) :
    fs.hurdle? place (front ++ [last])
      = if nameLimit < last.size then some .nameTooLong
        else (fs.textAt? (step parent last)).map fun _ => .notDirectory := by
  rw [hurdle?_append, hurdle?_of_reach hfront, (reach_eq_ok.1 hfront).1]
  show fs.hurdle? _ [last] = _
  rw [FileSystem.hurdle?]
  cases fs.textAt? (step (walk place front) last) <;> rfl

/-- A part that points to a directory leads to one from a directory. -/
theorem kindAt?_step_of_dots (hparent : fs.kindAt? parent = some .directory)
    (hdots : last = "." ∨ last = "..") :
    fs.kindAt? (step parent last) = some .directory := by
  rcases hdots with rfl | rfl
  · exact hparent
  · exact kindAt?_dropLast hparent

section
variable (h : Spells path front last)
  (hfront : fs.reach (fs.start path) front = .ok parent)
include h hfront

/-- No directory is made under a name that is too long. -/
theorem makeDirectory_of_long (hlong : nameLimit < last.size) :
    fs.makeDirectory path = .error .nameTooLong := by
  have hdots : ¬ (last = "." ∨ last = "..") := by
    rintro (rfl | rfl) <;> exact absurd hlong (by decide)
  rw [h.makeDirectory_eq, hfront]
  show (if _ then _ else _) = _
  rw [if_neg hdots, if_pos hlong]

/-- None is made where something stands. -/
theorem makeDirectory_of_exists (hshort : ¬ nameLimit < last.size)
    {kind : Item.Kind} (hkind : fs.kindAt? (step parent last) = some kind) :
    fs.makeDirectory path = .error .alreadyExists := by
  rw [h.makeDirectory_eq, hfront]
  show (if _ then _ else _) = _
  by_cases hdots : last = "." ∨ last = ".."
  · rw [if_pos hdots]
  · obtain ⟨hdot, hup⟩ := not_or.1 hdots
    rw [step, if_neg hdot, if_neg hup] at hkind
    obtain ⟨item, hitem, -⟩ := Option.map_eq_some_iff.1 hkind
    rw [if_neg hdots, if_neg hshort, hitem]
    rfl

/-- One is made where nothing stands, and it is all that is new. -/
theorem makeDirectory_of_missing (hshort : ¬ nameLimit < last.size)
    (hnone : fs.kindAt? (step parent last) = none) :
    ∃ fs', fs.makeDirectory path = .ok fs' ∧ Makes (· = step parent last) fs fs'
      ∧ fs'.kindAt? (step parent last) = some .directory := by
  obtain ⟨hparent, hway, -⟩ := reach_eq_ok.1 hfront
  have hinside : fs.kindAt? parent = some .directory :=
    hparent ▸ hway _ (Place.onWay_end _ _)
  have hdots : ¬ (last = "." ∨ last = "..") := by
    intro hdots
    rw [kindAt?_step_of_dots hinside hdots] at hnone
    cases hnone
  obtain ⟨hdot, hup⟩ := not_or.1 hdots
  rw [step, if_neg hdot, if_neg hup] at hnone ⊢
  have hat : fs.root.at? (parent ++ [last]) = none :=
    Option.map_eq_none_iff.1 hnone
  obtain ⟨fs', hfs', hmakes, hdir⟩ := makes_put hinside hnone
  refine ⟨fs', ?_, hmakes, hdir⟩
  rw [h.makeDirectory_eq, hfront, hfs']
  show (if _ then _ else _) = _
  rw [if_neg hdots, if_neg hshort, hat]
  rfl

end

end FileSystem

namespace FileStep

open FileSystem
open Files.Place (step walk OnWay)

/-- The files after a step, whether it gave a result or an error. -/
def after {α : Type} (step : FileStep α) (fs : FileSystem) : FileSystem :=
  match step fs with
  | .ok _ fs | .error _ fs => fs

theorem after_congr {α : Type} {step step' : FileStep α} {fs : FileSystem}
    (h : step fs = step' fs) :
    step.after fs = step'.after fs := by
  unfold after
  rw [h]

theorem after_bind {α β : Type} (first : FileStep α) (second : α → FileStep β)
    (fs : FileSystem) :
    (first >>= second).after fs = match first fs with
      | .ok a mid => (second a).after mid
      | .error _ mid => mid := by
  unfold after
  show (match EStateM.bind first second fs with
    | .ok _ fs | .error _ fs => fs) = _
  unfold EStateM.bind
  cases first fs <;> rfl

/-- The directories above come first or not at all. -/
theorem makeDirectoryBelow_cons (parent : OsText) (rest : List OsText)
    (path : OsText)
    (fs : FileSystem) : makeDirectoryBelow (parent :: rest) path fs
        = (makeDirectoryBelow rest parent >>= fun _ => ensureDirectory path) fs
      ∨ makeDirectoryBelow (parent :: rest) path fs
        = ensureDirectory path fs := by
  rw [makeDirectoryBelow]
  dsimp only
  split
  · exact Or.inl rfl
  · exact Or.inr rfl

variable {fs : FileSystem} {path last : OsText} {front : List OsText}
  {parent : Place}

/-- Where the directory above cannot be reached, neither can this one be
made. -/
theorem ensureDirectory_of_error {e : FileError} (h : Spells path front last)
    (hfront : fs.reach (fs.start path) front = .error e) :
    fs.makeDirectory path = .error e
      ∧ ensureDirectory path fs = .error e fs := by
  have hmake : fs.makeDirectory path = .error e := by
    rw [h.makeDirectory_eq, hfront]
    rfl
  have hnone : fs.isDirectory path = false := by
    rw [Bool.eq_false_iff]
    intro hdir
    obtain ⟨place, hreach⟩ := (h.isDirectory_iff fs).1 hdir
    rw [reach_append_error hfront] at hreach
    cases hreach
  refine ⟨hmake, ?_⟩
  unfold ensureDirectory
  simp only [hmake, hnone, if_neg Bool.false_ne_true]

/-- Where the directory above is reached and there is no hurdle, this one is
there or is made. -/
theorem ensureDirectory_of_clear (h : Spells path front last)
    (hfront : fs.reach (fs.start path) front = .ok parent)
    (clear : fs.hurdle? (fs.start path) (front ++ [last]) = none) :
    ∃ fs' place, ensureDirectory path fs = .ok ⟨⟩ fs'
      ∧ fs'.reach (fs.start path) (front ++ [last]) = .ok place := by
  rw [hurdle?_concat hfront] at clear
  have hshort : ¬ nameLimit < last.size := fun hlong => by
    rw [if_pos hlong] at clear
    cases clear
  rw [if_neg hshort, Option.map_eq_none_iff, textAt?] at clear
  unfold ensureDirectory
  cases hkind : fs.kindAt? (step parent last) with
  | none =>
      obtain ⟨fs', hmake, hmakes, hdir⟩ :=
        makeDirectory_of_missing h hfront hshort hkind
      refine ⟨fs', step parent last, by rw [hmake], ?_⟩
      rw [reach_concat (hmakes.reach hfront), if_neg hshort,
        requireDirectory_of_kind hdir]
      rfl
  | some kind =>
      cases kind with
      | file text =>
          rw [hkind] at clear
          cases clear
      | directory =>
          have hreach :
              fs.reach (fs.start path) (front ++ [last])
                = .ok (step parent last) := by
            rw [reach_concat hfront, if_neg hshort,
              requireDirectory_of_kind hkind]
            rfl
          refine ⟨fs, _, ?_, hreach⟩
          simp only [makeDirectory_of_exists h hfront hshort hkind,
            (h.isDirectory_iff fs).2 ⟨_, hreach⟩, if_true]

/-- Where the directory above is reached, a file in the place of this one
exists already. -/
theorem ensureDirectory_of_hurdle {e : FileError} (h : Spells path front last)
    (hfront : fs.reach (fs.start path) front = .ok parent)
    (hurdle : fs.hurdle? (fs.start path) (front ++ [last]) = some e) :
    ensureDirectory path fs
      = .error (if e = .notDirectory then .alreadyExists else e) fs := by
  have hnone : fs.isDirectory path = false := by
    rw [Bool.eq_false_iff]
    intro hdir
    obtain ⟨place, hreach⟩ := (h.isDirectory_iff fs).1 hdir
    rw [hurdle?_of_reach hreach] at hurdle
    cases hurdle
  rw [hurdle?_concat hfront] at hurdle
  unfold ensureDirectory
  by_cases hlong : nameLimit < last.size
  · rw [if_pos hlong] at hurdle
    cases hurdle
    simp only [makeDirectory_of_long h hfront hlong, hnone,
      if_neg Bool.false_ne_true]
    rfl
  · rw [if_neg hlong] at hurdle
    obtain ⟨text, htext, rfl⟩ := Option.map_eq_some_iff.1 hurdle
    simp only [makeDirectory_of_exists h hfront hlong (textAt?_eq_some.1 htext),
      hnone, if_neg Bool.false_ne_true, if_true]

/-- A directory comes only where the path leads. -/
theorem makes_makeDirectory {fs' : FileSystem}
    (h : fs.makeDirectory path = .ok fs') :
    Makes (OnWay (fs.start path) (Path.parts path)) fs fs' := by
  obtain ⟨_, hcheck, hrest⟩ := bind_eq_ok.1 h
  rcases List.eq_nil_or_concat (Path.parts path) with hnil | ⟨raw, last, hparts⟩
  · obtain ⟨parent, -, hname⟩ := bind_eq_ok.1 hrest
    rw [lastName?, hnil] at hname
    cases hname
  · rw [List.concat_eq_append] at hparts
    have hspells : Spells path raw last := ⟨hcheck, raw, hparts, rfl⟩
    cases hfront : fs.reach (fs.start path) raw with
    | error e =>
        rw [(ensureDirectory_of_error hspells hfront).1] at h
        cases h
    | ok parent =>
        by_cases hlong : nameLimit < last.size
        · rw [makeDirectory_of_long hspells hfront hlong] at h
          cases h
        · cases hkind : fs.kindAt? (step parent last) with
          | some kind =>
              rw [makeDirectory_of_exists hspells hfront hlong hkind] at h
              cases h
          | none =>
              obtain ⟨made, hmake, hmakes, -⟩ :=
                makeDirectory_of_missing hspells hfront hlong hkind
              rw [h] at hmake
              cases hmake
              refine hmakes.mono fun place hplace => ?_
              have hend := Place.onWay_end (fs.start path) (raw ++ [last])
              rw [Place.walk_append, ← (reach_eq_ok.1 hfront).1] at hend
              rw [hplace, hparts]
              exact hend

/-- So does making sure that a directory is there. -/
theorem makes_ensureDirectory (path : OsText) (fs : FileSystem) :
    Makes (OnWay (fs.start path) (Path.parts path)) fs
      ((ensureDirectory path).after fs) := by
  unfold after ensureDirectory
  cases hmake : fs.makeDirectory path with
  | ok fs' => exact makes_makeDirectory hmake
  | error e =>
      cases fs.isDirectory path with
      | true => exact .refl _ fs
      | false => exact .refl _ fs

/-- A sequence makes what its steps make. -/
theorem makes_bind {α β : Type} {made : Place → Prop} {first : FileStep α}
    {second : α → FileStep β} (hfirst : Makes made fs (first.after fs))
    (hsecond : ∀ a mid, Makes made fs mid →
      Makes made mid ((second a).after mid)) :
    Makes made fs ((first >>= second).after fs) := by
  rw [after_bind]
  unfold after at hfirst
  cases hrun : first fs with
  | error e mid =>
      rw [hrun] at hfirst
      exact hfirst
  | ok a mid =>
      rw [hrun] at hfirst
      exact hfirst.trans (hsecond a mid hfirst)

/-- Directories with those above make some on the ways of all of their paths.
-/
theorem makes_makeDirectoryBelow {made : Place → Prop} {parents : List OsText}
    {path : OsText} {fs : FileSystem} (h : ∀ p ∈ path :: parents, ∀ passed,
      OnWay (fs.start p) (Path.parts p) passed → made passed) :
    Makes made fs ((makeDirectoryBelow parents path).after fs) := by
  induction parents generalizing path fs with
  | nil => exact (makes_ensureDirectory path fs).mono (h path (.head _))
  | cons parent rest ih =>
      obtain ⟨hpath, hparents⟩ := List.forall_mem_cons.1 h
      rcases makeDirectoryBelow_cons parent rest path fs with hrun | hrun
      · rw [after_congr hrun]
        refine makes_bind (ih hparents) fun _ mid hmid =>
          (makes_ensureDirectory path mid).mono ?_
        rw [hmid.start]
        exact hpath
      · rw [after_congr hrun]
        exact (makes_ensureDirectory path fs).mono hpath

/-- The paths of the directories above a path start where it does. -/
theorem start_of_mem_ancestors {directory : OsText}
    (hmem : directory ∈ Path.ancestors path) :
    fs.start directory = fs.start path := by
  obtain ⟨n, hpos, hlt, rfl⟩ := Path.exists_of_mem_ancestors hmem
  have hne : (Path.meaningful path).take n ≠ [] := by
    rw [Ne, List.take_eq_nil_iff, not_or, ← List.length_eq_zero_iff]
    omega
  unfold start
  rw [Path.isAbsolute_upTo hne]

/-- The directories above a path are on its way. -/
theorem onWay_of_mem_ancestors {directory : OsText} {passed : Place}
    (hmem : directory ∈ Path.ancestors path)
    (hway : OnWay (fs.start directory) (Path.parts directory) passed) :
    OnWay (fs.start path) (Path.parts path) passed := by
  rw [start_of_mem_ancestors hmem] at hway
  obtain ⟨n, -, -, rfl⟩ := Path.exists_of_mem_ancestors hmem
  rw [Path.parts_upTo] at hway
  have hmeaningful := hway.append ((Path.meaningful path).drop n)
  rw [List.take_append_drop] at hmeaningful
  rw [← Place.onWay_filter, ← Path.filter_meaningful, Place.onWay_filter]
  exact hmeaningful

/-- Making directories makes some on the way, even where it fails. -/
theorem makes_makeDirectories (path : OsText) (fs : FileSystem) :
    Makes (OnWay (fs.start path) (Path.parts path)) fs
      ((makeDirectories path).after fs) := by
  unfold makeDirectories
  split
  · exact .refl _ fs
  · exact makes_makeDirectoryBelow (List.forall_mem_cons.2
      ⟨fun _ => id, fun _ hmem _ => onWay_of_mem_ancestors hmem⟩)

-- ===================================================== all that are missing

/-- Whether following parts stops at a file. -/
def stops (fs : FileSystem) (place : Place) (parts : List OsText) : Bool :=
  match fs.reach place parts with
  | .error .notDirectory => true
  | _ => false

theorem stops_iff {place : Place} {parts : List OsText} :
    stops fs place parts = true
      ↔ fs.reach place parts = .error .notDirectory := by
  unfold stops
  split
  · next h => exact ⟨fun _ => h, fun _ => rfl⟩
  · next h => exact ⟨nofun, fun hreach => absurd hreach h⟩

/-- What a hurdle is called: a file that the path does not lead to before
others are made is said to exist. -/
def blame (stops : Bool) (hurdle : FileError) : FileError :=
  if hurdle = .notDirectory ∧ stops = false then .alreadyExists else hurdle

/-- The error with which the directories of a path cannot be made, if they
cannot. -/
def refusal? (fs : FileSystem) (place : Place) (front : List OsText)
    (last : OsText) :
    Option FileError :=
  (fs.hurdle? place (front ++ [last])).map (blame (stops fs place front))

/-- What comes of making the directories of a path: all are there afterwards,
unless it is refused. -/
structure Settles (fs : FileSystem) (place : Place) (front : List OsText)
    (last : OsText)
    (result : EStateM.Result FileError FileSystem PUnit) : Prop where
  fails : ∀ e, refusal? fs place front last = some e →
    ∃ fs', result = .error e fs'
  made : refusal? fs place front last = none →
    ∃ fs' reached, result = .ok ⟨⟩ fs'
      ∧ fs'.reach place (front ++ [last]) = .ok reached

theorem stops_of_reach {place reached : Place} {parts : List OsText}
    (h : fs.reach place parts = .ok reached) :
    stops fs place parts = false := by
  unfold stops
  rw [h]

/-- In a directory that is reached, one is made by itself. -/
theorem settles_of_reached (h : Spells path front last)
    (hfront : fs.reach (fs.start path) front = .ok parent) :
    Settles fs (fs.start path) front last (ensureDirectory path fs) := by
  constructor
  · intro e hrefusal
    rw [refusal?, stops_of_reach hfront] at hrefusal
    obtain ⟨hurdle, hhurdle, rfl⟩ := Option.map_eq_some_iff.1 hrefusal
    refine ⟨fs, ?_⟩
    rw [ensureDirectory_of_hurdle h hfront hhurdle, blame]
    simp only [and_true]
  · intro hrefusal
    exact ensureDirectory_of_clear h hfront (Option.map_eq_none_iff.1 hrefusal)

/-- Where a hurdle is met before anything is missing, nothing is made. -/
theorem settles_of_hurdle {place : Place} {e : FileError}
    (hreach : fs.reach place front = .error e)
    (hhurdle : fs.hurdle? place front = some e) (last : OsText) :
    Settles fs place front last (.error e fs) := by
  have hstops : ¬ (e = .notDirectory ∧ stops fs place front = false) := by
    rintro ⟨rfl, hstops⟩
    rw [stops_iff.2 hreach] at hstops
    cases hstops
  have hrefusal : refusal? fs place front last = some e := by
    rw [refusal?, hurdle?_append, hhurdle]
    exact congrArg some (if_neg hstops)
  constructor
  · intro e' he'
    rw [hrefusal] at he'
    cases he'
    exact ⟨fs, rfl⟩
  · intro hnone
    rw [hrefusal] at hnone
    cases hnone

/-- Where some directory above is missing, those above are made first. -/
theorem settles_of_missing {place : Place} {prev : OsText}
    {step : FileStep PUnit}
    (hreach : fs.reach place (front ++ [prev]) = .error .notFound)
    (hstep : Settles fs place front prev (step fs))
    (hmakes : Makes (fun _ => True) fs (step.after fs))
    (h : Spells path (front ++ [prev]) last) (hstart : ∀ mid : FileSystem,
      mid.workingDirectory = fs.workingDirectory → mid.start path = place) :
    Settles fs place (front ++ [prev]) last
      ((do step; ensureDirectory path) fs) := by
  have hstops : ∀ parts, parts <+: front ++ [prev] →
    stops fs place parts = false := by
    rintro parts ⟨more, hmore⟩
    rw [Bool.eq_false_iff, Ne, stops_iff]
    intro hstop
    rw [← hmore, reach_append_error hstop] at hreach
    cases hreach
  have hfront : refusal? fs place front prev
      = (fs.hurdle? place (front ++ [prev])).map (blame false) := by
    rw [refusal?, hstops front (List.prefix_append _ _)]
  have hboth : refusal? fs place (front ++ [prev]) last
      = (fs.hurdle? place (front ++ [prev] ++ [last])).map (blame false) := by
    rw [refusal?, hstops (front ++ [prev]) List.prefix_rfl]
  have hrun : (do step; ensureDirectory path) fs = match step fs with
      | .ok _ mid => ensureDirectory path mid
      | .error e mid => .error e mid := by
    show EStateM.bind step _ fs = _
    unfold EStateM.bind
    cases step fs <;> rfl
  rw [hrun]
  -- those above are refused, and with them this one; or they are made, and in
  -- the last of them this one is made by itself
  cases hhurdle : fs.hurdle? place (front ++ [prev]) with
  | some e =>
      rw [hhurdle] at hfront
      obtain ⟨fs', hfails⟩ := hstep.fails _ hfront
      rw [hfails]
      rw [hurdle?_append, hhurdle] at hboth
      constructor
      · intro e' he'
        rw [hboth] at he'
        cases he'
        exact ⟨fs', rfl⟩
      · intro hnone
        rw [hboth] at hnone
        cases hnone
  | none =>
      rw [hhurdle] at hfront
      obtain ⟨mid, reached, hok, hmid⟩ := hstep.made hfront
      unfold after at hmakes
      rw [hok] at hmakes ⊢
      have hsettles :=
        settles_of_reached h ((hstart mid hmakes.workingDirectory).symm ▸ hmid)
      have hsame : refusal? mid place (front ++ [prev]) last
          = refusal? fs place (front ++ [prev]) last := by
        rw [hboth, refusal?, hmakes.hurdle?, stops_of_reach hmid]
      rw [hstart mid hmakes.workingDirectory] at hsettles
      exact ⟨fun e he => hsettles.fails e (hsame.trans he), fun hnone =>
        hsettles.made (hsame.trans hnone)⟩

/-- The path of a directory above has the parts that it was made of. -/
theorem spells_upTo (hcheck : checkPath path = .ok ())
    (hfront : front ++ [last] <+: Path.meaningful path) :
    Spells (Path.upTo path (front.length + 1)) front last
      ∧ Path.isAbsolute (Path.upTo path (front.length + 1))
        = Path.isAbsolute path := by
  have htake : (Path.meaningful path).take (front.length + 1) = front
    ++ [last] := by
    rw [← @List.length_singleton _ last, ← List.length_append]
    exact (List.prefix_iff_eq_take.1 hfront).symm
  have hne : (Path.meaningful path).take (front.length + 1) ≠ [] := by
    rw [htake]
    exact List.append_ne_nil_of_right_ne_nil front (List.cons_ne_nil last [])
  exact ⟨⟨Path.checkPath_upTo hcheck hne,
    front, by rw [Path.parts_upTo, htake], rfl⟩, Path.isAbsolute_upTo hne⟩

section
variable (above : OsText) (rest : List OsText)

/-- A directory is made by itself where the one above it is reached. -/
theorem makeDirectoryBelow_of_reached (h : Spells path front last)
    (hfront : fs.reach (fs.start path) front = .ok parent) :
    makeDirectoryBelow (above :: rest) path fs = ensureDirectory path fs := by
  have hmake : fs.makeDirectory path ≠ .error .notFound := by
    by_cases hlong : nameLimit < last.size
    · rw [makeDirectory_of_long h hfront hlong]
      nofun
    · cases hkind : fs.kindAt? (step parent last) with
      | some kind =>
          rw [makeDirectory_of_exists h hfront hlong hkind]
          nofun
      | none =>
          obtain ⟨fs', hok, -⟩ := makeDirectory_of_missing h hfront hlong hkind
          rw [hok]
          nofun
  rw [makeDirectoryBelow]
  dsimp only
  split
  · next heq => exact absurd heq hmake
  · rfl

/-- Where the directory above is not reached, it is made first if it is
missing, and otherwise the error stands. -/
theorem makeDirectoryBelow_of_error {e : FileError} (h : Spells path front last)
    (hfront : fs.reach (fs.start path) front = .error e) :
    makeDirectoryBelow (above :: rest) path fs
      = if e = .notFound then
        (do makeDirectoryBelow rest above; ensureDirectory path) fs
        else .error e fs := by
  obtain ⟨hmake, hensure⟩ := ensureDirectory_of_error h hfront
  rw [makeDirectoryBelow]
  dsimp only
  rw [hmake, hensure]
  cases e <;> rfl

end

/-- A directory and those above it are made unless it is refused. -/
theorem settles_makeDirectoryBelow {path' : OsText}
    (hcheck : checkPath path = .ok ())
    (hfront : front <+: Path.meaningful path) (h : Spells path' front last)
    (habsolute : Path.isAbsolute path' = Path.isAbsolute path)
    (hstart : fs.kindAt? (fs.start path) = some .directory) :
    Settles fs (fs.start path) front last
      (makeDirectoryBelow (Path.above path (front.length + 1)) path' fs) := by
  have hsame : ∀ {p : OsText}, Path.isAbsolute p = Path.isAbsolute path →
    ∀ mid : FileSystem,
      mid.workingDirectory = fs.workingDirectory →
      mid.start p = fs.start path := by
    intro p hp mid hworking
    unfold start
    rw [hworking, hp]
  have hstart' := hsame habsolute fs rfl
  induction front using List.reverseRecOn generalizing path' last with
  | nil =>
      have hreach : fs.reach (fs.start path') [] = .ok (fs.start path') := by
        rw [hstart', reach_nil, requireDirectory_of_kind hstart]
        rfl
      have hsettles := settles_of_reached h hreach
      rw [hstart'] at hsettles
      exact hsettles
  | append_singleton init prev ih =>
      rw [List.length_append, List.length_singleton,
        Path.above_succ path (Nat.succ_pos _)]
      obtain ⟨hspells, habsolute'⟩ := spells_upTo hcheck hfront
      -- the directory above is reached, or missing, or behind a hurdle
      cases hreach : fs.reach (fs.start path) (init ++ [prev]) with
      | ok parent =>
          rw [← hstart'] at hreach ⊢
          rw [makeDirectoryBelow_of_reached _ _ h hreach]
          exact settles_of_reached h hreach
      | error e =>
          rw [makeDirectoryBelow_of_error _ _ h (hstart' ▸ hreach)]
          rcases reach_error hstart hreach with rfl | hhurdle
          · rw [if_pos rfl]
            refine settles_of_missing hreach ?_ ?_ h (hsame habsolute)
            · exact ih ((List.prefix_append _ _).trans hfront)
                hspells habsolute'
                (hsame habsolute' fs rfl)
            · exact makes_makeDirectoryBelow fun _ _ _ _ => trivial
          · have hfound : e ≠ .notFound := by
              rintro rfl
              rcases hurdle?_cases hhurdle with ⟨he, -⟩ | ⟨he, -⟩ <;> cases he
            rw [if_neg hfound]
            exact settles_of_hurdle hreach hhurdle last

/-- The directories of a path are made unless it is refused. -/
theorem settles_makeDirectories (h : Spells path front last)
    (hne : path.isEmpty = false)
    (hmeaningful : Path.meaningful path = front ++ [last])
    (hstart : fs.kindAt? (fs.start path) = some .directory) :
    Settles fs (fs.start path) front last (makeDirectories path fs) := by
  have hlength : (Path.meaningful path).length = front.length + 1 := by
    rw [hmeaningful, List.length_append, List.length_singleton]
  rw [makeDirectories, if_neg (by rw [hne]; nofun), Path.ancestors_eq, hlength]
  exact settles_makeDirectoryBelow h.check
    (hmeaningful ▸ List.prefix_append _ _) h rfl hstart

-- ========================================================= none at all

/-- A directory is made only where the path starts in one. -/
theorem kindAt?_start_of_makeDirectory {fs' : FileSystem}
    (h : fs.makeDirectory path = .ok fs') :
    fs.kindAt? (fs.start path) = some .directory := by
  obtain ⟨_, -, hrest⟩ := bind_eq_ok.1 h
  obtain ⟨parent, hparent, -⟩ := bind_eq_ok.1 hrest
  have hreach : fs.reach (fs.start path) (Path.parts path).dropLast
    = .ok parent := hparent
  exact (reach_eq_ok.1 hreach).2.1 _ (Place.onWay_start _ _)

/-- Where no directory can be made, nothing changes. -/
theorem after_makeDirectoryBelow {parents : List OsText} {path : OsText}
    (h : ∀ p ∈ path :: parents, ∀ fs', fs.makeDirectory p ≠ .ok fs') :
    (makeDirectoryBelow parents path).after fs = fs := by
  have hensure : ∀ {p : OsText}, (∀ fs', fs.makeDirectory p ≠ .ok fs') →
      (ensureDirectory p).after fs = fs := by
    intro p hp
    unfold after ensureDirectory
    cases hmake : fs.makeDirectory p with
    | ok fs' => exact absurd hmake (hp fs')
    | error e => cases fs.isDirectory p <;> rfl
  induction parents generalizing path with
  | nil => exact hensure (h path (.head _))
  | cons parent rest ih =>
      obtain ⟨hpath, hparents⟩ := List.forall_mem_cons.1 h
      rcases makeDirectoryBelow_cons parent rest path fs with hrun | hrun
      · have hrest := ih hparents
        rw [after_congr hrun, after_bind]
        unfold after at hrest
        cases hfirst : makeDirectoryBelow rest parent fs with
        | error e mid =>
            rw [hfirst] at hrest
            exact hrest
        | ok a mid =>
            rw [hfirst] at hrest
            have hmid : mid = fs := hrest
            rw [hmid]
            exact hensure hpath
      · rw [after_congr hrun]
        exact hensure hpath

/-- Where a path does not start in a directory, nothing is made. -/
theorem after_makeDirectories
    (h : fs.kindAt? (fs.start path) ≠ some .directory) :
    (makeDirectories path).after fs = fs := by
  unfold makeDirectories
  split
  · rfl
  · refine after_makeDirectoryBelow fun p hmem fs' hmake => h ?_
    have hstart := kindAt?_start_of_makeDirectory hmake
    rcases List.mem_cons.1 hmem with rfl | hmem
    · exact hstart
    · rw [start_of_mem_ancestors hmem] at hstart
      exact hstart

/-- Nothing is made under a path that cannot be used. -/
theorem makeDirectories_of_unusable {e : FileError} (ne : path.isEmpty = false)
    (h : checkPath path = .error e) :
    makeDirectories path fs = .error e fs := by
  have hmake : fs.makeDirectory path = .error e := by
    rw [makeDirectory, h]
    rfl
  have hnone : fs.isDirectory path = false := by
    rw [isDirectory, item, h]
    rfl
  have hfound : e ≠ .notFound := by
    rintro rfl
    unfold checkPath at h
    rw [ne] at h
    split at h
    · cases h
    · rw [if_neg Bool.false_ne_true] at h
      split at h <;> cases h
  have hensure : ensureDirectory path fs = .error e fs := by
    unfold ensureDirectory
    simp only [hmake, hnone, if_neg Bool.false_ne_true]
  rw [makeDirectories, if_neg (by rw [ne]; nofun)]
  cases Path.ancestors path with
  | nil => exact hensure
  | cons parent rest =>
      rw [makeDirectoryBelow]
      dsimp only
      rw [hmake]
      split
      · next heq => exact absurd (Except.error.inj heq) hfound
      · exact hensure

end FileStep
end Prerender
