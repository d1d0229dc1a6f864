/-
The same change to two states of files.

One state has more than the other: files at places of its own, and
directories where they may be made (`FileSystem.Extends`). This is how
the files stand when one page is built with and without another page
before it. A change whose way leads over none of these files comes out
alike in both: the same result or the same error, and states of which
one still has more than the other (`FileStep.makeDirectories_alike`,
`FileStep.writeText_alike`).

What is made by a change is made in both, if in one of them it is there
already; so the difference does not grow. What can be refused is refused
in both, since refusals are a matter of hurdles, and these of the files
on the way (`FileStep.refusal?_alike`).

Only the reason why directories cannot be made may read differently, and
only on a way that leads up again. A file behind a directory that was
missing is met as something that exists, and behind one that is there as
something that is no directory; and on a way that goes up and down again
the directories of another page can make this difference
(`FileStep.SameReason`).
-/
import Prerender.Proofs.Files.Directories
import Prerender.Proofs.Steps

namespace Prerender

open Files
open Steps (Alike)

namespace FileSystem

open Files.Place (step walk OnWay)

/-- `fs'` has more than `fs`: it touches files at the given places only, and
its new directories are where directories are made. -/
structure Extends (written made : Place → Prop) (fs fs' : FileSystem) : Prop
    extends Keeps written fs fs' where
  news : ∀ place, fs'.kindAt? place = some .directory →
    fs.kindAt? place = some .directory ∨ made place

/-- The files are the same but for those at the given places. -/
def SameTexts (written : Place → Prop) (fs fs' : FileSystem) : Prop :=
  ∀ place, ¬ written place → fs'.textAt? place = fs.textAt? place

variable {fs fs' fs'' done done' : FileSystem} {written made way : Place → Prop}
  {place parent : Place} {path dir name last : OsText} {text : String}
  {front : List OsText}

-- ========================================================= having more

theorem Keeps.sameTexts (h : Keeps written fs fs') :
    SameTexts written fs fs' := by
  intro place off
  refine Option.ext fun text => ?_
  rw [textAt?_eq_some, textAt?_eq_some]
  exact h.files place off text

namespace Extends

theorem refl (written made : Place → Prop) (fs : FileSystem) :
    Extends written made fs fs :=
  ⟨.refl written fs, fun _ h => Or.inl h⟩

theorem trans (first : Extends written made fs fs')
    (second : Extends written made fs' fs'') :
    Extends written made fs fs'' := by
  refine ⟨first.toKeeps.trans second.toKeeps, fun place h => ?_⟩
  rcases second.news place h with h | hmade
  · exact first.news place h
  · exact Or.inr hmade

/-- The places may be more than those where there is more. -/
theorem mono {more : Place → Prop} (h : Extends written made fs fs')
    (sub : ∀ place, written place → more place) : Extends more made fs fs' :=
  ⟨h.toKeeps.mono sub, h.news⟩

end Extends

/-- After directories were made there are more. -/
theorem Makes.extends (h : Makes way fs fs')
    (sub : ∀ place, way place → made place) :
    Extends written made fs fs' := by
  refine ⟨h.keeps, fun place hdir => ?_⟩
  rcases h.kinds place with hsame | ⟨hway, -⟩
  · exact Or.inl (hsame ▸ hdir)
  · exact Or.inr (sub place hway)

/-- After directories were made in both, one still has more than the other if
it has them all. -/
theorem Extends.makes (ext : Extends written made fs fs')
    (left : Makes way fs done)
    (right : Makes way fs' done') (sub : ∀ place, way place → made place)
    (there : ∀ place, way place → done'.kindAt? place = some .directory) :
    Extends written made done done' := by
  refine ⟨⟨?_, fun place hdir => ?_, fun place off text => ?_⟩,
    fun place hdir => ?_⟩
  · rw [right.workingDirectory, ext.workingDirectory, left.workingDirectory]
  · rcases left.kinds place with hsame | ⟨hway, -⟩
    · exact right.directories (ext.directories place (hsame ▸ hdir))
    · exact there place hway
  · rw [← textAt?_eq_some, ← textAt?_eq_some, right.textAt?,
      ext.sameTexts place off, left.textAt?]
  · rcases right.kinds place with hsame | ⟨hway, -⟩
    · exact (ext.news place (hsame ▸ hdir)).imp_left left.directories
    · exact Or.inr (sub place hway)

/-- Directories that are made in each make no difference to texts. -/
theorem Keeps.sameTexts_makes (h : Keeps written fs fs')
    {more more' : Place → Prop}
    (left : Makes more fs done) (right : Makes more' fs' done') :
    SameTexts written done done' := by
  intro place off
  rw [right.textAt?, h.sameTexts place off, left.textAt?]

-- ======================================================== one more file

/-- With one file put there is one more. -/
theorem extends_put_file (text : String)
    (inside : fs.kindAt? parent = some .directory)
    (free : fs.kindAt? (parent ++ [name]) ≠ some .directory)
    (made : Place → Prop) :
    Extends (· = parent ++ [name]) made fs
      { fs with root := Item.put (.file text) fs.root (parent ++ [name]) } := by
  refine ⟨keeps_put_file text inside free, fun place hdir => Or.inl ?_⟩
  rw [kindAt?_put_file text inside free] at hdir
  split at hdir
  · cases hdir
  · exact hdir

/-- After a file was put in one place of both, one still has more than the
other. -/
theorem Extends.put_file (ext : Extends written made fs fs') (text : String)
    (inside : fs.kindAt? parent = some .directory)
    (free : fs.kindAt? (parent ++ [name]) ≠ some .directory)
    (free' : fs'.kindAt? (parent ++ [name]) ≠ some .directory) :
    Extends written made { fs with
      root := Item.put (.file text) fs.root (parent ++ [name]) }
      { fs' with root := Item.put (.file text) fs'.root (parent ++ [name]) }
        := by
  have hleft := kindAt?_put_file text inside free
  have hright := kindAt?_put_file text (ext.directories parent inside) free'
  refine ⟨⟨ext.workingDirectory, fun place => ?_, fun place off text' => ?_⟩,
    fun place => ?_⟩
  · rw [hleft, hright]
    split
    · exact id
    · exact ext.directories place
  · rw [hleft, hright]
    split
    · exact Iff.rfl
    · exact ext.files place off text'
  · rw [hleft, hright]
    split
    · exact Or.inl
    · exact ext.news place

/-- A name behind a path denotes a place in that of the path. -/
theorem placeOf_join (named : Path.IsFileName name) (fs : FileSystem)
    (dir : OsText) :
    fs.placeOf (Path.join dir name) = fs.placeOf dir ++ [name] := by
  rw [placeOf, placeOf, start, Path.isAbsolute_join named,
    Path.parts_join named, Place.walk_append]
  exact Place.walk_of_names
    (List.forall_mem_singleton.2 ⟨named.ne_dot, named.ne_dots⟩) _

/-- Writing by name into a directory that is reached. -/
theorem writeText_join (named : Path.IsFileName name)
    (hreach : fs.reach (fs.start dir) (Path.parts dir) = .ok parent)
    (text : String) :
    fs.writeText (Path.join dir name) text
      = (checkPath (Path.join dir name)).bind fun _ =>
      if nameLimit < name.size then .error .nameTooLong
      else if fs.kindAt? (parent ++ [name]) = some .directory then
        .error .isDirectory
      else .ok { fs with
        root := Item.put (.file text) fs.root (parent ++ [name]) } := by
  have hparent : fs.parentPlace (Path.join dir name) = .ok parent := by
    show fs.reach (fs.start (Path.join dir name))
      (Path.parts (Path.join dir name)).dropLast = _
    rw [start, Path.isAbsolute_join named, Path.parts_join named,
      List.dropLast_concat]
    exact hreach
  have hname : lastName? (Path.join dir name) = some name := by
    rw [lastName?, Path.parts_join named, List.getLast?_concat]
    exact if_neg (not_or.2 ⟨named.ne_dot, named.ne_dots⟩)
  rw [writeText]
  refine congrArg _ (funext fun _ => ?_)
  rw [hparent, hname]
  dsimp only [bind, Except.bind]
  split
  · rfl
  · unfold FileSystem.kindAt? Item.kindAt?
    cases fs.root.at? (parent ++ [name]) with
    | none => rfl
    | some item => cases item <;> rfl

/-- A file that is written is put in a directory that is reached. -/
theorem reach_of_writeText (named : Path.IsFileName name)
    (h : fs.writeText (Path.join dir name) text = .ok fs') :
    ∃ parent, fs.reach (fs.start dir) (Path.parts dir) = .ok parent
      ∧ fs.kindAt? (parent ++ [name]) ≠ some .directory
      ∧ fs' = { fs with
        root := Item.put (.file text) fs.root (parent ++ [name]) } := by
  obtain ⟨parent, -, hfollow, -, hdir, hfree, rfl⟩ := writeText_named named h
  refine ⟨parent, ?_, hfree, rfl⟩
  unfold reach
  rw [show fs.follow (fs.start dir) (Path.parts dir) = .ok parent from hfollow]
  show (do fs.requireDirectory parent; return parent) = Except.ok parent
  rw [requireDirectory_of_kind hdir]
  rfl

/-- Writing by name into a directory touches the file at the place that the
path denotes, which is not on the way to the directory. -/
theorem extends_writeText (named : Path.IsFileName name) (made : Place → Prop)
    (h : fs.writeText (Path.join dir name) text = .ok fs') :
    Extends (fun place => place = fs.placeOf dir ++ [name]
      ∧ ¬ OnWay (fs.start dir) (Path.parts dir) place) made fs fs' := by
  obtain ⟨parent, hreach, hfree, rfl⟩ := reach_of_writeText named h
  obtain ⟨rfl, hway, -⟩ := reach_eq_ok.1 hreach
  refine (extends_put_file text (hway _ (Place.onWay_end _ _)) hfree made).mono
    ?_
  rintro _ rfl
  exact ⟨rfl, fun hon => hfree (hway _ hon)⟩

-- ========================================================== the same way

/-- Paths up to parts that stay in place go the same way. -/
theorem Spells.onWay_iff (h : Spells path front last) {passed : Place} :
    OnWay place (front ++ [last]) passed
      ↔ OnWay place (Path.parts path) passed := by
  obtain ⟨raw, hparts, hsame⟩ := h.parts
  rw [hparts, ← Place.onWay_filter, ← @Place.onWay_filter _ _ (raw ++ [last]),
    List.filter_append, List.filter_append, hsame]

theorem Spells.reach_eq (h : Spells path front last) (fs : FileSystem)
    (place : Place) :
    fs.reach place (Path.parts path) = fs.reach place (front ++ [last]) := by
  have hreach := h.reach_parts fs place [] rfl
  rw [List.append_nil] at hreach
  exact hreach

/-- Stopping at a file is a matter of the files on the way, and if it leads up
again also of the directories. -/
theorem Extends.stops (ext : Extends written made fs fs')
    (hstart : fs.kindAt? place = some .directory)
    (off : ∀ passed, OnWay place front passed → ¬ written passed) :
    FileStep.stops fs' place front = FileStep.stops fs place front
      ∨ (".." : OsText) ∈ front ∧ FileStep.stops fs place front = false
        ∧ FileStep.stops fs' place front = true := by
  cases hleft : FileStep.stops fs place front with
  | true =>
      have hreach := reach_notDirectory_mono (FileStep.stops_iff.1 hleft)
        (fun passed _ => ext.directories passed)
        fun passed text hfile hway =>
        (ext.files passed (off passed hway) text).2 hfile
      exact Or.inl (FileStep.stops_iff.2 hreach)
  | false =>
      cases hright : FileStep.stops fs' place front with
      | false => exact Or.inl rfl
      | true =>
          refine Or.inr ⟨?_, rfl, rfl⟩
          by_cases hup : (".." : OsText) ∈ front
          · exact hup
          · have hdown : ∀ part ∈ front, part ≠ ".." := by
              rintro part hmem rfl
              exact hup hmem
            have hreach :=
              reach_notDirectory_of_file (ext.directories place hstart) hdown
              (FileStep.stops_iff.1 hright)
              fun passed text hfile hway =>
              (ext.files passed (off passed hway) text).1 hfile
            rw [FileStep.stops_iff.2 hreach] at hleft
            cases hleft

end FileSystem

namespace FileStep

open FileSystem
open Files.Place (step walk OnWay)

variable {fs fs' : FileSystem} {written made : Place → Prop}
  {path dir name last : OsText} {text : String} {front raw : List OsText}

/-- The same reason, or what reads differently on a way that leads up again. -/
def SameReason (up : Prop) (e e' : FileError) : Prop :=
  e' = e ∨ up ∧ e = .alreadyExists ∧ e' = .notDirectory

/-- One has more than the other, and in both the path leads to a directory,
from the same place. -/
structure Ready (written made : Place → Prop) (start : Place) (path : OsText)
    (fs fs' : FileSystem) : Prop extends Extends written made fs fs' where
  starts : fs.start path = start
  reach : fs.reach start (Path.parts path) = .ok (walk start (Path.parts path))
  reach' : fs'.reach start (Path.parts path)
    = .ok (walk start (Path.parts path))

/-- The directories of a path are refused alike. -/
theorem refusal?_alike (ext : Extends written made fs fs') {place : Place}
    (hstart : fs.kindAt? place = some .directory)
    (off : ∀ passed, OnWay place (front ++ [last]) passed → ¬ written passed) :
    refusal? fs place front last = none ∧ refusal? fs' place front last = none
      ∨ ∃ e e', refusal? fs place front last = some e
        ∧ refusal? fs' place front last = some e'
        ∧ SameReason ((".." : OsText) ∈ front) e e' := by
  have hhurdle :
      fs'.hurdle? place (front ++ [last])
        = fs.hurdle? place (front ++ [last]) :=
    hurdle?_congr fun passed hway => ext.sameTexts passed (off passed hway)
  rw [refusal?, refusal?, hhurdle]
  cases fs.hurdle? place (front ++ [last]) with
  | none => exact Or.inl ⟨rfl, rfl⟩
  | some e =>
      refine Or.inr ⟨_, _, rfl, rfl, ?_⟩
      rcases ext.stops hstart fun passed hway =>
        off passed (hway.append [last]) with
        hsame | ⟨hup, hleft, hright⟩
      · rw [hsame]
        exact Or.inl rfl
      · rw [hleft, hright]
        by_cases he : e = .notDirectory
        · subst he
          exact Or.inr ⟨hup, rfl, rfl⟩
        · rw [blame, blame, if_neg fun h => he h.1, if_neg fun h => he h.1]
          exact Or.inl rfl

/-- Directories are made alike where the way leads over no file that only one
of them has. -/
theorem makeDirectories_alike (hparts : Path.parts path = raw ++ [last])
    (moves : last ≠ ".")
    (ext : Extends written made fs fs')
    (hstart : fs.kindAt? (fs.start path) = some .directory)
    (off : ∀ passed, OnWay (fs.start path) (Path.parts path) passed →
      ¬ written passed)
    (sub : ∀ passed, OnWay (fs.start path) (Path.parts path) passed →
      made passed) :
    Alike (Ready written made (fs.start path) path)
      (SameReason ((".." : OsText) ∈ raw)) (SameTexts written)
      (makeDirectories path fs) (makeDirectories path fs') := by
  have hne : path.isEmpty = false := by
    rw [OsText.isEmpty_eq_false_iff]
    rintro rfl
    rw [Path.parts_empty] at hparts
    cases raw <;> cases hparts
  cases hcheck : checkPath path with
  | error e =>
      rw [makeDirectories_of_unusable hne hcheck,
        makeDirectories_of_unusable hne hcheck]
      exact .error (Or.inl rfl) ext.sameTexts
  | ok u =>
      obtain ⟨front, hmeaningful, hsame⟩ := Path.exists_meaningful hparts moves
      have hspells : Spells path front last := ⟨hcheck, raw, hparts, hsame⟩
      have hmakes := makes_makeDirectories path fs
      have hmakes' := makes_makeDirectories path fs'
      have hsettles := settles_makeDirectories hspells hne hmeaningful hstart
      have hsettles' := settles_makeDirectories hspells hne hmeaningful
        (ext.start path ▸ ext.directories _ hstart : fs'.kindAt?
          (fs'.start path) = _)
      rw [ext.start] at hmakes' hsettles'
      unfold after at hmakes hmakes'
      -- both are made, or both refused
      rcases refusal?_alike ext hstart fun passed hway =>
        off passed (hspells.onWay_iff.1 hway) with
        ⟨hnone, hnone'⟩ | ⟨e, e', hsome, hsome', hreason⟩
      · obtain ⟨done, reached, hok, hreach⟩ := hsettles.made hnone
        obtain ⟨done', reached', hok', hreach'⟩ := hsettles'.made hnone'
        rw [hok] at hmakes ⊢
        rw [hok'] at hmakes' ⊢
        rw [← hspells.reach_eq] at hreach hreach'
        obtain ⟨rfl, -⟩ := reach_eq_ok.1 hreach
        obtain ⟨rfl, hway, -⟩ := reach_eq_ok.1 hreach'
        have hext : Extends written made done done' :=
          ext.makes hmakes hmakes' sub hway
        exact .ok _ ⟨hext, hmakes.start path, hreach, hreach'⟩
      · obtain ⟨done, herror⟩ := hsettles.fails e hsome
        obtain ⟨done', herror'⟩ := hsettles'.fails e' hsome'
        rw [herror] at hmakes ⊢
        rw [herror'] at hmakes' ⊢
        refine .error (hreason.imp_right fun ⟨hup, hreasons⟩ => ⟨?_, hreasons⟩)
          (ext.sameTexts_makes hmakes hmakes')
        have hmem : (".." : OsText) ∈ raw.filter Path.isMove :=
          hsame ▸ List.mem_filter.2 ⟨hup, rfl⟩
        exact (List.mem_filter.1 hmem).1

/-- A file is written alike into a directory that both have, unless only one
has a directory in its place. -/
theorem writeText_alike {start : Place} (named : Path.IsFileName name)
    (ready : Ready written made start dir fs fs')
    (free : made (walk start (Path.parts dir) ++ [name]) →
      fs.kindAt? (walk start (Path.parts dir) ++ [name]) = some .directory)
      (text : String) :
    Alike (Extends written made) Eq (SameTexts written)
      (writeText (Path.join dir name) text fs)
      (writeText (Path.join dir name) text fs') := by
  obtain ⟨ext, rfl, hreach, hreach'⟩ := ready
  rw [← ext.start] at hreach'
  have hsame := ext.sameTexts
  unfold FileStep.writeText change
  dsimp only
  rw [writeText_join named hreach, writeText_join named hreach']
  cases checkPath (Path.join dir name) with
  | error e => exact .error rfl hsame
  | ok u =>
      dsimp only [Except.bind]
      rw [ext.start]
      by_cases hlong : nameLimit < name.size
      · rw [if_pos hlong, if_pos hlong]
        exact .error rfl hsame
      · rw [if_neg hlong, if_neg hlong]
        by_cases hdir : fs.kindAt?
          (walk (fs.start dir) (Path.parts dir) ++ [name]) = some .directory
        · rw [if_pos hdir, if_pos (ext.directories _ hdir)]
          exact .error rfl hsame
        · have hdir' : fs'.kindAt?
            (walk (fs.start dir) (Path.parts dir) ++ [name])
              ≠ some .directory := fun hkind =>
                hdir ((ext.news _ hkind).elim id free)
          rw [if_neg hdir, if_neg hdir']
          have hinside := (reach_eq_ok.1 hreach).2.1 _ (Place.onWay_end _ _)
          exact .ok _ (ext.put_file text hinside hdir hdir')

end FileStep
end Prerender
