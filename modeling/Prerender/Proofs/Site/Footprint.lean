/-
What a page build touches.

A page owns the files that are written to its directory
(`Builder.Owns`), and directories are made on the way to the directories
of pages only (`Builder.Opens`); a build leaves all else as it is,
whether it succeeds or fails (`Builder.grows_buildPage`).

All of this is in terms of places, and needs that the places of pages
are as their paths look. The path of a page is plain if it consists of
names, none of them reserved: no name goes nowhere or up, and none is
that of a file that pages are written to (`PagePath.IsPlain`). Then

1. the directory of a page is reached from the directory of all pages by
   the parts of its path (`Builder.placeOf_outputDir_plain`), so that
   different pages have different directories;
2. the way to it leads to the directory of all pages and on by names
   (`Builder.onWay_outputDir`), so that nothing on the way is where a
   file of a page is written.

The directory of all pages can be any path, one that goes up again
included, and there need not be a directory that it starts from. In that
case nothing is written at all (`Builder.state_writeArtifact_of_start`).
Both cases are in the relation between the files before and after
(`Builder.Grows`), which is reflexive and transitive, so that a build of
many pages has it from each of them. Places are those that paths lead to
from the working directory of the files at the very start, as no build
changes it.
-/
import Prerender.Proofs.Files.Alike
import Prerender.Proofs.Site.Build

namespace Prerender

open Files
open Files.Place (walk OnWay)
open FileSystem (Extends)

-- ============================================================ plain paths

namespace PagePath

/-- What no part of the path of a page should be. -/
def reserved : List OsText := "" :: "." :: ".." :: Builder.artifactFiles

/-- Whether a path consists of names with a slash between each two, none of
them reserved. -/
def IsPlain (path : String) : Prop :=
  ∀ piece ∈ splitSlashes (OsText.ofText path).bytes, OsText.mk piece ∉ reserved

instance : DecidablePred IsPlain := fun path =>
  inferInstanceAs (Decidable
    (∀ piece ∈ splitSlashes (OsText.ofText path).bytes,
      OsText.mk piece ∉ reserved))

variable {path path' : String}

/-- The parts of a plain path are the names between its slashes. -/
theorem IsPlain.parts_eq (h : IsPlain path) :
    Path.parts path
      = (splitSlashes (OsText.ofText path).bytes).map OsText.mk := by
  rw [Path.parts, List.filter_eq_self.2]
  intro piece hpiece
  rw [Bool.not_eq_true', List.isEmpty_eq_false_iff]
  rintro rfl
  exact h [] hpiece (.head _)

theorem IsPlain.parts_ne_nil (h : IsPlain path) : Path.parts path ≠ [] := by
  rw [h.parts_eq]
  exact fun hnil => splitSlashes_ne_nil _ (List.map_eq_nil_iff.1 hnil)

/-- The path of a page, the root or a plain one, is relative. -/
theorem not_isAbsolute (plain : path ≠ "" → IsPlain path) :
    Path.isAbsolute path = false := by
  unfold Path.isAbsolute
  cases hlist : (OsText.ofText path).bytes with
  | nil => rfl
  | cons byte rest =>
      have hroot : path ≠ "" := by
        rintro rfl
        cases hlist
      have hplain := plain hroot
      rw [IsPlain, hlist, splitSlashes] at hplain
      rw [List.head?_cons, beq_eq_false_iff_ne]
      intro heq
      rw [if_pos (Option.some.inj heq)] at hplain
      exact hplain [] (.head _) (.head _)

/-- The path of a page, the root or a plain one, is its parts in a row. -/
theorem ofParts_parts (plain : path ≠ "" → IsPlain path) :
    Path.ofParts (Path.parts path) = path := by
  by_cases hroot : path = ""
  · subst hroot
    decide
  · rw [(plain hroot).parts_eq, Path.ofParts_splitSlashes]

/-- Pages whose paths have the same parts are one. -/
theorem parts_inj (plain : path ≠ "" → IsPlain path)
    (plain' : path' ≠ "" → IsPlain path')
    (h : Path.parts path = Path.parts path') : path = path' := by
  rw [← OsText.ofText_inj, ← ofParts_parts plain, h, ofParts_parts plain']

/-- No part of the path of a page is reserved. -/
theorem not_reserved (plain : path ≠ "" → IsPlain path) :
    ∀ part ∈ Path.parts path, part ∉ reserved := by
  by_cases hroot : path = ""
  · subst hroot
    decide
  · intro part hmem
    rw [(plain hroot).parts_eq] at hmem
    obtain ⟨piece, hpiece, rfl⟩ := List.mem_map.1 hmem
    exact plain hroot piece hpiece

/-- None leads nowhere or up. -/
theorem down (plain : path ≠ "" → IsPlain path) :
    ∀ part ∈ Path.parts path, part ≠ "." ∧ part ≠ ".." := by
  intro part hmem
  have hpart := not_reserved plain part hmem
  constructor
  · rintro rfl
    exact hpart (.tail _ (.head _))
  · rintro rfl
    exact hpart (.tail _ (.tail _ (.head _)))

/-- None is the name of a file that pages are written to. -/
theorem not_artifact (plain : path ≠ "" → IsPlain path) :
    ∀ part ∈ Path.parts path, part ∉ Builder.artifactFiles := by
  intro part hmem hartifact
  exact not_reserved plain part hmem (.tail _ (.tail _ (.tail _ hartifact)))

/-- A plain path has a last name, and none that leads up before it. -/
theorem IsPlain.exists_last (h : IsPlain path) :
    ∃ front, ∃ last : OsText, Path.parts path = front ++ [last] ∧ last ≠ "."
      ∧ (".." : OsText) ∉ front := by
  have hdown := down fun _ => h
  rcases List.eq_nil_or_concat
    (Path.parts path) with hnil | ⟨front, last, hlast⟩
  · exact absurd hnil h.parts_ne_nil
  · rw [List.concat_eq_append] at hlast
    rw [hlast] at hdown
    refine ⟨front, last, hlast,
      (hdown last (List.mem_append_right _ (.head _))).1, fun hmem => ?_⟩
    exact (hdown _ (List.mem_append_left _ hmem)).2 rfl

end PagePath

-- ================================================= the directories of pages

namespace Builder

variable {builder : Builder} {base fs fs' fs'' : FileSystem}
  {path path' : String} {name : OsText} {place : Place}

/-- The parts of the path come behind those of the directory of all pages. -/
theorem parts_outputDir (builder : Builder)
    (relative : Path.isAbsolute path = false) :
    Path.parts (builder.outputDir path)
      = Path.parts builder.settings.outputDir ++ Path.parts path := by
  unfold outputDir
  split
  · next hroot =>
    rw [String.isEmpty_iff.1 hroot]
    exact (List.append_nil _).symm
  · exact Path.parts_join_of_relative relative _

theorem start_outputDir (builder : Builder)
    (relative : Path.isAbsolute path = false) (fs : FileSystem) :
    fs.start (builder.outputDir path)
      = fs.start builder.settings.outputDir := by
  unfold outputDir FileSystem.start
  split
  · rfl
  · rw [Path.isAbsolute_join_of_relative relative]

/-- The directory of a page is reached from the directory of all pages. -/
theorem placeOf_outputDir (builder : Builder)
    (relative : Path.isAbsolute path = false) (fs : FileSystem) :
    fs.placeOf (builder.outputDir path)
      = walk (fs.placeOf builder.settings.outputDir) (Path.parts path) := by
  rw [FileSystem.placeOf, start_outputDir builder relative,
    parts_outputDir builder relative, Place.walk_append]
  rfl

/-- By the names of a plain path it goes straight down. -/
theorem placeOf_outputDir_plain (builder : Builder)
    (plain : path ≠ "" → PagePath.IsPlain path) (fs : FileSystem) :
    fs.placeOf (builder.outputDir path)
      = fs.placeOf builder.settings.outputDir ++ Path.parts path := by
  rw [placeOf_outputDir builder (PagePath.not_isAbsolute plain),
    Place.walk_of_names (PagePath.down plain)]

/-- The way to the directory of a page leads to the directory of all pages and
on by names. -/
theorem onWay_outputDir (plain : path ≠ "" → PagePath.IsPlain path)
    (h : OnWay (fs.start (builder.outputDir path))
      (Path.parts (builder.outputDir path)) place) :
    OnWay (fs.start builder.settings.outputDir)
        (Path.parts builder.settings.outputDir) place
      ∨ ∃ names, names <+: Path.parts path
        ∧ place = fs.placeOf builder.settings.outputDir ++ names := by
  have hrelative := PagePath.not_isAbsolute plain
  rw [start_outputDir builder hrelative, parts_outputDir builder hrelative,
    Place.onWay_append] at h
  refine h.imp_right fun ⟨names, hunder, hplace⟩ => ⟨names, hunder, ?_⟩
  rw [← hplace]
  exact Place.walk_of_names
    (fun part hmem => PagePath.down plain part (hunder.subset hmem)) _

-- ========================================================== what is touched

/-- The places of the files of a page. A place on the way to all pages can
hold none of them, since there is a directory when they are written. -/
def Owns (builder : Builder) (base : FileSystem) (path : String)
    (place : Place) : Prop :=
  ∃ name ∈ artifactFiles,
    place = base.placeOf (builder.outputDir path) ++ [name]
    ∧ ¬ OnWay (base.start builder.settings.outputDir)
      (Path.parts builder.settings.outputDir) place

/-- The places where directories may be made for pages. -/
def Opens (builder : Builder) (base : FileSystem) (place : Place) : Prop :=
  OnWay (base.start builder.settings.outputDir)
      (Path.parts builder.settings.outputDir) place
    ∨ ∃ names, (∀ name ∈ names, name ∉ artifactFiles)
      ∧ place = base.placeOf builder.settings.outputDir ++ names

/-- On the way to the directory of a page, directories may be made. -/
theorem opens_of_onWay (plain : path ≠ "" → PagePath.IsPlain path)
    (h : OnWay (fs.start (builder.outputDir path))
      (Path.parts (builder.outputDir path)) place) :
    builder.Opens fs place :=
  (onWay_outputDir plain h).imp_right fun ⟨names, hunder, hplace⟩ =>
    ⟨names, fun name hmem => PagePath.not_artifact plain name
      (hunder.subset hmem), hplace⟩

/-- `fs'` comes of `fs` by builds that write files at the given places; where
paths cannot even be started, nothing comes of them. Places are those that
paths lead to from the working directory of `base`. -/
structure Grows (builder : Builder) (base : FileSystem) (written : Place → Prop)
    (fs fs' : FileSystem) : Prop where
  home : fs.workingDirectory = base.workingDirectory
  more : fs' = fs
    ∨ fs.kindAt? (base.start builder.settings.outputDir) = some .directory
      ∧ Extends written (builder.Opens base) fs fs'

namespace Grows

variable {written : Place → Prop}

theorem refl (home : fs.workingDirectory = base.workingDirectory) :
    Grows builder base written fs fs := ⟨home, Or.inl rfl⟩

/-- All files but those at the given places are kept. -/
theorem keeps (h : Grows builder base written fs fs') :
    FileSystem.Keeps written fs fs' := by
  rcases h.more with rfl | ⟨-, hext⟩
  · exact .refl written fs'
  · exact hext.toKeeps

theorem home' (h : Grows builder base written fs fs') :
    fs'.workingDirectory = base.workingDirectory :=
  h.keeps.workingDirectory.trans h.home

/-- Builds come one after the other. -/
theorem trans (first : Grows builder base written fs fs')
    (second : Grows builder base written fs' fs'') :
    Grows builder base written fs fs'' := by
  refine ⟨first.home, ?_⟩
  rcases first.more with rfl | ⟨hdir, hext⟩
  · exact second.more
  · rcases second.more with rfl | ⟨-, hext'⟩
    · exact Or.inr ⟨hdir, hext⟩
    · exact Or.inr ⟨hdir, hext.trans hext'⟩

theorem mono {more : Place → Prop} (h : Grows builder base written fs fs')
    (sub : ∀ place, written place → more place) :
    Grows builder base more fs fs' :=
  ⟨h.home, h.more.imp_right fun ⟨hdir, hext⟩ => ⟨hdir, hext.mono sub⟩⟩

end Grows

/-- Where a path starts depends on the working directory alone. -/
theorem start_eq (home : fs.workingDirectory = base.workingDirectory)
    (path : OsText) :
    fs.start path = base.start path := by
  unfold FileSystem.start
  rw [home]

theorem placeOf_eq (home : fs.workingDirectory = base.workingDirectory)
    (path : OsText) :
    fs.placeOf path = base.placeOf path := by
  rw [FileSystem.placeOf, start_eq home]
  rfl

-- ================================================================ writes

/-- Writing an artifact leaves all alone but its file and the directories on
the way. -/
theorem extends_writeArtifact {made : Place → Prop} {dir : OsText}
    (named : Path.IsFileName name)
    (sub : ∀ place, OnWay (fs.start dir) (Path.parts dir) place → made place)
    (text : String) :
    Extends (fun place => place = fs.placeOf dir ++ [name]
        ∧ ¬ OnWay (fs.start dir) (Path.parts dir) place) made fs
      (Steps.state (writeArtifact dir name text fs)) := by
  have hmakes := FileStep.makes_makeDirectories dir fs
  unfold FileStep.after at hmakes
  rw [writeArtifact_eq]
  cases hdirs : FileStep.makeDirectories dir fs with
  | error e mid =>
      rw [hdirs] at hmakes
      exact hmakes.extends sub
  | ok a mid =>
      rw [hdirs] at hmakes
      have hmid : FileSystem.Makes _ fs mid := hmakes
      dsimp only
      cases hwrite : mid.writeText (Path.join dir name) text with
      | error e => exact hmid.extends sub
      | ok fs' =>
          have hfile := FileSystem.extends_writeText named made hwrite
          rw [FileSystem.placeOf, hmid.start] at hfile
          exact (hmid.extends sub).trans hfile

/-- Where a path does not start in a directory, no artifact is written. -/
theorem state_writeArtifact_of_start {dir : OsText}
    (named : Path.IsFileName name)
    (h : fs.kindAt? (fs.start dir) ≠ some .directory) (text : String) :
    Steps.state (writeArtifact dir name text fs) = fs := by
  have hafter := FileStep.after_makeDirectories h
  unfold FileStep.after at hafter
  rw [writeArtifact_eq]
  cases hdirs : FileStep.makeDirectories dir fs with
  | error e mid =>
      rw [hdirs] at hafter
      exact hafter
  | ok a mid =>
      rw [hdirs] at hafter
      have hmid : mid = fs := hafter
      dsimp only
      cases hwrite : mid.writeText (Path.join dir name) text with
      | error e => exact hmid
      | ok fs' =>
          obtain ⟨parent, hreach, -⟩ :=
            FileSystem.reach_of_writeText named hwrite
          rw [hmid] at hreach
          exact absurd
            ((FileSystem.reach_eq_ok.1 hreach).2.1 _ (Place.onWay_start _ _)) h

/-- Writing an artifact of a page writes what the page owns, on a way that is
open. -/
theorem grows_writeArtifact (builder : Builder)
    (plain : path ≠ "" → PagePath.IsPlain path)
    (hname : name ∈ artifactFiles)
    (home : fs.workingDirectory = base.workingDirectory) (text : String) :
    Grows builder base (builder.Owns base path) fs
      (Steps.state (writeArtifact (builder.outputDir path) name text fs)) := by
  have hnamed := isFileName_of_mem hname
  have hrelative := PagePath.not_isAbsolute plain
  refine ⟨home, ?_⟩
  rw [← start_eq home, ← start_outputDir builder hrelative]
  by_cases hstart : fs.kindAt? (fs.start (builder.outputDir path))
    = some .directory
  · refine Or.inr ⟨hstart, (extends_writeArtifact hnamed ?_ text).mono ?_⟩
    · intro place hway
      rw [start_eq home] at hway
      exact opens_of_onWay plain hway
    · rintro place ⟨hplace, haway⟩
      rw [placeOf_eq home] at hplace
      rw [start_eq home, start_outputDir builder hrelative,
        parts_outputDir builder hrelative] at haway
      exact ⟨name, hname, hplace, fun hway => haway (hway.append _)⟩
  · exact Or.inl (state_writeArtifact_of_start hnamed hstart text)

end Builder

-- ============================================================ page builds

namespace Builder

variable {builder : Builder} {base fs : FileSystem} {path : String}

/-- Steps that stay within these bounds do so in sequence. -/
theorem closed_grows (builder : Builder) (base : FileSystem)
    (written : Place → Prop) :
    Build.Closed fun step =>
      ∀ fs : FileSystem, fs.workingDirectory = base.workingDirectory →
        Grows builder base written fs (Steps.state (step fs)) :=
  Build.closed_of_preorder
    (fun fs fs' => fs.workingDirectory = base.workingDirectory →
      Grows builder base written fs fs')
    (fun _ home => .refl home)
    fun hfirst hrest home => (hfirst home).trans (hrest (hfirst home).home')

/-- A page build writes files of its page only and makes directories on the
way only. -/
theorem grows_buildPage (builder : Builder)
    (plain : path ≠ "" → PagePath.IsPlain path)
    (home : fs.workingDirectory = base.workingDirectory) :
    Grows builder base (builder.Owns base path) fs
      (Steps.state (builder.buildPage path fs)) :=
  (closed_grows builder base (builder.Owns base path)).buildPage
    (fun _ hname text _ home => grows_writeArtifact builder plain
      (artifact_of_mem hname) home text)
    fs home

end Builder
end Prerender
