/-
Pages of one build do not influence each other.

A build goes over its pages in order, on one file system. Each page
succeeds or fails as it would alone on the files from before, and its
own files are after the build what they are after a build of this page
alone (`Registry.buildAll_isolated`). So an author can look at one page
without asking which others there are, and one page that fails is no
reason for another.

There are two halves to it:

1. What other pages have written and made beforehand a page does not
   see. Its build on the files then goes as it would on the files from
   before (`Builder.alike_buildPage`): the two runs are followed side by
   side, by the relation that `Footprint` gives between the two file
   systems (`Builder.Grows`), and the page passes over none of the files
   of others (`Builder.not_owns_of_onWay`).
2. What other pages write afterwards is not what it owns
   (`Builder.not_owns_of_ne`).

The order of pages matters once. The root has no name of its own, so its
directory is on the way to all the others; but it comes first and never
meets what another has made (`Builder.alike_in_build`).

One thing shows through. Where the directory of all pages is reached by
going up again, the reason why a page cannot be written may read
differently once others were built: a way that breaks off at a directory
that is not there may have come to be, and then lead to a file in the
way (`Builder.SameFailure`). It shows in the text of the error alone,
and a small site shows it (`Registry.textSite_disagrees`).

The file system is a tree of files and directories, without links.
-/
import Mathlib.Data.List.Forall2
import Prerender.Proofs.Site.Footprint

namespace Prerender

open Files
open Files.Place (walk OnWay)
open FileSystem (Extends SameTexts)
open Steps (Alike)

namespace Builder

variable {builder : Builder} {base fs fs' : FileSystem} {path : String}
  {name : OsText} {done pages : List String}

-- ========================================================= no common places

/-- The places of the files of some pages. -/
def OwnedBy (builder : Builder) (base : FileSystem) (pages : List String)
    (place : Place) : Prop :=
  ∃ path ∈ pages, builder.Owns base path place

/-- The way to the directory of a page leads over the file of no page. -/
theorem not_owns_of_onWay {path' : String} {place : Place}
    (plain : path ≠ "" → PagePath.IsPlain path)
    (plain' : path' ≠ "" → PagePath.IsPlain path')
    (h : OnWay (base.start (builder.outputDir path))
      (Path.parts (builder.outputDir path)) place) :
    ¬ builder.Owns base path' place := by
  rintro ⟨name, hname, hplace, haway⟩
  rcases onWay_outputDir plain h with hway | ⟨names, hunder, hnames⟩
  · exact haway hway
  · rw [hnames, placeOf_outputDir_plain builder plain', List.append_assoc]
      at hplace
    have hmem : name ∈ names := by
      rw [List.append_cancel_left hplace]
      exact List.mem_append_right _ (.head _)
    exact PagePath.not_artifact plain name (hunder.subset hmem) hname

/-- The files of two pages are not in the same place. -/
theorem not_owns_of_ne {path' : String}
    (plain : path ≠ "" → PagePath.IsPlain path)
    (plain' : path' ≠ "" → PagePath.IsPlain path') (apart : path ≠ path') :
    ¬ builder.Owns base path'
      (base.placeOf (builder.outputDir path) ++ [name]) := by
  rintro ⟨name', -, hplace, -⟩
  rw [placeOf_outputDir_plain builder plain,
    placeOf_outputDir_plain builder plain'] at hplace
  have hparts := List.append_cancel_left (List.append_inj_left' hplace rfl)
  exact apart (PagePath.parts_inj plain plain' hparts)

/-- In the place of a file of a page, directories are made only on the way. -/
theorem onWay_of_opens (plain : path ≠ "" → PagePath.IsPlain path)
    (hname : name ∈ artifactFiles)
    (h : builder.Opens base (base.placeOf (builder.outputDir path) ++ [name])) :
    OnWay (base.start (builder.outputDir path))
      (Path.parts (builder.outputDir path))
      (base.placeOf (builder.outputDir path) ++ [name]) := by
  rcases h with hway | ⟨names, hnames, hplace⟩
  · have hrelative := PagePath.not_isAbsolute plain
    rw [start_outputDir builder hrelative, parts_outputDir builder hrelative]
    exact hway.append _
  · rw [placeOf_outputDir_plain builder plain, List.append_assoc] at hplace
    refine absurd hname (hnames name ?_)
    rw [← List.append_cancel_left hplace]
    exact List.mem_append_right _ (.head _)

-- =========================================================== alike builds

/-- The same failure, but for what reads differently where the way leads up
again. -/
def SameFailure (up : Prop) (e e' : BuildError) : Prop :=
  e' = e ∨ up ∧ ∃ dir, e = .unwritten dir .alreadyExists
    ∧ e' = .unwritten dir .notDirectory

/-- Steps on files that go alike are alike as steps of a build. -/
theorem alike_onFiles {dir : OsText} {step : FileStep PUnit}
    {states broken : FileSystem → FileSystem → Prop}
    {up : Prop}
    (h : Alike states (FileStep.SameReason up) broken (step fs) (step fs')) :
    Alike states (SameFailure up) broken (onFiles dir step fs)
      (onFiles dir step fs') := by
  unfold onFiles
  generalize step fs = r, step fs' = r' at h
  cases h with
  | ok a h => exact .ok a h
  | error h hs =>
      refine .error ?_ hs
      rcases h with rfl | ⟨hup, rfl, rfl⟩
      · exact Or.inl rfl
      · exact Or.inr ⟨hup, dir, rfl, rfl⟩

/-- A step that goes the same way is alike to itself. -/
theorem alike_self {α : Type} {up : Prop} {written : Place → Prop}
    {r : EStateM.Result BuildError FileSystem α}
    (home : (Steps.state r).workingDirectory = base.workingDirectory) :
    Alike (Grows builder base written) (SameFailure up) (SameTexts written)
      r r := by
  cases r with
  | ok a fs => exact .ok a (.refl home)
  | error e fs => exact .error (Or.inl rfl) fun _ _ => rfl

section
variable (plain : PagePath.IsPlain path)
  (plains : ∀ path' ∈ done, path' ≠ "" → PagePath.IsPlain path')
include plain plains

/-- The directory of a page is made alike, since the way to it leads over no
file of other pages. -/
theorem alike_directories (home : fs.workingDirectory = base.workingDirectory)
    (hdir : fs.kindAt? (base.start builder.settings.outputDir)
      = some .directory)
    (hext : Extends (builder.OwnedBy base done) (builder.Opens base) fs fs') :
    Alike (FileStep.Ready (builder.OwnedBy base done) (builder.Opens base)
        (base.start (builder.outputDir path)) (builder.outputDir path))
      (FileStep.SameReason
        ((".." : OsText) ∈ Path.parts builder.settings.outputDir))
      (SameTexts (builder.OwnedBy base done))
      (FileStep.makeDirectories (builder.outputDir path) fs)
      (FileStep.makeDirectories (builder.outputDir path) fs') := by
  have hplain : path ≠ "" → PagePath.IsPlain path := fun _ => plain
  have hrelative := PagePath.not_isAbsolute hplain
  obtain ⟨front, last, hlast, hmoves, hdown⟩ := plain.exists_last
  have hparts : Path.parts (builder.outputDir path)
      = Path.parts builder.settings.outputDir ++ front ++ [last] := by
    rw [parts_outputDir builder hrelative, hlast, List.append_assoc]
  have hstart := start_eq home (builder.outputDir path)
  rw [← start_outputDir builder hrelative, ← hstart] at hdir
  have hdirs := FileStep.makeDirectories_alike hparts hmoves hext hdir
    (fun passed hway => by
      rw [hstart] at hway
      rintro ⟨path', hmem, howns⟩
      exact not_owns_of_onWay hplain (plains path' hmem) hway howns)
    (fun passed hway => by
      rw [hstart] at hway
      exact opens_of_onWay hplain hway)
  rw [hstart] at hdirs
  refine hdirs.mono id (fun hreason => hreason.imp_right fun ⟨hmem, hreasons⟩ =>
    ⟨?_, hreasons⟩) id
  exact (List.mem_append.1 hmem).resolve_right hdown

/-- A page writes alike whatever other pages have done before. -/
theorem alike_writeArtifact (hname : name ∈ artifactFiles)
    (h : Grows builder base (builder.OwnedBy base done) fs fs')
    (text : String) :
    Alike (Grows builder base (builder.OwnedBy base done))
      (SameFailure ((".." : OsText) ∈ Path.parts builder.settings.outputDir))
      (SameTexts (builder.OwnedBy base done))
      (writeArtifact (builder.outputDir path) name text fs)
      (writeArtifact (builder.outputDir path) name text fs') := by
  have hplain : path ≠ "" → PagePath.IsPlain path := fun _ => plain
  have hgrows := grows_writeArtifact builder hplain hname h.home text
  rcases h.more with rfl | ⟨hdir, hext⟩
  · exact alike_self hgrows.home'
  · have hdirs := alike_directories plain plains h.home hdir hext
    have hrun : Alike (Extends (builder.OwnedBy base done) (builder.Opens base))
        (SameFailure ((".." : OsText) ∈ Path.parts builder.settings.outputDir))
        (SameTexts (builder.OwnedBy base done))
        (writeArtifact (builder.outputDir path) name text fs)
        (writeArtifact (builder.outputDir path) name text fs') := by
      refine Alike.bind (alike_onFiles hdirs) fun _ mid mid' ready => ?_
      refine alike_onFiles
        ((FileStep.writeText_alike (isFileName_of_mem hname) ready ?_ text).mono
          id
        (fun heq => Or.inl heq.symm) id)
      exact fun hopens =>
        (FileSystem.reach_eq_ok.1 ready.reach).2.1 _
          (onWay_of_opens hplain hname hopens)
    refine (hrun.and (fun mid => mid.workingDirectory = base.workingDirectory
      ∧ mid.kindAt? (base.start builder.settings.outputDir) = some .directory)
      ⟨hgrows.home', hgrows.keeps.directories _ hdir⟩).mono ?_ id id
    rintro mid mid' ⟨⟨home, hmid⟩, hext⟩
    exact ⟨home, Or.inr ⟨hmid, hext⟩⟩

end

/-- Steps that go alike do so in sequence. -/
theorem closed_alike (builder : Builder) (base : FileSystem)
    (written : Place → Prop) (up : Prop) :
    Build.Closed fun step => ∀ fs fs', Grows builder base written fs fs' →
      Alike (Grows builder base written) (SameFailure up) (SameTexts written)
        (step fs) (step fs') where
  ok a _ _ h := .ok a h
  fail _ _ _ h := .error (Or.inl rfl) h.keeps.sameTexts
  bind hx hf _ _ h := (hx _ _ h).bind fun a _ _ hmid => hf a _ _ hmid

/-- A page is built alike whatever other pages have done before. -/
theorem alike_buildPage (plain : PagePath.IsPlain path)
    (plains : ∀ path' ∈ done, path' ≠ "" → PagePath.IsPlain path')
    (h : Grows builder base (builder.OwnedBy base done) fs fs') :
    Alike (Grows builder base (builder.OwnedBy base done))
      (SameFailure ((".." : OsText) ∈ Path.parts builder.settings.outputDir))
      (SameTexts (builder.OwnedBy base done)) (builder.buildPage path fs)
      (builder.buildPage path fs') :=
  (closed_alike builder base _ _).buildPage
    (fun _ hname text _ _ h => alike_writeArtifact plain plains
      (artifact_of_mem hname) h text)
    fs fs' h

-- ============================================================= whole builds

/-- A build writes files of its pages only. -/
theorem grows_buildPages (builder : Builder)
    (plains : ∀ path ∈ pages, path ≠ "" → PagePath.IsPlain path)
    (home : fs.workingDirectory = base.workingDirectory)
    (report : BuildReport) :
    Grows builder base (builder.OwnedBy base pages) fs
      (builder.buildPages report fs pages).2 := by
  induction pages generalizing report fs with
  | nil => exact .refl home
  | cons page rest ih =>
      obtain ⟨hpage, hrest⟩ := List.forall_mem_cons.1 plains
      have hfirst := grows_buildPage builder hpage home
      obtain ⟨report', hrun⟩ :=
        buildPages_cons_files builder report fs page rest
      rw [hrun]
      refine (hfirst.mono fun place howns => ⟨page, .head _, howns⟩).trans ?_
      exact (ih hrest hfirst.home' report').mono fun place
        ⟨path, hmem, howns⟩ =>
        ⟨path, .tail _ hmem, howns⟩

theorem not_lt_root (path : String) : ¬ path < "" := by
  rw [String.lt_iff]
  exact List.not_lt_nil _

/-- In a build each page is built as it would be alone. -/
theorem alike_in_build (builder : Builder) (base : FileSystem)
    (plains : ∀ page ∈ done ++ [path], page ≠ "" → PagePath.IsPlain page)
    (sorted : (done ++ [path]).Pairwise (· < ·)) (report : BuildReport) :
    Alike (Grows builder base (builder.OwnedBy base done))
      (SameFailure ((".." : OsText) ∈ Path.parts builder.settings.outputDir))
      (SameTexts (builder.OwnedBy base done)) (builder.buildPage path base)
      (builder.buildPage path (builder.buildPages report base done).2) := by
  have hdone : ∀ page ∈ done, page ≠ "" → PagePath.IsPlain page :=
    fun page hmem => plains page (List.mem_append_left _ hmem)
  have hpath := plains path (List.mem_append_right _ (.head _))
  by_cases hroot : path = ""
  · -- the root comes before all other pages
    have hnil : done = [] := by
      rw [List.eq_nil_iff_forall_not_mem]
      intro page hmem
      refine not_lt_root page ?_
      rw [← hroot]
      exact (List.pairwise_append.1 sorted).2.2 page hmem path (.head _)
    subst hnil
    exact alike_self (grows_buildPage builder hpath rfl).home'
  · exact alike_buildPage (hpath hroot) hdone
      (grows_buildPages builder hdone rfl report)

/-- The failure of a page that is built by itself, if it fails. -/
def failure? (builder : Builder) (fs : FileSystem) (path : String) :
    Option (String × BuildError) :=
  match builder.buildPage path fs with
  | .ok _ _ => none
  | .error e _ => some (path, e)

/-- Whether a report tells of a failure: of the same page, with the text of
the same failure. -/
def Tells (up : Prop) (failure : String × BuildError)
    (entry : String × String) : Prop :=
  entry.1 = failure.1 ∧ ∃ e, SameFailure up failure.2 e ∧ entry.2 = e.message

/-- The report of a build has the pages that succeed alone, and those that
fail alone, each in order. -/
theorem buildPages_report (builder : Builder) (base : FileSystem)
    (plains : ∀ page ∈ pages, page ≠ "" → PagePath.IsPlain page)
    (sorted : pages.Pairwise (· < ·)) :
    (builder.buildPages ⟨⟨false⟩, [], []⟩ base pages).1.built
        = pages.filter (fun path => Steps.isOk (builder.buildPage path base))
      ∧ List.Forall₂
        (Tells ((".." : OsText) ∈ Path.parts builder.settings.outputDir))
        (pages.filterMap (builder.failure? base))
        (builder.buildPages ⟨⟨false⟩, [], []⟩ base pages).1.failed := by
  induction pages using List.reverseRecOn with
  | nil => exact ⟨rfl, .nil⟩
  | append_singleton front path ih =>
      obtain ⟨hbuilt, hfailed⟩ :=
        ih (fun page hmem => plains page (List.mem_append_left _ hmem))
        (List.pairwise_append.1 sorted).1
      have halike := alike_in_build builder base plains sorted ⟨⟨false⟩, [], []⟩
      rw [buildPages_append, List.filter_append,
        List.filterMap_append, buildPages]
      rw [List.filter_singleton, List.filterMap_cons,
        List.filterMap_nil, failure?]
      revert halike hbuilt hfailed
      generalize builder.buildPages ⟨⟨false⟩, [], []⟩ base front = run
      obtain ⟨report, mid⟩ := run
      dsimp only
      generalize builder.buildPage path base = alone,
        builder.buildPage path mid = built
      intro hbuilt hfailed halike
      cases halike with
      | ok a h => exact ⟨by
          rw [← hbuilt]; rfl, by rw [List.append_nil]; exact hfailed⟩
      | error h hs =>
          refine ⟨by rw [hbuilt]; exact (List.append_nil _).symm, ?_⟩
          exact List.rel_append hfailed (.cons ⟨rfl, _, h, rfl⟩ .nil)

/-- The files of a page are after a build what they are after a build of this
page alone. -/
theorem buildPages_texts
    (plains : ∀ page ∈ pages, page ≠ "" → PagePath.IsPlain page)
    (sorted : pages.Pairwise (· < ·)) (report : BuildReport)
    (hpath : path ∈ pages) (name : OsText) :
    (builder.buildPages report base pages).2.textAt?
        (base.placeOf (builder.outputDir path) ++ [name])
      = (Steps.state (builder.buildPage path base)).textAt?
        (base.placeOf (builder.outputDir path) ++ [name]) := by
  obtain ⟨front, back, rfl⟩ := List.append_of_mem hpath
  have hplain := plains path hpath
  have hfront : ∀ page ∈ front ++ [path], page ≠ "" → PagePath.IsPlain page :=
    fun page hmem => plains page (by
      rcases List.mem_append.1 hmem with hmem | hmem
      · exact List.mem_append_left _ hmem
      · rw [List.mem_singleton.1 hmem]
        exact hpath)
  have hback : ∀ page ∈ back, page ≠ "" → PagePath.IsPlain page :=
    fun page hmem => plains page (List.mem_append_right _ (.tail _ hmem))
  obtain ⟨-, hrest, hbefore⟩ := List.pairwise_append.1 sorted
  rw [List.append_cons] at sorted
  have halike := alike_in_build builder base hfront
    (List.pairwise_append.1 sorted).1 report
  rw [buildPages_append]
  have hmid : (builder.buildPages report base front).2.workingDirectory
      = base.workingDirectory :=
    (grows_buildPages builder
      (fun page hmem => hfront page (List.mem_append_left _ hmem)) rfl
      report).home'
  generalize builder.buildPages report base front = run at halike hmid ⊢
  obtain ⟨report', mid⟩ := run
  obtain ⟨report'', hrun⟩ := buildPages_cons_files builder report' mid path back
  rw [hrun]
  have hafter := grows_buildPages builder hback
    (grows_buildPage builder hplain hmid).home' report''
  -- neither the pages behind nor those in front own a file of this page
  rw [hafter.keeps.sameTexts, halike.left fun h => h.keeps.sameTexts]
  · rintro ⟨page, hmem, howns⟩
    refine not_owns_of_ne hplain
      (fun hne => hfront page (List.mem_append_left _ hmem) hne) ?_ howns
    rintro rfl
    exact String.lt_irrefl _ (hbefore path hmem path (.head _))
  · rintro ⟨page, hmem, howns⟩
    refine not_owns_of_ne hplain (hback page hmem) ?_ howns
    rintro rfl
    exact String.lt_irrefl _ ((List.pairwise_cons.1 hrest).1 path hmem)

end Builder

namespace Registry

/-- Discovered pages come in order, each once. -/
theorem discover_sorted {registry : Registry} {fs : FileSystem}
    {pages : List String}
    (found : registry.discover fs = .ok pages) : pages.Pairwise (· < ·) := by
  have hpaths : registry.paths.Pairwise (· < ·) :=
    List.pairwise_map.2 registry.ascending
  exact hpaths.sublist (discover_sublist found)

/-- What builds the pages of a registry with the plain collaborators. -/
abbrev builder (registry : Registry) (settings : Settings) : Builder :=
  .standard registry.loader settings

/-- Each page of a build succeeds or fails as it would by itself on the files
from before, with the same text of the error and the same contents of its own
files, and the report has it once, in order. The text is the same up to what a
file in the way is called, and that only if the directory of all pages is
reached by going up. -/
theorem buildAll_isolated (registry : Registry) (settings : Settings)
    (fs : FileSystem)
    {pages : List String} (found : registry.discover fs = .ok pages)
    (plain : ∀ path ∈ pages, path ≠ "" → PagePath.IsPlain path) :
    ∃ report fs', (registry.builder settings).buildAll fs = (.ok report, fs')
      ∧ pages.Nodup
      ∧ report.built = pages.filter
          (fun path =>
            Steps.isOk ((registry.builder settings).buildPage path fs))
      ∧ List.Forall₂
        (Builder.Tells ((".." : OsText) ∈ Path.parts settings.outputDir))
        (pages.filterMap ((registry.builder settings).failure? fs))
        report.failed
      ∧ ∀ path ∈ pages, ∀ name ∈ Builder.artifactFiles,
          fs'.textAt? (fs.placeOf
              (Path.join ((registry.builder settings).outputDir path) name))
            = (Steps.state
                ((registry.builder settings).buildPage path fs)).textAt?
              (fs.placeOf
                (Path.join ((registry.builder settings).outputDir path)
                  name)) := by
  have hsorted := discover_sorted found
  have hreport :=
    Builder.buildPages_report (registry.builder settings) fs plain hsorted
  have hrun : (registry.builder settings).buildAll fs
      = (.ok ((registry.builder settings).buildPages
        ⟨⟨false⟩, [], []⟩ fs pages).1,
        ((registry.builder settings).buildPages
          ⟨⟨false⟩, [], []⟩ fs pages).2) := by
    have hdiscover : (registry.builder settings).loader.discover fs
      = .ok pages := found
    rw [Builder.buildAll, hdiscover]
  refine ⟨_, _, hrun, ?_, hreport.1, hreport.2, fun path hpath name hname => ?_⟩
  · refine hsorted.imp fun hlt heq => ?_
    subst heq
    exact String.lt_irrefl _ hlt
  · rw [FileSystem.placeOf_join (Builder.isFileName_of_mem hname)]
    exact Builder.buildPages_texts plain hsorted _ hpath name

/-- A site of a root page, whose tree has a cell, and a page below it, whose
tree is an element with an object for an option and cannot be resolved. -/
def brokenSite : Registry :=
  let page : PageCode := fun scope =>
    let (a, scope) := scope.addState (.str "a") none
    (.element ⟨"p", .options (.ofList [("title", .reactive (.state a))]),
      some []⟩, scope)
  let broken : PageCode := fun scope =>
    (.element ⟨"p", .options (.ofList [("style", .literal (.obj []))]), none⟩,
      scope)
  let metadata : PageCode := fun scope => (.text "a", scope)
  ((((Registry.empty.addPage "" page).addMetadata "" metadata).addPage
    "blog/post" broken).addMetadata "blog/post" metadata)

/-- In an empty directory its root page is built as it is alone, and the other
one fails. -/
theorem brokenSite_isolated : ∃ report fs',
    (brokenSite.builder .defaults).buildAll ⟨.directory [], []⟩
        = (.ok report, fs')
      ∧ report.built = [""] ∧ report.failed.length = 1
      ∧ ∀ name ∈ Builder.artifactFiles,
        fs'.textAt? ["dist", name]
          = (Steps.state ((brokenSite.builder .defaults).buildPage ""
              ⟨.directory [], []⟩)).textAt? ["dist", name] := by
  have hfound :
      brokenSite.discover ⟨.directory [], []⟩ = .ok ["", "blog/post"] :=
    congrArg Except.ok (by decide +kernel : brokenSite.paths = _)
  obtain ⟨report, fs', hrun, -, hbuilt, hfailed, htexts⟩ :=
    buildAll_isolated brokenSite .defaults ⟨.directory [], []⟩ hfound
      (by decide +kernel)
  refine ⟨report, fs', hrun, hbuilt.trans (by decide +kernel), ?_,
    fun name hname => ?_⟩
  · rw [← hfailed.length_eq]
    decide +kernel
  · have htext := htexts "" (.head _) name hname
    rw [FileSystem.placeOf_join (Builder.isFileName_of_mem hname)] at htext
    exact htext

/-- A site of two pages of plain text, the root and one below it. -/
def textSite : Registry :=
  let code : PageCode := fun scope => (.text "a", scope)
  (((Registry.empty.addPage "" code).addMetadata "" code).addPage "x"
    code).addMetadata "x" code

/-- Settings with a directory of all pages that is reached by way of another
one and up again. -/
def risingSettings : Settings :=
  { Settings.defaults with outputDir := "new/../old" }

/-- With a file in the place of that directory, the page below the root fails
alone since the file exists. Once the root was built, which makes the
directory to go up from, the reason is that the file is no directory. -/
theorem textSite_disagrees :
    textSite.discover ⟨.directory [("old", .file "t")], []⟩ = .ok ["", "x"]
      ∧ PagePath.IsPlain "x"
      ∧ (match (textSite.builder risingSettings).buildAll
          ⟨.directory [("old", .file "t")], []⟩ with
        | (.ok report, _) => report.failed
        | (.error _, _) => [])
        = [("", "failed to write new/../old: File exists (os error 17)"),
          ("x", "failed to write new/../old/x: Not a directory (os error 20)")]
      ∧ (match (textSite.builder risingSettings).buildPage "x"
          ⟨.directory [("old", .file "t")], []⟩ with
        | .ok _ _ => none
        | .error e _ => some e.message)
        = some "failed to write new/../old/x: File exists (os error 17)" := by
  refine ⟨congrArg Except.ok (by decide +kernel : textSite.paths = _), ?_, ?_,
    ?_⟩
  · decide +kernel
  · decide +kernel
  · decide +kernel

end Registry
end Prerender
