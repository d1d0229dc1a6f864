/-
What a page build leaves of the files that were there, however it ends.

- A build that fails before its first write has touched nothing
  (`Builder.eq_of_error`).
- One whose transformer fails has left the first file of the page, and
  directories on the way to it (`Builder.adds_of_untransformed`).
- One that fails in a write may have left either.
- In any case no file is touched that is not one of the two of its page
  (`Builder.adds_buildPage`), and after success these two hold what the
  build made for them.

`Builder.buildPage_remains` says all of this of an arbitrary loader,
renderer and transformer, and of every place in the files. A reader of a
site may therefore look at it while it is built anew: what is not of the
page is as it was, though a page can have a new document and the payload
of an earlier build (`Builder.withoutCode_remains`).

The bounds are closed under steps in sequence (`Builder.closed_adds`),
so they are proved of one write and carried to the whole by
`Build.Closed.buildPage`. Nothing is asked of paths here; that different
pages have different files is the matter of `Footprint`.
-/
import Prerender.Proofs.Site.Footprint

namespace Prerender.Builder

open Files
open Files.Place (OnWay)
open FileSystem (Extends Keeps)

variable {base fs fs' : FileSystem} {builder : Builder} {path : String}

-- ========================================================= what is added

/-- Writing an artifact adds its file, and directories on the way to it. -/
theorem adds_writeArtifact {name : OsText} (named : Path.IsFileName name)
    (dir : OsText) (text : String) (fs : FileSystem) :
    Extends (· = fs.placeOf (Path.join dir name))
      (OnWay (fs.start dir) (Path.parts dir)) fs
      (Steps.state (writeArtifact dir name text fs)) := by
  rw [FileSystem.placeOf_join named]
  exact (extends_writeArtifact named (fun _ hway => hway) text).mono fun _
    hplace => hplace.1

/-- Steps that add files and directories at given places do so in sequence. -/
theorem closed_adds (base : FileSystem) (written made : Place → Prop) :
    Build.Closed fun step =>
      ∀ fs : FileSystem, fs.workingDirectory = base.workingDirectory →
        Extends written made fs (Steps.state (step fs)) :=
  Build.closed_of_preorder
    (fun fs fs' => fs.workingDirectory = base.workingDirectory →
      Extends written made fs fs')
    (fun fs _ => .refl written made fs)
    fun hfirst hrest home =>
    (hfirst home).trans (hrest ((hfirst home).workingDirectory.trans home))

/-- A page build adds the two files of the page, and directories on the way to
them. -/
theorem adds_buildPage (builder : Builder) (path : String) (fs : FileSystem) :
    Extends (fun place => ∃ name ∈ builder.pageFiles,
        place = fs.placeOf (Path.join (builder.outputDir path) name))
      (OnWay (fs.start (builder.outputDir path))
        (Path.parts (builder.outputDir path))) fs
      (Steps.state (builder.buildPage path fs)) := by
  refine (closed_adds fs _ _).buildPage
    (fun name hname text mid home => ?_) fs rfl
  have hadds := adds_writeArtifact (isFileName_of_mem (artifact_of_mem hname))
    (builder.outputDir path) text mid
  rw [placeOf_eq home, start_eq home] at hadds
  exact hadds.mono fun place hplace => ⟨name, hname, hplace⟩

/-- The places of the files of some pages. -/
def PlacesOf (builder : Builder) (base : FileSystem) (pages : List String)
    (place : Place) : Prop :=
  ∃ page ∈ pages, ∃ name ∈ builder.pageFiles,
    place = base.placeOf (Path.join (builder.outputDir page) name)

/-- Building pages leaves every file alone but those of the pages. -/
theorem buildPages_remains (builder : Builder) {pages : List String}
    (home : fs.workingDirectory = base.workingDirectory)
    (report : BuildReport) :
    Keeps (builder.PlacesOf base pages) fs
      (builder.buildPages report fs pages).2 := by
  induction pages generalizing report fs with
  | nil => exact .refl _ fs
  | cons page rest ih =>
      have hpage := (adds_buildPage builder page fs).toKeeps
      obtain ⟨report', hrun⟩ :=
        buildPages_cons_files builder report fs page rest
      rw [hrun]
      -- the working directory stays, so the places of later pages are those
      -- that `base` has for them
      refine (hpage.mono ?_).trans
        ((ih (hpage.workingDirectory.trans home) report').mono ?_)
      · rintro place ⟨name, hname, hplace⟩
        rw [placeOf_eq home] at hplace
        exact ⟨page, .head _, name, hname, hplace⟩
      · rintro place ⟨page', hmem, hfile⟩
        exact ⟨page', .tail _ hmem, hfile⟩

-- ============================================================== failures

/-- Where the transformer fails, only the first file was added. -/
theorem adds_of_untransformed {page reason : String}
    (h : builder.buildPage path fs = .error (.untransformed page reason) fs') :
    Extends
      (· = fs.placeOf (Path.join (builder.outputDir path) builder.firstFile))
      (OnWay (fs.start (builder.outputDir path))
        (Path.parts (builder.outputDir path))) fs fs' := by
  rcases buildPage_error h with
    ⟨-, rfl⟩ | ⟨text, scope, pass, -, hwrite | ⟨mid, hfirst, hrest⟩⟩
  · exact .refl _ _ _
  · obtain ⟨_, _, hreason⟩ := writeArtifact_error hwrite
    cases hreason
  · rcases hrest with ⟨reasons, -, -, rfl⟩ | ⟨code, -, hwrite⟩
    · have hadds := adds_writeArtifact (isFileName_of_mem builder.firstFile_mem)
        (builder.outputDir path) text fs
      rw [hfirst] at hadds
      exact hadds
    · obtain ⟨_, _, hreason⟩ := writeArtifact_error hwrite
      cases hreason

/-- Where neither a write fails nor the transformer, nothing was touched. -/
theorem eq_of_error {e : BuildError}
    (h : builder.buildPage path fs = .error e fs')
    (noWrite : ∀ path reason, e ≠ .unwritten path reason)
    (noCode : ∀ page reason, e ≠ .untransformed page reason) : fs' = fs := by
  rcases buildPage_error h with
    ⟨-, heq⟩ | ⟨text, scope, pass, -, hwrite | ⟨mid, -, hrest⟩⟩
  · exact heq
  · obtain ⟨path, reason, he⟩ := writeArtifact_error hwrite
    exact absurd he (noWrite path reason)
  · rcases hrest with ⟨reasons, -, he, -⟩ | ⟨code, -, hwrite⟩
    · exact absurd he (noCode path reasons.text)
    · obtain ⟨path, reason, he⟩ := writeArtifact_error hwrite
      exact absurd he (noWrite path reason)

-- ============================================================ all builds

/-- A page build that fails neither in a write nor in the transformer changes
nothing. Where the transformer fails, nothing differs but the first file of
the page and directories that were made on the way to it. In any case every
file but the two of the page is as before, and after success these two hold
what this build made for them. -/
theorem buildPage_remains (builder : Builder) (path : String)
    (fs : FileSystem) :
    (∀ e fs', builder.buildPage path fs = .error e fs' →
        (∀ path reason, e ≠ .unwritten path reason) →
        (∀ page reason, e ≠ .untransformed page reason) → fs' = fs)
      ∧ (∀ page reason fs',
        builder.buildPage path fs = .error (.untransformed page reason) fs' →
        Extends
          (· = fs.placeOf
            (Path.join (builder.outputDir path) builder.firstFile))
          (OnWay (fs.start (builder.outputDir path))
            (Path.parts (builder.outputDir path))) fs fs')
      ∧ (∀ place,
        place ≠ fs.placeOf
          (Path.join (builder.outputDir path) builder.firstFile) →
        place ≠ fs.placeOf
          (Path.join (builder.outputDir path) Html.payloadFile) →
        (Steps.state (builder.buildPage path fs)).textAt? place
          = fs.textAt? place)
      ∧ ∀ result fs', builder.buildPage path fs = .ok result fs' →
        ∃ text scope pass code,
          builder.prepare path fs = .ok (text, scope, pass) fs
          ∧ builder.Leaves path text scope pass code fs' := by
  refine ⟨fun e fs' => eq_of_error, fun page reason fs' =>
    adds_of_untransformed, fun place hfirst hpayload => ?_,
      fun result fs' h => ?_⟩
  · refine (adds_buildPage builder path fs).sameTexts place ?_
    rintro ⟨name, hname, hplace⟩
    rcases List.mem_cons.1 hname with rfl | hname
    · exact hfirst hplace
    · cases List.mem_singleton.1 hname
      exact hpayload hplace
  · obtain ⟨text, scope, pass, code, hprepare, hleaves, -⟩ := buildPage_ok h
    exact ⟨text, scope, pass, code, hprepare, hleaves⟩

/-- A builder of pages of plain text whose transformer always fails. -/
def withoutCode : Builder :=
  { standard ⟨fun _ => .ok [], fun _ scope =>
    .ok (⟨.text "a", fun scope => (.text "b", scope)⟩, scope)⟩
      .defaults with transform := fun _ _ => .error ["no code"] }

/-- It leaves a document, the payload of an earlier build, and no new file
elsewhere. -/
theorem withoutCode_remains :
    let fs : FileSystem :=
    ⟨.directory [("dist", .directory [("page_data.js", .file "old")])], []⟩
    let fs' := Steps.state (withoutCode.buildPage "" fs)
    withoutCode.buildPage "" fs = .error (.untransformed "" "no code") fs'
      ∧ (fs'.textAt? ["dist", "index.html"]).isSome
      ∧ fs'.textAt? ["dist", "page_data.js"] = some "old"
      ∧ ∀ place, place ≠ (["dist", "index.html"] : Place) →
        place ≠ (["dist", "page_data.js"] : Place) →
        fs'.textAt? place = fs.textAt? place := by
  intro fs fs'
  have hplace : ∀ name ∈ withoutCode.pageFiles,
      fs.placeOf (Path.join (withoutCode.outputDir "") name)
        = [OsText.ofText "dist", name] := by decide +kernel
  obtain ⟨-, huntransformed, hrest, -⟩ := buildPage_remains withoutCode "" fs
  have herror : withoutCode.buildPage "" fs
    = .error (.untransformed "" "no code") fs' := by rfl
  have hadds := huntransformed _ _ _ herror
  refine ⟨herror, by decide +kernel, ?_,
    fun place hfirst hpayload => hrest place ?_ ?_⟩
  · refine (hadds.sameTexts _ ?_).trans (by decide +kernel)
    rw [hplace _ (.head _)]
    decide +kernel
  · rw [hplace _ (.head _)]
    exact hfirst
  · rw [hplace _ (.tail _ (.head _))]
    exact hpayload

end Prerender.Builder
