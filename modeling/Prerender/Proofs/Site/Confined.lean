/-
Where a site is written.

What a registry stores is what the paths are stored as that code was
registered under, in whatever order and under whatever spellings
(`Registry.MadeWith.mem_paths_iff`). A page whose stored path is
relative and has no part that leads up is written below the directory of
all pages (`Builder.below_of_relative`), and no file is touched but
those of pages that were discovered (`Builder.placesOf_of_changed`).

`Registry.buildAll_confined` puts these together for paths without a
part that leads up. A path that begins, behind slashes, with a backslash
is stored as an absolute one, since the slashes are taken off before
backslashes become slashes. Then its page is written to where that leads
from the root, and the directory of all pages has no say in it
(`Builder.outputDir_of_absolute`). Both cases are told from the path as
it was registered.

Places and not paths are compared: to be below a directory is to be
reached from its place by names, whichever way the path that was written
to went.
-/
import Prerender.Proofs.Site.PagePath
import Prerender.Proofs.Site.Remains

namespace Prerender

open Files
open Files.Place (walk)

-- ============================================================ registering

namespace Registry

variable {registry : Registry} {given : List String} {page : String}

/-- How registries are made: code of pages and of metadata is registered under
paths, in any order. -/
inductive MadeWith : List String → Registry → Prop where
  | empty : MadeWith [] .empty
  | addPage {given : List String} {registry : Registry}
      (h : MadeWith given registry) (path : String)
      (code : PageCode) : MadeWith (path :: given) (registry.addPage path code)
  | addMetadata {given : List String} {registry : Registry}
      (h : MadeWith given registry)
      (path : String) (code : PageCode) :
      MadeWith (path :: given) (registry.addMetadata path code)
  | withPagesDir {given : List String} {registry : Registry}
      (h : MadeWith given registry)
      (dir : OsText) :
      MadeWith given (registry.withPagesDir dir)

/-- Registering code stores its path, if it was not stored before. -/
theorem mem_paths_modify (registry : Registry) (path : String)
    (change : Exports → Exports) :
    page ∈ (registry.modify path change).paths
      ↔ page = PagePath.stored path ∨ page ∈ registry.paths :=
        Sorted.mem_keys_insert

/-- The stored paths are those of the paths that code was registered under. -/
theorem MadeWith.mem_paths_iff (made : MadeWith given registry) :
    page ∈ registry.paths ↔ ∃ path ∈ given, page = PagePath.stored path := by
  induction made with
  | empty => exact iff_of_false List.not_mem_nil nofun
  | addPage h path code ih =>
      rw [Registry.addPage, mem_paths_modify, ih]
      simp only [List.mem_cons, exists_eq_or_imp]
  | addMetadata h path code ih =>
      rw [Registry.addMetadata, mem_paths_modify, ih]
      simp only [List.mem_cons, exists_eq_or_imp]
  | withPagesDir h dir ih => exact ih

end Registry

-- ============================================================== confined

/-- Whether a place is below the one that a path leads to. -/
def FileSystem.Below (fs : FileSystem) (dir : OsText) (place : Place) : Prop :=
  ∃ names, names ≠ [] ∧ place = fs.placeOf dir ++ names

namespace Builder

variable {page : String} {name : OsText}

/-- A page is written below the directory of all pages if its path is relative
and leads nowhere up. -/
theorem below_of_relative (builder : Builder) (fs : FileSystem)
    (relative : Path.isAbsolute page = false)
    (down : (".." : OsText) ∉ Path.parts page) (named : Path.IsFileName name) :
    fs.Below builder.settings.outputDir
      (fs.placeOf (Path.join (builder.outputDir page) name)) := by
  have hdown : ∀ part ∈ Path.parts page, part ≠ ".." := by
    intro part hmem heq
    exact down (heq ▸ hmem)
  -- without a part that leads up, the way of the page only adds names to the
  -- place of that directory
  obtain ⟨names, hnames⟩ :=
    Place.prefix_walk hdown (fs.placeOf builder.settings.outputDir)
  refine ⟨names ++ [name], List.append_ne_nil_of_right_ne_nil names
    (List.cons_ne_nil name []), ?_⟩
  rw [FileSystem.placeOf_join named, placeOf_outputDir builder relative,
    ← hnames, List.append_assoc]

/-- The directory of all pages has no say in where a page with an absolute
path is written. -/
theorem outputDir_of_absolute (builder : Builder)
    (absolute : Path.isAbsolute page = true) :
    builder.outputDir page = page := by
  have hne : page.isEmpty = false := by
    rw [String.isEmpty_eq_false_iff]
    rintro rfl
    cases absolute
  rw [outputDir, hne, if_neg Bool.false_ne_true, Path.join, absolute,
    Bool.true_or, if_pos rfl]

/-- A file that differs after a build is one of a page that was discovered. -/
theorem placesOf_of_changed {builder : Builder} {fs : FileSystem}
    {place : Place}
    (h : (builder.buildAll fs).2.textAt? place ≠ fs.textAt? place) :
    ∃ pages, builder.loader.discover fs = .ok pages
      ∧ builder.PlacesOf fs pages place := by
  rw [buildAll] at h
  cases hfound : builder.loader.discover fs with
  | error e =>
      rw [hfound] at h
      exact absurd rfl h
  | ok pages =>
      rw [hfound] at h
      refine ⟨pages, rfl, ?_⟩
      by_contra hother
      exact h ((buildPages_remains builder rfl _).sameTexts place hother)

end Builder

namespace Registry

/-- The pages of a registry are under what the paths are stored as that code
was registered under, with `/` for every separator. A path is stored as it
should be exactly if, without the slashes at its ends, it neither begins nor
ends with a backslash. If it does not begin with one, both files of its page
are below the directory of all pages; if it does, the page is written to where
its stored path leads from the root, whatever that directory is. Every file
that differs after a build is one of these files. -/
theorem buildAll_confined {registry : Registry} {given : List String}
    (made : MadeWith given registry)
    (down : ∀ path ∈ given,
      (".." : OsText) ∉ Path.parts (PagePath.slashed path)) :
    (∀ page, page ∈ registry.paths
      ↔ ∃ path ∈ given, page = PagePath.stored path)
      ∧ (∀ path ∈ given, '\x5c' ∉ (PagePath.stored path).toList
        ∧ (PagePath.IsTidy (PagePath.stored path)
          ↔ (PagePath.bare path).head? ≠ some '\x5c'
            ∧ (PagePath.bare path).getLast? ≠ some '\x5c'))
      ∧ ∀ (builder : Builder) (fs : FileSystem),
        builder.loader = registry.loader →
        (∀ place, (builder.buildAll fs).2.textAt? place ≠ fs.textAt? place →
          ∃ path ∈ given, ∃ name ∈ builder.pageFiles,
            place = fs.placeOf
              (Path.join (builder.outputDir (PagePath.stored path)) name))
        ∧ ∀ path ∈ given,
          ((PagePath.bare path).head? ≠ some '\x5c' →
            ∀ name ∈ builder.pageFiles, fs.Below builder.settings.outputDir
              (fs.placeOf (Path.join
                (builder.outputDir (PagePath.stored path)) name)))
          ∧ ((PagePath.bare path).head? = some '\x5c' →
            Path.isAbsolute (PagePath.stored path) = true
              ∧ builder.outputDir (PagePath.stored path)
                = PagePath.stored path) := by
  refine ⟨fun page => made.mem_paths_iff, fun path _ => ?_,
    fun builder fs hloader => ⟨?_, ?_⟩⟩
  · exact ⟨PagePath.not_mem_stored path, PagePath.isTidy_stored_iff path⟩
  · -- what is built was discovered, so it is stored, so it was registered
    intro place hchanged
    obtain ⟨pages, hfound, page, hpage, name, hname, hplace⟩ :=
      Builder.placesOf_of_changed hchanged
    rw [hloader] at hfound
    obtain ⟨path, hpath, rfl⟩ :=
      made.mem_paths_iff.1 ((discover_sublist hfound).subset hpage)
    exact ⟨path, hpath, name, hname, hplace⟩
  · intro path hpath
    rw [Ne, ← PagePath.isAbsolute_stored]
    refine ⟨fun hrelative name hname => ?_, fun habsolute => ?_⟩
    · refine builder.below_of_relative fs (Bool.eq_false_iff.2 hrelative) ?_
        (Builder.isFileName_of_mem (Builder.artifact_of_mem hname))
      rw [PagePath.parts_stored]
      exact down path hpath
    · exact ⟨habsolute, builder.outputDir_of_absolute habsolute⟩

/-- A site of one page of plain text, its two parts registered under different
spellings of its path. -/
def spelledSite : Registry :=
  let code : PageCode := fun scope => (.text "a", scope)
  (Registry.empty.addPage "blog\x5cpost/" code).addMetadata "/blog/post" code

/-- It has one page, which is written below the directory of all pages
whatever files there are. -/
theorem spelledSite_confined :
    spelledSite.paths = ["blog/post"]
      ∧ PagePath.IsTidy (PagePath.stored "blog\x5cpost/")
      ∧ ∀ (fs : FileSystem) place,
        ((Builder.standard spelledSite.loader .defaults).buildAll fs).2.textAt?
          place ≠ fs.textAt? place →
        fs.Below "dist" place := by
  have hmade : MadeWith ["/blog/post", "blog\x5cpost/"] spelledSite :=
    (MadeWith.empty.addPage _ _).addMetadata _ _
  obtain ⟨-, hstored, hbuilds⟩ := buildAll_confined hmade (by decide +kernel)
  have hfront : ∀ path ∈ ["/blog/post", "blog\x5cpost/"],
      (PagePath.bare path).head? ≠ some '\x5c' := by decide +kernel
  refine ⟨by decide +kernel, (hstored _ (.tail _ (.head _))).2.2 ?_,
    fun fs place hchanged => ?_⟩
  · decide +kernel
  · obtain ⟨hfiles, hplaces⟩ :=
      hbuilds (.standard spelledSite.loader .defaults) fs rfl
    obtain ⟨path, hpath, name, hname, rfl⟩ := hfiles place hchanged
    exact (hplaces path hpath).1 (hfront path hpath) name hname

/-- A site of one page of plain text, registered under a path with a backslash
in front. -/
def rootedSite : Registry :=
  let code : PageCode := fun scope => (.text "a", scope)
  (Registry.empty.addPage "\x5cx" code).addMetadata "\x5cx" code

/-- Its path does not lead up, but it is stored with a `/` in front, which a
second registration would strip. A build from the directory `w` writes the
page to the root and not below `w/dist`. -/
theorem rootedSite_escapes : let fs : FileSystem :=
  ⟨.directory [("w", .directory [])], ["w"]⟩
    MadeWith ["\x5cx", "\x5cx"] rootedSite
      ∧ (".." : OsText) ∉ Path.parts (PagePath.slashed "\x5cx")
      ∧ rootedSite.paths = ["/x"] ∧ PagePath.stored "/x" = "x"
      ∧ (((Builder.standard rootedSite.loader .defaults).buildAll fs).2.textAt?
        ["x", "index.html"]).isSome
      ∧ fs.textAt? ["x", "index.html"] = none
      ∧ ¬ fs.Below Settings.defaults.outputDir ["x", "index.html"] := by
  intro fs
  refine ⟨(MadeWith.empty.addPage _ _).addMetadata _ _, ?_, ?_, ?_, ?_, ?_, ?_⟩
  · decide +kernel
  · decide +kernel
  · decide +kernel
  · decide +kernel
  · decide +kernel
  · -- what is below the directory of all pages begins with `w`
    rintro ⟨names, -, hplace⟩
    have hdist : fs.placeOf Settings.defaults.outputDir = ["w", "dist"] := by
      decide +kernel
    rw [hdist] at hplace
    exact absurd (List.cons.inj hplace).1 (by decide)

end Registry
end Prerender
