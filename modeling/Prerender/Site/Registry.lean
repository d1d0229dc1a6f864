/-
The pages of a site. Page code makes a tree and may leave cells and hooks in
the scope that it runs in. A registry holds the code of each page under its
stored path, in ascending order of the paths.
-/
import Prerender.Reactive.Scope
import Prerender.Site.Discovery
import Prerender.Site.PagePath
import Prerender.Tree.Node

namespace Prerender

/-- Code that makes a tree. -/
abbrev PageCode := Scope → Node × Scope

/-- What a page consists of: the code of its tree and that of its metadata. -/
structure Exports where
  page : Option PageCode
  metadata : Option PageCode

/-- Nothing at all. -/
def Exports.none : Exports := ⟨Option.none, Option.none⟩

/-- A page whose tree was made. -/
structure LoadedPage where
  tree : Node
  metadata : PageCode

/-- Where pages come from: which there are, and what each of them is. Loading
runs the code of the page tree in a scope. -/
structure Loader where
  discover : FileSystem → Except BuildError (List String)
  load : String → Scope → Except BuildError (LoadedPage × Scope)

/-- The pages of a site by their stored paths. -/
structure Registry where
  pages : List (String × Exports)
  ascending : Ascending pages
  /-- The directory that discovery compares with, if it does. -/
  pagesDir : Option OsText

namespace Registry

/-- The registry without pages. -/
def empty : Registry := ⟨[], List.Pairwise.nil, none⟩

/-- The exports of the page stored under a path. -/
def exports (registry : Registry) (path : String) : Exports :=
  (registry.pages.lookup path).getD Exports.none

/-- Changes the exports of the page with a path. -/
def modify (registry : Registry) (path : String) (change : Exports → Exports) :
    Registry :=
  let key := PagePath.stored path
  ⟨Sorted.insert key (change (registry.exports key)) registry.pages,
    Sorted.ascending_insert registry.ascending, registry.pagesDir⟩

/-- Registers the code of a page tree. -/
def addPage (registry : Registry) (path : String) (code : PageCode) :
    Registry :=
  registry.modify path fun exports => { exports with page := some code }

/-- Registers the code of the metadata of a page. -/
def addMetadata (registry : Registry) (path : String) (code : PageCode) :
    Registry :=
  registry.modify path fun exports => { exports with metadata := some code }

/-- Restricts discovery to pages that are found below a directory. -/
def withPagesDir (registry : Registry) (dir : OsText) : Registry :=
  { registry with pagesDir := some dir }

/-- The stored paths of the pages, in ascending order. -/
def paths (registry : Registry) : List String := registry.pages.map Prod.fst

/-- The paths of the pages to build, in ascending order. -/
def discover (registry : Registry) (fs : FileSystem) :
    Except BuildError (List String) :=
  match registry.pagesDir with
  | none => .ok registry.paths
  | some dir => do
      let found ← Discovery.pageDirs fs dir
      return registry.paths.filter fun path => found.contains path

/-- Loads the page stored under a path, as it is written. A missing tree is
noticed before missing metadata, and code runs only when both are there. -/
def load (registry : Registry) (path : String) (scope : Scope) :
    Except BuildError (LoadedPage × Scope) :=
  match registry.exports path with
  | ⟨none, _⟩ => .error (.noPage path)
  | ⟨some _, none⟩ => .error (.noMetadata path)
  | ⟨some page, some metadata⟩ =>
      let (tree, scope) := page scope
      .ok (⟨tree, metadata⟩, scope)

/-- The registry as a source of pages. -/
def loader (registry : Registry) : Loader := ⟨registry.discover, registry.load⟩

end Registry
end Prerender
