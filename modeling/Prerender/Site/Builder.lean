/-
Building pages. For each page its code is run in a new scope and its trees are
resolved in a new pass; then the document, or the tree as data, and the
payload are written. What was written before an error stays. Pages are built
one after the other, and one that fails does not stop the others.
-/
import Prerender.Html.Document
import Prerender.Payload.Script
import Prerender.Resolve.Tree
import Prerender.Script.Minify
import Prerender.Settings.Basic
import Prerender.Site.Registry

namespace Prerender

/-- Why a collaborator failed, the outermost reason first. -/
abbrev Reasons := List String

/-- The reasons in one line. -/
def Reasons.text (reasons : Reasons) : String := ": ".intercalate reasons

/-- What pages are built with. -/
structure Builder where
  loader : Loader
  /-- Turns client code into the code that is written. -/
  transform : String → Script.Options → Except Reasons String
  /-- Turns a tree into HTML, given where the sources of the page are. -/
  render : Node → OsText → Except Reasons String
  /-- Makes the opening part of a document. -/
  template : Html.HeadContext → Except Reasons String
  settings : Settings

/-- A step of a build. After an error the files are what they were when the
error arose. -/
abbrev Build (α : Type) := EStateM BuildError FileSystem α

/-- Whether clients have to load the whole page anew; the pages built together
decide together. -/
structure BuildResult where
  reloads : Bool
deriving DecidableEq

/-- A result together with that of another page. -/
def BuildResult.merge (a b : BuildResult) : BuildResult :=
  ⟨a.reloads || b.reloads⟩

/-- What became of the pages of a build. -/
structure BuildReport where
  result : BuildResult
  /-- The pages that were built, in order. -/
  built : List String
  /-- The pages that failed, in order, and why. -/
  failed : List (String × String)

/-- Whether every page was built. -/
def BuildReport.isSuccess (report : BuildReport) : Bool := report.failed.isEmpty

namespace Builder

-- ======================================================= collaborators

/-- Client code as it is, but for minification where it is asked for. -/
def plainTransform (source : String) (options : Script.Options) :
    Except Reasons String :=
  .ok (if options.minify then Script.minify source else source)

/-- The static HTML of a tree. -/
def plainRender (tree : Node) (_location : OsText) : Except Reasons String :=
  .ok (Html.render tree)

/-- The opening of a document that loads the client from the given address. -/
def plainTemplate (clientScript : String) (context : Html.HeadContext) :
    Except Reasons String :=
  .ok (Html.openDocument clientScript context)

/-- A builder that leaves code, markup and documents to this library. -/
def standard (loader : Loader) (settings : Settings) : Builder where
  loader := loader
  transform := plainTransform
  render := plainRender
  template := plainTemplate settings.clientScript
  settings := settings

-- ============================================================== output

/-- The file of a document. -/
def documentFile : String := "index.html"

/-- The file of a tree as data. -/
def treeFile : String := "page.json"

/-- Does something to files; if it fails, the error names the given path. -/
def onFiles (path : OsText) (step : FileStep PUnit) : Build PUnit := fun fs =>
  match step fs with
  | .ok a fs => .ok a fs
  | .error e fs => .error (.unwritten path e) fs

/-- Writes a file into a directory, which is made if it is missing. -/
def writeArtifact (dir name : OsText) (text : String) : Build PUnit := do
  onFiles dir (FileStep.makeDirectories dir)
  let path := Files.Path.join dir name
  onFiles path (FileStep.writeText path text)

-- =============================================================== pages

/-- The directory that a page is written to. -/
def outputDir (builder : Builder) (path : String) : OsText :=
  if path.isEmpty then builder.settings.outputDir
  else Files.Path.join builder.settings.outputDir path

/-- The tree of a page resolved in a pass. -/
def resolveIn (page : String) (tree : Node) (pass : Pass) :
    Build (Node × Pass) :=
  match tree.resolve pass with
  | .ok tree pass => return (tree, pass)
  | .error e _ => throw (.unresolved page e)

/-- The result of a collaborator that renders. -/
def rendered (page : String) : Except Reasons String → Build String
  | .ok html => return html
  | .error reasons => throw (.unrendered page reasons.text)

/-- The result of a collaborator that transforms. -/
def transformed (page : String) : Except Reasons String → Build String
  | .ok code => return code
  | .error reasons => throw (.untransformed page reasons.text)

/-- The document of a page from its resolved trees. -/
def document (builder : Builder) (path : String) (tree metadata : Node) :
    Build String := do
  let location := Files.Path.join builder.settings.pagesDir path
  let head ← rendered path (builder.render (Html.headContent metadata) location)
  let body ← rendered path (builder.render (Html.bodyElement tree) location)
  let opening ← rendered path (builder.template ⟨PagePath.url path, head, true⟩)
  return opening ++ body ++ Html.documentEnd

/-- Writes the document of a page, or its tree as data. The metadata runs and
is resolved after the page, so what it adds to scope and pass comes last; as
data it is not needed and does not run. -/
def writeTree (builder : Builder) (path : String) (loaded : LoadedPage)
    (tree : Node) (scope : Scope) (pass : Pass) : Build (Scope × Pass) := do
  let dir := builder.outputDir path
  if builder.settings.writesHtml then
    let (metadata, scope) := loaded.metadata scope
    let (metadata, pass) ← resolveIn path metadata pass
    writeArtifact dir documentFile (← builder.document path tree metadata)
    return (scope, pass)
  else
    writeArtifact dir treeFile tree.toJson.pretty
    return (scope, pass)

/-- Writes the payload of a page. -/
def writePayload (builder : Builder) (path : String) (scope : Scope)
    (pass : Pass) :
    Build BuildResult := do
  let payload :=
    Payload.ofPage (PagePath.url path) scope.cells pass.bindings scope.hooks
  let code ← transformed path
    (builder.transform payload.code builder.settings.scriptOptions)
  writeArtifact (builder.outputDir path) Html.payloadFile code
  return ⟨payload.needsReload⟩

/-- The page loaded in a new scope. -/
def loadPage (builder : Builder) (path : String) : Build (LoadedPage × Scope) :=
  match builder.loader.load path .empty with
  | .ok loaded => return loaded
  | .error e => throw e

/-- Builds a page. -/
def buildPage (builder : Builder) (path : String) : Build BuildResult := do
  let (loaded, scope) ← builder.loadPage path
  let (tree, pass) ← resolveIn path loaded.tree .fresh
  let (scope, pass) ← builder.writeTree path loaded tree scope pass
  builder.writePayload path scope pass

-- =============================================================== sites

/-- Builds pages one after the other and adds what becomes of them to a
report. -/
def buildPages (builder : Builder) (report : BuildReport) (fs : FileSystem) :
    List String → BuildReport × FileSystem
  | [] => (report, fs)
  | page :: rest =>
      match builder.buildPage page fs with
      | .ok result fs =>
          builder.buildPages
            { report with
              result := report.result.merge result, built :=
                report.built ++ [page] }
            fs rest
      | .error e fs =>
          builder.buildPages { report with failed :=
            report.failed ++ [(page, e.message)] } fs rest

/-- Builds every page that is discovered. -/
def buildAll (builder : Builder) (fs : FileSystem) :
    Except BuildError BuildReport × FileSystem :=
  match builder.loader.discover fs with
  | .error e => (.error e, fs)
  | .ok pages =>
      let (report, fs) := builder.buildPages ⟨⟨false⟩, [], []⟩ fs pages
      (.ok report, fs)

end Builder
end Prerender
