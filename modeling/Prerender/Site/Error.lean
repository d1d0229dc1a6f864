/-
What can go wrong while pages are built. All but a failed discovery concern
one page.
-/
import Prerender.Files.System
import Prerender.Resolve.Pass

namespace Prerender

/-- Why a page, or the whole build, fails. -/
inductive BuildError where
  /-- The page has no metadata function. -/
  | noMetadata (page : String)
  /-- The page has no page tree. -/
  | noPage (page : String)
  /-- A tree of the page cannot be resolved. -/
  | unresolved (page : String) (e : OptionError)
  /-- The transformer of client code failed. -/
  | untransformed (page reason : String)
  /-- The renderer or the template failed. -/
  | unrendered (page reason : String)
  /-- The pages cannot be found; none was built. -/
  | undiscovered (reason : String)
  /-- A file or directory cannot be written. -/
  | unwritten (path : OsText) (e : Files.FileError)

namespace BuildError

/-- The text of the error. -/
def message : BuildError → String
  | noMetadata page =>
      "page '" ++ page ++ "' does not export a metadata function"
  | noPage page => "page '" ++ page ++ "' does not export a page element"
  | unresolved page e => "failed to process elements of page '" ++ page ++ "': "
      ++ e.message
  | untransformed page reason =>
      "failed to transform hydration script of page '" ++ page
        ++ "': " ++ reason
  | unrendered page reason => "failed to render page '" ++ page
      ++ "': " ++ reason
  | undiscovered reason => "failed to discover pages: " ++ reason
  | unwritten path e => "failed to write " ++ path.lossy ++ ": " ++ e.message

/-- The page that the error names. -/
def page? : BuildError → Option String
  | noMetadata page | noPage page | unresolved page _ | untransformed page _
      | unrendered page _ =>
      some page
  | undiscovered _ | unwritten _ _ => none

end BuildError
end Prerender
