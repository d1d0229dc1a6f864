/-
Paths of pages. Page code may write either separator; a stored path has `/`
between its parts. The address of a page is its stored path behind a `/`.
-/
import Prerender.Text.Blank

namespace Prerender.PagePath

/-- The path as a registry stores it: no `/` at either end, and then every
backslash turned into `/`. -/
def stored (path : String) : String :=
  String.ofList <|
    (Text.stripChars (· == '/') path.toList).map fun c =>
      if c = '\x5c' then '/' else c

/-- The address of the page on the client. -/
def url (path : String) : String := "/" ++ stored path

end Prerender.PagePath
