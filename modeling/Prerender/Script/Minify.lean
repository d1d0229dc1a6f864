/-
Minification of client code that is known only as text: lines lose the blanks
at their ends and blank lines go. Line breaks stay, so that line comments and
statements without a semicolon mean what they meant.
-/
import Prerender.Text.Blank

namespace Prerender.Script

/-- The lines that minification keeps, trimmed. -/
def keptLines (cs : List Char) : List (List Char) :=
  ((Text.lines cs).map Text.trimChars).filter fun line => !line.isEmpty

/-- The minified characters. -/
def minifyChars (cs : List Char) : List Char :=
  Text.joinLines (keptLines cs)

/-- The minified text. -/
def minify (source : String) : String :=
  String.ofList (minifyChars source.toList)

end Prerender.Script
