/-
Attributes of the document: what is shown of an option value.
-/
import Prerender.Html.Escape
import Prerender.Json.Printer
import Prerender.Reactive.Value

namespace Prerender.Html

/-- The attributes that mean something by being there at all. -/
def booleanAttributes : List String :=
  ["allowfullscreen", "async", "autofocus", "autoplay", "checked", "controls",
    "default", "defer", "disabled", "formnovalidate", "hidden", "inert",
    "ismap", "loop", "multiple", "muted", "nomodule", "novalidate", "open",
    "readonly", "required", "reversed", "selected"]

/-- What the document shows of an option. -/
inductive Shown where
  | nothing
  /-- The name alone. -/
  | bare
  /-- The name with a value. -/
  | valued (text : String)
deriving DecidableEq

/-- Whether a text stands for a false value. -/
def isFalsy (text : String) : Bool := text = "" || text = "false" || text = "0"

/-- A value as the document shows it, which for an attribute that means
something by being there is not at all if the text stands for a false value. -/
def shownText (name text : String) : Shown :=
  if booleanAttributes.contains name && isFalsy text then .nothing
    else .valued text

/-- What the document shows of the option `name` with the given value. A
reactive value that was not resolved shows nothing. -/
def shown (name : String) : OptionValue → Shown
  | .reactive _ => .nothing
  | .literal .null => .nothing
  | .literal (.bool false) => .nothing
  | .literal (.bool true) => .bare
  | .literal (.str s) => shownText name s
  | .literal value => shownText name value.compact

/-- The text of one attribute, a blank in front. -/
def attributeText (name : String) (value : OptionValue) : String :=
  match shown name value with
  | .nothing => ""
  | .bare => " " ++ name
  | .valued text => " " ++ name ++ "=\x22" ++ escape text ++ "\x22"

/-- The text of all attributes in order. -/
def attributesText : List (String × OptionValue) → String
  | [] => ""
  | (name, value) :: rest => attributeText name value ++ attributesText rest

end Prerender.Html
