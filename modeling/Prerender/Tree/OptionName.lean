/-
Names of options. Page code writes them in camel case; the document has them
in kebab case or, for reactive values, in small letters. Two names, in any
case, stand for the content of an element.
-/
import Prerender.Text.Case

namespace Prerender.OptionName

/-- Whether a hyphen belongs between two neighbouring letters: at a capital
that follows a small letter or a digit. -/
def breaksBetween (before c : Char) : Bool :=
  Text.isCapital c && (Text.isSmall before || before.isDigit)

/-- The kebab-case form of a name that continues after `before`. -/
def kebabAfter (before : Char) : List Char → List Char
  | [] => []
  | c :: rest =>
      (if breaksBetween before c then ['-'] else []) ++ Text.lowerChar c
        ++ kebabAfter c rest

/-- The kebab-case form of a name: `dataFoo` becomes `data-foo`. A name that
begins is in no word yet, so nothing can break in front of its first letter. -/
def kebab (name : String) : String :=
  String.ofList (kebabAfter '-' name.toList)

/-- The option that holds the key of an element. -/
def key : String := "key"

/-- The option that every reference is written to. -/
def reference : String := "ref"

/-- What an option does with the content of its element. -/
inductive Content where
  /-- Its value is the text of the element. -/
  | text
  /-- Its value is the markup of the element. -/
  | markup
deriving DecidableEq

/-- The content that a name stands for, if it is not the name of an
attribute. -/
def content? (name : String) : Option Content :=
  let lowered := Text.lowercase name
  if lowered = "innertext" then some .text
  else if lowered = "innerhtml" then some .markup
  else none

end Prerender.OptionName
