/-
Keys of bind groups and how client code writes them: whole numbers and
identifiers stand for themselves, every other key is quoted.
-/
import Prerender.Json.Quoted

namespace Prerender

/-- The key of a bind group. -/
structure GroupKey where
  text : String
deriving DecidableEq, Inhabited

namespace GroupKey

/-- The key that a number stands for. -/
def ofNat (n : Nat) : GroupKey := ⟨toString n⟩

/-- Whether a character may begin an identifier of client code. -/
def startsIdentifier (c : Char) : Bool := c.isAlpha || c == '_' || c == '$'

/-- Whether a character may stand further on in an identifier of client code. -/
def continuesIdentifier (c : Char) : Bool :=
  c.isAlphanum || c == '_' || c == '$'

/-- Whether the key may stand in client code as it is: digits only, or an
identifier. -/
def isVerbatim (key : GroupKey) : Bool :=
  match key.text.toList with
  | [] => false
  | c :: rest =>
      if c.isDigit then rest.all Char.isDigit
      else startsIdentifier c && rest.all continuesIdentifier

/-- The key as client code writes it, as a label or as a value. -/
def label (key : GroupKey) : String :=
  if key.isVerbatim then key.text else Json.quoted key.text

end GroupKey
end Prerender
