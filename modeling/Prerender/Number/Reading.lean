/-
Reading a decimal numeral: an optional sign, digits with at most one point
among them, and an optional power of ten; or one of the names of the values
that no digits denote.
-/
import Prerender.Number.Double
import Prerender.Text.Digits

namespace Prerender.Double

/-- A sign in front of a numeral, and what follows it. -/
def readSign : List Char → Bool × List Char
  | '-' :: rest => (true, rest)
  | '+' :: rest => (false, rest)
  | cs => (false, cs)

/-- The power of ten behind a numeral; nothing if the text is not a complete
one. -/
def readExponent : List Char → Option Int
  | [] => some 0
  | c :: rest =>
      if c = 'e' ∨ c = 'E' then
        let (negative, digits) := readSign rest
        (Text.natOfDigits? digits).map fun n =>
          if negative then -(n : Int) else n
      else none

/-- The number that unsigned digits denote, the point and the power of ten
being optional. -/
def readMagnitude (negative : Bool) (cs : List Char) : Option Double :=
  let whole := cs.takeWhile Char.isDigit
  let (places, rest) :=
    match cs.dropWhile Char.isDigit with
    | '.' :: more => (more.takeWhile Char.isDigit, more.dropWhile Char.isDigit)
    | more => ([], more)
  if whole ++ places = [] then none
  else (readExponent rest).map fun exponent =>
    ofDecimal negative (Text.digitsValue (whole ++ places))
      (exponent - places.length)

/-- The number nearest to the one that a numeral denotes. -/
def ofText? (s : String) : Option Double :=
  let (negative, body) := readSign s.toList
  let name := String.ofList (body.map Char.toLower)
  if name = "nan" then some nan
  else if name = "inf" ∨ name = "infinity" then some (infinity negative)
  else readMagnitude negative body

end Prerender.Double
