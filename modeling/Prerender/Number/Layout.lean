/-
How the digits of a number are laid out as text: with a point in place, or
with a power of ten. What an output format decides is one `Layout` value; the
two formats of this library, data and markup, are given where they are written
(`Json/Printer`, `Html/Renderer`).
-/
import Prerender.Number.Shortest

namespace Prerender.Double

/-- The decisions of a number format. -/
structure Layout where
  /-- Which of two equally near shortest decimals is written. -/
  tie : Tie
  /-- The decimal exponents written without a power of ten; all of them if
  absent. -/
  positional : Option (Int × Int)
  /-- Whether a whole number still gets a point and a zero. -/
  wholePoint : Bool

/-- The digits with the point after the first `point` of them, padded with
zeros as needed. -/
def positionalText (wholePoint : Bool) (digits : List Char) (point : Int) :
    List Char :=
  if point ≤ 0 then '0' :: '.' :: (List.replicate (-point).toNat '0' ++ digits)
  else if point < digits.length then
    digits.take point.toNat ++ '.' :: digits.drop point.toNat
  else
    digits ++ List.replicate (point.toNat - digits.length) '0'
      ++ if wholePoint then ['.', '0'] else []

/-- The digits with the point after the first, and the power of ten with its
sign. -/
def exponentialText (digits : List Char) (exponent : Int) : List Char :=
  let significand :=
    match digits with
    | [] => []
    | [d] => [d]
    | d :: rest => d :: '.' :: rest
  significand ++ 'e' :: (if exponent < 0 then '-' else '+')
    :: Nat.toDigits 10 exponent.natAbs

/-- The text of a finite number. -/
def Layout.text (layout : Layout) (d : Double) : String :=
  let decimal := d.shortest layout.tie
  let point := decimal.exponent + decimal.digits.length
  let inPlace :=
    match layout.positional with
    | none => true
    | some (least, greatest) => least ≤ point - 1 && point - 1 ≤ greatest
  String.ofList <|
    (if d.negative then ['-'] else [])
      ++ if inPlace then positionalText layout.wholePoint decimal.digits point
         else exponentialText decimal.digits (point - 1)

end Prerender.Double
