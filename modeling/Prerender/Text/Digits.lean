/-
Decimal digits and the whole number they denote.
-/
namespace Prerender.Text

/-- The value of a list of decimal digits. -/
def digitsValue (cs : List Char) : Nat :=
  cs.foldl (fun n c => 10 * n + (c.toNat - 48)) 0

/-- The whole number that a text of nothing but digits, and at least one,
denotes. -/
def natOfDigits? (cs : List Char) : Option Nat :=
  if cs.isEmpty || !cs.all Char.isDigit then none else some (digitsValue cs)

end Prerender.Text
