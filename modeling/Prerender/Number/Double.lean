/-
Double-precision numbers as their sixty-four bits. Every finite one is a whole
number of units of `2 ^ -1074`, so magnitude, comparison and rounding are
arithmetic on natural numbers, and equality of numbers is decidable.
`Number/Shortest` prints them and `Number/Reading` reads them.
-/
import Prerender.Number.Power

namespace Prerender

/-- A double-precision number: sign, eleven bits of exponent, fifty-two bits
of fraction. -/
structure Double where
  bits : UInt64
deriving DecidableEq, Inhabited

namespace Double

-- ============================================================== fields

/-- The sign bit. -/
def negative (d : Double) : Bool := decide (twoTo 63 ≤ d.bits.toNat)

/-- The exponent field. -/
def biased (d : Double) : Nat := d.bits.toNat / twoTo 52 % twoTo 11

/-- The fraction field. -/
def fraction (d : Double) : Nat := d.bits.toNat % twoTo 52

/-- Whether the number is neither infinite nor undefined. -/
def isFinite (d : Double) : Bool := decide (d.biased < 2047)

/-- Whether the value is undefined. -/
def isNaN (d : Double) : Bool := !d.isFinite && d.fraction != 0

/-- Whether the value is zero, of either sign. -/
def isZero (d : Double) : Bool := d.biased == 0 && d.fraction == 0

/-- The distance between neighbours around `d` is `2 ^ spread` units. -/
def spread (d : Double) : Nat := d.biased - 1

/-- The magnitude of a finite number in units of `2 ^ -1074`. -/
def units (d : Double) : Nat :=
  (if d.biased = 0 then d.fraction else twoTo 52 + d.fraction) * twoTo d.spread

/-- How many units make one. -/
def one : Nat := twoTo 1074

/-- Equality of values: the two zeros are equal, and an undefined value equals
nothing. -/
def sameValue (a b : Double) : Bool :=
  !a.isNaN && !b.isNaN && (decide (a = b) || a.isZero && b.isZero)

-- ============================================================ rounding

/-- The whole number nearest to `num / den`; of two equally near, the even
one. -/
def roundRatio (num den : Nat) : Nat :=
  let q := num / den
  let r := num % den
  if 2 * r < den then q else if den < 2 * r then q + 1 else q + q % 2

/-- The magnitude bits of infinity. -/
def infinityBits : Nat := 2047 * twoTo 52

/-- The number with the given sign and magnitude bits. -/
def ofMagnitude (negative : Bool) (magnitude : Nat) : Double :=
  ⟨UInt64.ofNat ((if negative then twoTo 63 else 0) + magnitude)⟩

/-- The number nearest to `num / den`, a half going to the even neighbour;
infinity beyond the largest finite number. The exponent field is the spread
and the rounded significand carries into it, so that rounding up to the next
power of two needs no case of its own. -/
def nearest (negative : Bool) (num den : Nat) : Double :=
  let scaled := num * one
  let spread := (scaled / den).log2 - 52
  let significand := roundRatio scaled (den * twoTo spread)
  ofMagnitude negative (min (spread * twoTo 52 + significand) infinityBits)

/-- The number nearest to a whole number. -/
def ofInt (n : Int) : Double :=
  nearest (decide (n < 0)) n.natAbs 1

/-- The number nearest to `digits · 10 ^ exponent`. Exponents far outside the
range are answered without computing the power. -/
def ofDecimal (negative : Bool) (digits : Nat) (exponent : Int) : Double :=
  let places := (Nat.toDigits 10 digits).length
  if digits = 0 then ofMagnitude negative 0
  else if 400 < exponent + places then ofMagnitude negative infinityBits
  else if exponent + places < -400 then ofMagnitude negative 0
  else nearest negative (digits * tenTo exponent.toNat)
    (tenTo (-exponent).toNat)

/-- Positive or negative infinity. -/
def infinity (negative : Bool) : Double := ofMagnitude negative infinityBits

/-- An undefined value. -/
def nan : Double := ofMagnitude false (infinityBits + twoTo 51)

end Double
end Prerender
