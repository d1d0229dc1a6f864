/-
The fewest decimal digits that read back as a given number. A double stands
for the interval of reals that round to it; on the grids of one, two, …
seventeen digits the value's two neighbours are tried, and the first grid with
a neighbour inside the interval gives the digits. All of it is exact
arithmetic in quarter units, so that the ends of the interval are whole.
-/
import Prerender.Number.Double
import Prerender.Text.Blank

namespace Prerender.Double

/-- Which of two equally near decimals is taken. -/
inductive Tie where
  | toEven
  | up
deriving DecidableEq

/-- The decimal `digits · 10 ^ exponent`, its digits written out. -/
structure Decimal where
  digits : List Char
  exponent : Int

/-- The number of decimal digits of `n`. -/
def digitCount (n : Nat) : Nat := (Nat.toDigits 10 n).length

/-- The power of ten just above the magnitude of a finite number other than
zero: `10 ^ (p - 1) ≤ |d| < 10 ^ p`. -/
def decimalMagnitude (d : Double) : Int :=
  if one ≤ d.units then digitCount (d.units / one)
  else 1 - (digitCount ((one - 1) / d.units) : Int)

/-- The interval of reals that round to a number, in quarter units. -/
structure Interval where
  low : Nat
  high : Nat
  /-- Whether the ends belong to it; they do when the significand is even. -/
  closed : Bool

/-- The interval of a finite number other than zero. Below a power of two the
neighbours are twice as dense, so the lower half of the interval is half as
long. -/
def interval (d : Double) : Interval where
  low := 4 * d.units - (if d.fraction = 0 ∧ 1 < d.biased then 1 else 2)
    * twoTo d.spread
  high := 4 * d.units + 2 * twoTo d.spread
  closed := d.fraction % 2 == 0

/-- Whether `point / scale` lies in the interval. -/
def Interval.holds (i : Interval) (scale point : Nat) : Bool :=
  if i.closed then decide (i.low * scale ≤ point) && decide
    (point ≤ i.high * scale)
  else decide (i.low * scale < point) && decide (point < i.high * scale)

/-- The multiple of `10 ^ k` nearest to `d` among those that read back as `d`,
divided by `10 ^ k`; nothing if neither neighbour reads back. -/
def onGrid (tie : Tie) (d : Double) (k : Int) : Option Nat :=
  let scale := tenTo (-k).toNat
  let step := tenTo k.toNat * (4 * one)
  let value := 4 * d.units * scale
  let below := value / step
  let rest := value % step
  let lowHits := d.interval.holds scale (below * step)
  let highHits := d.interval.holds scale ((below + 1) * step)
  if lowHits && highHits then
    if 2 * rest < step then some below
    else if step < 2 * rest then some (below + 1)
    else match tie with
      | .toEven => some (below + below % 2)
      | .up => some (below + 1)
  else if lowHits then some below
  else if highHits then some (below + 1)
  else none

/-- The decimal `n · 10 ^ k` without trailing zeros among its digits. -/
def Decimal.ofNat (n : Nat) (k : Int) : Decimal :=
  let written := Nat.toDigits 10 n
  let kept := Text.dropEndWhile (· == '0') written
  ⟨kept, k + (written.length - kept.length : Nat)⟩

/-- The first hit on the grids of `count`, `count + 1`, … digits, at most
`more` further ones. Seventeen digits always read back, so the last line is
never reached from `shortest`. -/
def shortestFrom (tie : Tie) (d : Double) (count : Nat) : Nat → Decimal
  | 0 => ⟨['0'], 0⟩
  | more + 1 =>
      let k := d.decimalMagnitude - count
      match onGrid tie d k with
      | some n => Decimal.ofNat n k
      | none => shortestFrom tie d (count + 1) more

/-- The fewest digits that read back as the magnitude of a finite number,
nearest to it among those. -/
def shortest (tie : Tie) (d : Double) : Decimal :=
  if d.isZero then ⟨['0'], 0⟩ else shortestFrom tie d 1 17

end Prerender.Double
