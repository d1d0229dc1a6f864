/-
The shortest digits read back.

Digits are looked for on grids, the coarsest first: on the grid of one
digit, of two, and so on, until a multiple of the step lies in the
interval of the number. Such a hit reads back by definition
(`holds_of_onGrid`). What has to be shown is that there is one by
seventeen digits.

The step of a grid is a power of ten, and the number is at least `10 ^
16` steps of the grid of seventeen digits (`decimalMagnitude_le`). A
significand is less than `2 ^ 53`, which is less than `10 ^ 16`; so the
step is less than the distance between neighbours. Then one of the two
multiples next to the number is at most half a step away, and with that
less than half-way to its neighbour (`neighbour_holds`). At a power of
two the interval is shorter below, but there the significand is no more
than `2 ^ 52`, the step is less than half of the distance, and the
multiple above will do.

In the second part the digits are seen to be within what the reader
takes: it gives up on powers of ten that are far too great or too small
for a double, and a decimal in the interval of a finite number is none
of these (`places_of_holdsDecimal`). The bounds are generous, so that
powers of two can be compared with powers of ten by `2 ^ 3 < 10` alone
(`twoTo_le_tenTo`).
-/
import Prerender.Proofs.Number.Digits
import Prerender.Proofs.Number.Rounding

namespace Prerender.Double

variable {d : Double} {tie : Tie} {n : Nat} {k : Int}

-- ============================================================= decimals

/-- Whether the decimal `n · 10 ^ k` lies in the interval. -/
def Interval.holdsDecimal (i : Interval) (n : Nat) (k : Int) : Bool :=
  i.holds (tenTo (-k).toNat) (n * (tenTo k.toNat * (4 * one)))

/-- Zeros at the end of the digits may go into the power. -/
theorem Interval.holdsDecimal_mul_tenTo (i : Interval) (n t : Nat) (k : Int) :
    i.holdsDecimal (n * tenTo t) k = i.holdsDecimal n (k + t) := by
  obtain ⟨a, hdown, hup⟩ : ∃ a, (-k).toNat = (-(k + t)).toNat + a
      ∧ t + k.toNat = (k + t).toNat + a :=
    ⟨(-k).toNat - (-(k + t)).toNat, by omega, by omega⟩
  unfold holdsDecimal
  generalize 4 * one = unit
  have hpoint :
      n * tenTo t * (tenTo k.toNat * unit)
        = n * (tenTo (k + t).toNat * unit) * tenTo a :=
    calc n * tenTo t * (tenTo k.toNat * unit)
        = n * (tenTo t * tenTo k.toNat * unit) := by simp only [Nat.mul_assoc]
      _ = n * (tenTo (k + t).toNat * tenTo a * unit) := by
        rw [← tenTo_add, hup, tenTo_add]
      _ = n * (tenTo (k + t).toNat * unit) * tenTo a := by
          rw [Nat.mul_right_comm (tenTo _), ← Nat.mul_assoc]
  rw [hpoint, hdown, tenTo_add, holds_mul (tenTo_pos a)]

-- ================================================================ grids

/-- The neighbour of a number on a grid that is not above it. -/
def below (d : Double) (k : Int) : Nat :=
  4 * d.units * tenTo (-k).toNat / (tenTo k.toNat * (4 * one))

/-- A hit is a neighbour, and reads back. -/
theorem holds_of_onGrid (h : onGrid tie d k = some n) :
    d.interval.holdsDecimal n k = true := by
  unfold onGrid at h
  unfold Interval.holdsDecimal
  simp only at h
  split at h
  · -- both neighbours are in the interval: the nearer one is taken, and of
    -- two that are equally near the one that the layout asks for
    next hboth =>
    rw [Bool.and_eq_true] at hboth
    split at h
    · cases h
      exact hboth.1
    · split at h
      · cases h
        exact hboth.2
      · cases tie with
        | toEven =>
            rcases Nat.mod_two_eq_zero_or_one (d.below k) with heven | hodd
            · rw [below] at heven
              rw [heven, Nat.add_zero] at h
              cases h
              exact hboth.1
            · rw [below] at hodd
              rw [hodd] at h
              cases h
              exact hboth.2
        | up =>
            cases h
            exact hboth.2
  · split at h
    · next hlow =>
      cases h
      exact hlow
    · split at h
      · next hhigh =>
        cases h
        exact hhigh
      · cases h

/-- On a grid of seventeen digits a neighbour of the number reads back. -/
theorem neighbour_holds (nonzero : d.isZero = false)
    (fine : tenTo 16 * (tenTo k.toNat * (4 * one))
      ≤ 4 * d.units * tenTo (-k).toNat) :
    d.interval.holdsDecimal (d.below k) k = true
      ∨ d.interval.holdsDecimal (d.below k + 1) k = true := by
  have hscale := tenTo_pos (-k).toNat
  have hgrid : 0 < tenTo k.toNat * (4 * one) :=
    Nat.mul_pos (tenTo_pos _) (Nat.mul_pos (by decide) one_pos)
  have hunits : 4 * d.units * tenTo (-k).toNat
      = 4 * (d.significand * (twoTo d.spread * tenTo (-k).toNat)) := by
    rw [units_eq, Nat.mul_assoc, Nat.mul_assoc]
  have hvalue := Nat.div_add_mod' (4 * d.units * tenTo (-k).toNat)
    (tenTo k.toNat * (4 * one))
  have hrest := Nat.mod_lt (4 * d.units * tenTo (-k).toNat) hgrid
  have hstep := Nat.mul_le_mul_right (twoTo d.spread * tenTo (-k).toNat)
    (Nat.le_of_lt d.significand_lt)
  unfold Interval.holdsDecimal
  rw [← below] at hvalue
  rw [hunits] at fine hvalue hrest
  generalize 4 * (d.significand * (twoTo d.spread * tenTo (-k).toNat))
    % (tenTo k.toNat * (4 * one)) = rest at hvalue hrest
  generalize tenTo k.toNat * (4 * one) = grid at *
  have hsucc := Nat.add_mul (d.below k) 1 grid
  rw [show tenTo 16 = 10000000000000000 from rfl] at fine
  rw [show twoTo 53 = 9007199254740992 from rfl] at hstep
  -- the interval goes half-way on both sides, and the nearer neighbour is in
  -- it
  by_cases hreach : d.reachDown = 2
  · by_cases hnear : 2 * rest ≤ grid
    · refine Or.inl (holds_of_near nonzero hscale ?_ ?_)
      · rw [hreach]
        omega
      · omega
    · refine Or.inr (holds_of_near nonzero hscale ?_ ?_)
      · rw [hreach]
        omega
      · omega
  · -- At a power of two there is room above.
    obtain ⟨hquarter, hpower⟩ := significand_of_reachDown hreach
    rw [show twoTo 52 = 4503599627370496 from rfl] at hpower
    rw [hpower] at fine hvalue
    refine Or.inr (holds_of_near nonzero hscale ?_ ?_)
    · rw [hquarter, hpower]
      omega
    · rw [hpower]
      omega

theorem onGrid_ne_none (nonzero : d.isZero = false)
    (fine : tenTo 16 * (tenTo k.toNat * (4 * one))
      ≤ 4 * d.units * tenTo (-k).toNat) :
    onGrid tie d k ≠ none := by
  intro h
  unfold onGrid at h
  simp only at h
  split at h
  · split at h
    · cases h
    · split at h
      · cases h
      · cases tie <;> cases h
  · split at h
    · cases h
    · next hlow =>
      split at h
      · cases h
      · next hhigh => exact (neighbour_holds nonzero fine).elim hlow hhigh

-- ========================================================== seventeen

/-- A whole number is at least the power of ten of its first digit. -/
theorem pow_digitCount_le {n : Nat} (h : 0 < n) :
    tenTo (digitCount n - 1) ≤ n := by
  by_cases hcount : digitCount n - 1 = 0
  · rw [hcount]
    exact h
  · have hshort : ¬ (Nat.toDigits 10 n).length ≤ digitCount n - 1 := by
      unfold digitCount at *
      omega
    rw [Nat.length_toDigits_le_iff (by decide) (Nat.pos_of_ne_zero hcount),
      Nat.not_lt] at hshort
    exact hshort

theorem lt_pow_digitCount (n : Nat) : n < tenTo (digitCount n) :=
  (Nat.length_toDigits_le_iff (by decide) Nat.length_toDigits_pos).1
    (Nat.le_refl _)

/-- A number is at least the power of ten below its decimal magnitude. -/
theorem decimalMagnitude_le (nonzero : d.isZero = false) :
    one * tenTo (d.decimalMagnitude - 1).toNat
      ≤ d.units * tenTo (1 - d.decimalMagnitude).toNat := by
  have hunits : 0 < d.units := Nat.mul_pos (significand_pos nonzero)
    (twoTo_pos _)
  have hone := one_pos
  unfold decimalMagnitude
  generalize one = unit at *
  split
  · -- at least one: the digits of its whole part tell the magnitude
    next hlarge =>
    have hquotient : 0 < d.units / unit := Nat.div_pos hlarge hone
    have hcount : 0 < digitCount (d.units / unit) := Nat.length_toDigits_pos
    have hup : ((digitCount (d.units / unit) : Int) - 1).toNat
        = digitCount (d.units / unit) - 1 := by
      omega
    have hdown : (1 - (digitCount (d.units / unit) : Int)).toNat = 0 := by omega
    rw [hup, hdown]
    calc unit * tenTo (digitCount (d.units / unit) - 1)
        ≤ unit * (d.units / unit) :=
          Nat.mul_le_mul_left _ (pow_digitCount_le hquotient)
      _ ≤ d.units := Nat.mul_div_le _ _
      _ ≤ d.units * tenTo 0 := Nat.le_mul_of_pos_right _ (tenTo_pos 0)
  · -- less than one: the digits of what it takes to make one
    have hlt := lt_pow_digitCount ((unit - 1) / d.units)
    rw [Nat.div_lt_iff_lt_mul hunits] at hlt
    generalize digitCount ((unit - 1) / d.units) = count at hlt
    have hup : (1 - (count : Int) - 1).toNat = 0 := by omega
    have hdown : (1 - (1 - (count : Int))).toNat = count := by omega
    rw [hup, hdown, Nat.mul_comm d.units, show tenTo 0 = 1 from rfl,
      Nat.mul_one]
    exact Nat.le_of_pred_lt hlt

/-- The grid of seventeen digits is fine enough. -/
theorem seventeen_digits (nonzero : d.isZero = false) :
    onGrid tie d (d.decimalMagnitude - 17) ≠ none := by
  refine onGrid_ne_none nonzero ?_
  have hmagnitude := decimalMagnitude_le nonzero
  generalize d.decimalMagnitude = p at *
  obtain ⟨a, hup, hdown⟩ : ∃ a, 16 + (p - 17).toNat = (p - 1).toNat + a
      ∧ (-(p - 17)).toNat = (1 - p).toNat + a :=
        ⟨(-(p - 17)).toNat - (1 - p).toNat, by omega, by omega⟩
  generalize one = unit at *
  calc tenTo 16 * (tenTo (p - 17).toNat * (4 * unit))
      = 4 * (unit * (tenTo (p - 1).toNat * tenTo a)) := by
        rw [← tenTo_add, ← hup, tenTo_add]
        simp only [Nat.mul_assoc, Nat.mul_comm, Nat.mul_left_comm]
    _ ≤ 4 * (d.units * tenTo (1 - p).toNat * tenTo a) := by
        rw [← Nat.mul_assoc unit]
        exact Nat.mul_le_mul_left _ (Nat.mul_le_mul_right _ hmagnitude)
    _ = 4 * d.units * tenTo (-(p - 17)).toNat := by
        rw [hdown, tenTo_add, Nat.mul_assoc, Nat.mul_assoc]

/-- The search ends with a hit, since it gets to seventeen digits. -/
theorem shortestFrom_eq (nonzero : d.isZero = false) {count more : Nat}
    (hcount : count + more = 18) (hmore : 0 < more) :
    ∃ n k, shortestFrom tie d count more = Decimal.ofNat n k
      ∧ d.interval.holdsDecimal n k = true := by
  induction more generalizing count with
  | zero => cases hmore
  | succ more ih =>
      rw [shortestFrom]
      cases hgrid : onGrid tie d (d.decimalMagnitude - count) with
      | some n => exact ⟨n, d.decimalMagnitude - count, rfl,
          holds_of_onGrid hgrid⟩
      | none =>
          simp only
          refine ih (by omega) (Nat.pos_of_ne_zero fun hlast => ?_)
          obtain rfl : count = 17 := by omega
          exact seventeen_digits nonzero hgrid

/-- The digits of a number are those of a decimal in its interval. -/
theorem shortest_eq (nonzero : d.isZero = false) :
    ∃ n k, d.shortest tie = Decimal.ofNat n k
      ∧ d.interval.holdsDecimal n k = true := by
  rw [shortest, nonzero]
  exact shortestFrom_eq nonzero (show 1 + 17 = 18 from rfl) (by decide)

-- ============================================================ reading

/-- Powers of ten grow with the exponent, and only with it. -/
theorem tenTo_le_iff {m n : Nat} : tenTo m ≤ tenTo n ↔ m ≤ n :=
  Nat.pow_le_pow_iff_right (by decide)

/-- Three powers of two are less than one of ten. -/
theorem twoTo_le_tenTo {m n : Nat} (h : m ≤ 3 * n) : twoTo m ≤ tenTo n :=
  calc twoTo m ≤ twoTo (3 * n) := twoTo_le h
    _ = 8 ^ n := Nat.pow_mul 2 3 n
    _ ≤ tenTo n := Nat.pow_le_pow_left (by decide) n

/-- The exponent of a finite number is bounded. -/
theorem spread_le (finite : d.isFinite = true) : d.spread ≤ 2045 := by
  have hbiased : d.biased < 2047 := of_decide_eq_true finite
  unfold spread
  omega

variable (finite : d.isFinite = true) (nonzero : d.isZero = false)
  (h : d.interval.holdsDecimal n k = true)
include finite nonzero h

omit finite in
/-- A decimal in the interval of a number that is not zero is not zero. -/
theorem pos_of_holdsDecimal : 0 < n := by
  obtain ⟨hlow, -, -⟩ := bounds_of_holds h
  have hstep := Nat.mul_pos (twoTo_pos d.spread) (tenTo_pos (-k).toNat)
  have hdown :=
    Nat.mul_le_mul_right (twoTo d.spread * tenTo (-k).toNat) d.reachDown_le
  have hone := Nat.mul_le_mul_right (twoTo d.spread * tenTo (-k).toNat)
    (show 1 ≤ d.significand from significand_pos nonzero)
  refine Nat.pos_of_ne_zero fun hzero => ?_
  rw [hzero, Nat.zero_mul] at hlow
  omega

/-- A number that reads back is within the powers of ten that are read. -/
theorem places_of_holdsDecimal :
    k + (Nat.toDigits 10 n).length ≤ 400
      ∧ -400 ≤ k + (Nat.toDigits 10 n).length := by
  have hpos := pos_of_holdsDecimal nonzero h
  have hspread := spread_le finite
  obtain ⟨hlow, hhigh, -⟩ := bounds_of_holds h
  have hdown :=
    Nat.mul_le_mul_right (twoTo d.spread * tenTo (-k).toNat) d.reachDown_le
  have hone := Nat.mul_le_mul_right (twoTo d.spread * tenTo (-k).toNat)
    (show 1 ≤ d.significand from significand_pos nonzero)
  have hsignificand := Nat.mul_le_mul_right (twoTo d.spread * tenTo (-k).toNat)
    (show d.significand + 1 ≤ twoTo 53 from d.significand_lt)
  rw [Nat.add_mul] at hsignificand
  have hdigits := pow_digitCount_le hpos
  have hdigits' := lt_pow_digitCount n
  have hcount : 0 < digitCount n := Nat.length_toDigits_pos
  rw [show (Nat.toDigits 10 n).length = digitCount n from rfl]
  generalize digitCount n = places at *
  obtain ⟨e, he⟩ : ∃ e, e = 1074 := ⟨_, rfl⟩
  have hunit := one_eq he
  have hpoint : n * (tenTo k.toNat * (4 * one))
      = 4 * (n * tenTo k.toNat * twoTo e) := by
    rw [hunit]
    simp only [Nat.mul_assoc, Nat.mul_left_comm 4]
  rw [hpoint] at hlow hhigh
  constructor
  · -- from above: the number is less than a significand of 53 bits at the
    -- greatest spread
    have hle : tenTo (places - 1 + k.toNat) * twoTo e
        ≤ tenTo (342 + (-k).toNat) * twoTo e :=
      calc tenTo (places - 1 + k.toNat) * twoTo e
          ≤ n * tenTo k.toNat * twoTo e := by
            rw [tenTo_add]
            exact Nat.mul_le_mul_right _ (Nat.mul_le_mul_right _ hdigits)
        _ ≤ twoTo 53 * (twoTo d.spread * tenTo (-k).toNat) := by omega
        _ = twoTo (53 + d.spread) * tenTo (-k).toNat := by
          rw [twoTo_add, Nat.mul_assoc]
        _ ≤ twoTo (1024 + e) * tenTo (-k).toNat :=
            Nat.mul_le_mul_right _ (twoTo_le (by omega))
        _ ≤ tenTo (342 + (-k).toNat) * twoTo e := by
            rw [twoTo_add, tenTo_add, Nat.mul_right_comm]
            exact Nat.mul_le_mul_right _
              (Nat.mul_le_mul_right _ (twoTo_le_tenTo (by omega)))
    have hexponents :=
      tenTo_le_iff.1 (Nat.le_of_mul_le_mul_right hle (twoTo_pos e))
    omega
  · -- from below: it is at least one unit
    have hle : tenTo (-k).toNat ≤ tenTo (places + k.toNat + 359) :=
      calc tenTo (-k).toNat ≤ twoTo d.spread * tenTo (-k).toNat :=
            Nat.le_mul_of_pos_left _ (twoTo_pos _)
        _ ≤ n * tenTo k.toNat * twoTo e * twoTo 1 := by
            show _ ≤ _ * 2
            omega
        _ ≤ tenTo places * tenTo k.toNat * tenTo 359 := by
            rw [Nat.mul_assoc (n * _), ← twoTo_add]
            exact Nat.mul_le_mul
              (Nat.mul_le_mul_right _ (Nat.le_of_lt hdigits'))
              (twoTo_le_tenTo (by omega))
        _ = tenTo (places + k.toNat + 359) := by rw [tenTo_add, tenTo_add]
    have hexponents := tenTo_le_iff.1 hle
    omega

/-- A decimal in the interval of a number is read as it. -/
theorem ofDecimal_of_holdsDecimal : ofDecimal d.negative n k = d := by
  have hpos := pos_of_holdsDecimal nonzero h
  obtain ⟨hhigh, hlow⟩ := places_of_holdsDecimal finite nonzero h
  unfold ofDecimal
  simp only
  rw [if_neg (Nat.ne_of_gt hpos), if_neg (by omega), if_neg (by omega)]
  refine nearest_of_holds finite (tenTo_pos _) ?_
  have hpoint :
      4 * (n * tenTo k.toNat * one) = n * (tenTo k.toNat * (4 * one)) := by
    generalize one = unit
    simp only [Nat.mul_assoc, Nat.mul_left_comm 4]
  rw [hpoint]
  exact h

end Prerender.Double
