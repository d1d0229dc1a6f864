/-
A double is what every number in its interval rounds to.

The program finds the digits of a double by its interval: the numbers
that are nearer to it than to any other double. It goes half-way to the
neighbours and has its ends when the significand is even, because a half
goes to the even neighbour. Here it is shown that reading rounds every
number of the interval to the double (`nearest_of_holds`), so that the
two sides fit together.

Everything is counted in whole numbers. A double is its significand
times a power of two, the distance between neighbours (`units_eq`), and
over a denominator `den` both ends of the interval are multiples of that
distance (`interval_low_mul`, `interval_high_mul`). Reading in turn
finds the distance from the size of the number, which is right if the
significand has all its 53 bits or the distance is the least there is
(`nearest_eq`).

One case remains. Below a power of two the neighbours are half as far
away, so that the interval reaches down only a quarter of the distance
above (`reachDown`). A number in this part lies on the finer grid, where
its significand rounds to `2 ^ 53`: one more than there is room for, and
this carries into the field of the exponent, which makes it the power of
two. The fields of a number are laid out for this
(`ofMagnitude_significand`).
-/
import Prerender.Number.Shortest

namespace Prerender

-- ============================================================== powers

theorem twoTo_pos (n : Nat) : 0 < twoTo n := Nat.two_pow_pos n

theorem twoTo_add (m n : Nat) : twoTo (m + n) = twoTo m * twoTo n :=
  Nat.pow_add 2 m n

/-- Powers of two grow with the exponent. -/
theorem twoTo_le {m n : Nat} (h : m ≤ n) : twoTo m ≤ twoTo n :=
  Nat.pow_le_pow_right (by decide) h

theorem tenTo_pos (n : Nat) : 0 < tenTo n := Nat.pow_pos (by decide)

theorem tenTo_add (m n : Nat) : tenTo (m + n) = tenTo m * tenTo n :=
  Nat.pow_add 10 m n

namespace Double

theorem one_pos : 0 < one := by
  unfold one
  exact twoTo_pos _

/-- With a name for the exponent the power is not computed. -/
theorem one_eq {e : Nat} (h : e = 1074) : one = twoTo e := by
  unfold one
  rw [h]

-- ============================================================== fields

/-- The significand: the magnitude in steps between neighbours. -/
def significand (d : Double) : Nat :=
  if d.biased = 0 then d.fraction else twoTo 52 + d.fraction

/-- A number is its significand times the distance between neighbours. -/
theorem units_eq (d : Double) : d.units = d.significand * twoTo d.spread := rfl

/-- The significand of a double has 53 digits at most, the hidden one
included. -/
theorem significand_lt (d : Double) : d.significand < twoTo 53 := by
  have hfraction : d.fraction < twoTo 52 := Nat.mod_lt _ (twoTo_pos 52)
  unfold significand
  split <;> simp only [twoTo, Nat.pow_eq] at * <;> omega

/-- It is odd where the stored fraction is. -/
theorem significand_mod_two (d : Double) :
    d.significand % 2 = d.fraction % 2 := by
  unfold significand
  split
  · rfl
  · simp only [twoTo, Nat.pow_eq]
    omega

/-- Only the zeros have none. -/
theorem significand_pos {d : Double} (h : d.isZero = false) :
    0 < d.significand := by
  unfold significand
  split
  · next hbiased =>
    rw [isZero, hbiased, beq_self_eq_true, Bool.true_and, beq_eq_false_iff_ne]
      at h
    exact Nat.pos_of_ne_zero h
  · exact Nat.lt_of_lt_of_le (twoTo_pos 52) (Nat.le_add_right _ _)

/-- A number is put together from its fields as rounding puts it together. -/
theorem ofMagnitude_significand (d : Double) :
    ofMagnitude d.negative (d.spread * twoTo 52 + d.significand) = d := by
  have hbits := d.bits.toNat_lt
  have hfields : (if d.negative then twoTo 63 else 0)
    + (d.spread * twoTo 52 + d.significand)
      = d.bits.toNat := by
    unfold spread significand negative
    split <;> split <;>
      simp only [biased, fraction, twoTo, Nat.pow_eq, decide_eq_true_eq]
      at * <;> omega
  rw [ofMagnitude, hfields, UInt64.ofNat_toNat]

/-- Finite numbers are less than infinity, as bits. -/
theorem magnitude_lt {d : Double} (finite : d.isFinite = true) :
    d.spread * twoTo 52 + d.significand < infinityBits := by
  have hbiased : d.biased < 2047 := of_decide_eq_true finite
  have hfraction : d.fraction < twoTo 52 := Nat.mod_lt _ (twoTo_pos 52)
  unfold significand infinityBits spread
  simp only [twoTo, Nat.pow_eq] at *
  split <;> omega

-- ============================================================ intervals

namespace Interval

variable {i : Interval} {scale point : Nat}

/-- What is in an interval is not beyond its ends. -/
theorem bounds_of_holds (h : i.holds scale point = true) :
    i.low * scale ≤ point ∧ point ≤ i.high * scale := by
  unfold holds at h
  split at h
  · simpa using h
  · simp only [Bool.and_eq_true, decide_eq_true_eq] at h
    exact ⟨Nat.le_of_lt h.1, Nat.le_of_lt h.2⟩

/-- An interval without its ends holds only what is between them. -/
theorem lt_of_holds (hopen : i.closed = false)
    (h : i.holds scale point = true) :
    i.low * scale < point ∧ point < i.high * scale := by
  rw [holds, hopen] at h
  simpa using h

/-- Whatever is between the ends is in the interval, with or without them. -/
theorem holds_of_lt (hlow : i.low * scale < point)
    (hhigh : point < i.high * scale) :
    i.holds scale point = true := by
  unfold holds
  split
  · simp only [Nat.le_of_lt hlow, Nat.le_of_lt hhigh, decide_true,
      Bool.and_true]
  · simp only [hlow, hhigh, decide_true, Bool.and_true]

theorem holds_mul {c : Nat} (hc : 0 < c) :
    i.holds (scale * c) (point * c) = i.holds scale point := by
  simp only [holds, ← Nat.mul_assoc, Nat.mul_le_mul_right_iff hc,
    Nat.mul_lt_mul_right hc]

end Interval

/-- How far the interval goes down, in quarters of the distance between
neighbours. -/
def reachDown (d : Double) : Nat :=
  if d.fraction = 0 ∧ 1 < d.biased then 1 else 2

/-- The upper end is half-way to the next number. -/
theorem interval_high (d : Double) :
    d.interval.high = (4 * d.significand + 2) * twoTo d.spread := by
  rw [interval, units_eq, ← Nat.mul_assoc, Nat.add_mul]

/-- The lower end is the reach below the number. -/
theorem interval_low (d : Double) :
    d.interval.low = (4 * d.significand - d.reachDown) * twoTo d.spread := by
  rw [interval, units_eq, ← Nat.mul_assoc, Nat.sub_mul]
  rfl

/-- The ends belong to the interval of an even significand. -/
theorem interval_closed (d : Double) :
    d.interval.closed = (d.significand % 2 == 0) := by
  rw [significand_mod_two]
  rfl

/-- No interval goes down further than half-way. -/
theorem reachDown_le (d : Double) : d.reachDown ≤ 2 := by
  unfold reachDown
  split <;> decide

/-- Only down from a power of two the interval does not go half-way. -/
theorem significand_of_reachDown {d : Double} (h : d.reachDown ≠ 2) :
    d.reachDown = 1 ∧ d.significand = twoTo 52 := by
  unfold reachDown at h ⊢
  split at h
  · next hpower =>
    rw [if_pos hpower, significand, if_neg (by omega), hpower.1]
    exact ⟨rfl, rfl⟩
  · exact absurd rfl h

/-- A significand with all its bits is a power of two or goes on beyond one. -/
theorem reachDown_or_lt {d : Double} (h : 0 < d.spread) :
    d.reachDown = 1 ∨ twoTo 52 < d.significand := by
  unfold spread at h
  unfold reachDown significand
  by_cases hfraction : d.fraction = 0
  · exact Or.inl (if_pos ⟨hfraction, by omega⟩)
  · rw [if_neg (show ¬d.biased = 0 by omega)]
    exact Or.inr (Nat.lt_add_of_pos_right (Nat.pos_of_ne_zero hfraction))

-- ============================================================= rounding

/-- A quotient is rounded to a whole number that is not further away than a
half, and at a half only if it is even. -/
theorem roundRatio_eq {num den q : Nat} (low : 2 * (q * den) ≤ 2 * num + den)
    (high : 2 * num ≤ 2 * (q * den) + den) (hden : 0 < den)
    (tie : q % 2 = 0 ∨ 2 * (q * den) < 2 * num + den
      ∧ 2 * num < 2 * (q * den) + den) :
    roundRatio num den = q := by
  have hdiv := Nat.div_add_mod' num den
  have hmod := Nat.mod_lt num hden
  unfold roundRatio
  generalize num / den = a at *
  generalize num % den = r at *
  have hlower : a ≤ q := by
    refine Nat.le_of_lt_succ (Nat.lt_of_mul_lt_mul_right (a := den) ?_)
    rw [Nat.succ_mul]
    omega
  have hupper : q ≤ a + 1 := by
    refine Nat.le_of_lt_succ (Nat.lt_of_mul_lt_mul_right (a := den) ?_)
    rw [Nat.succ_mul, Nat.succ_mul]
    omega
  obtain rfl | rfl : q = a ∨ q = a + 1 := by omega
  · dsimp only
    split
    · rfl
    · split <;> omega
  · rw [Nat.add_mul, Nat.one_mul] at low high tie
    dsimp only
    split
    · omega
    · split <;> omega

/-- The exponent is found from the number of bits. -/
theorem log2_sub_eq {n s : Nat} (low : s = 0 ∨ twoTo (52 + s) ≤ n)
    (high : n < twoTo (53 + s)) :
    n.log2 - 52 = s := by
  by_cases hn : n = 0
  · rcases low with rfl | low
    · rw [hn]
      decide
    · exact absurd low (Nat.not_le.2 (hn ▸ twoTo_pos _))
  · have hhigh : n.log2 < 53 + s := (Nat.log2_lt hn).2 high
    rcases low with rfl | low
    · omega
    · have hlow : 52 + s ≤ n.log2 := (Nat.le_log2 hn).2 low
      omega

/-- Rounding to the grid of a spread whose significands have all their bits. -/
theorem nearest_eq {negative : Bool} {num den s m : Nat} (hden : 0 < den)
    (low : s = 0 ∨ twoTo 52 * (twoTo s * den) ≤ num * one)
    (high : num * one < twoTo 53 * (twoTo s * den))
    (below : 2 * (m * (twoTo s * den)) ≤ 2 * (num * one) + twoTo s * den)
    (above : 2 * (num * one) ≤ 2 * (m * (twoTo s * den)) + twoTo s * den)
    (tie : m % 2 = 0
      ∨ 2 * (m * (twoTo s * den)) < 2 * (num * one) + twoTo s * den
      ∧ 2 * (num * one) < 2 * (m * (twoTo s * den)) + twoTo s * den) :
    nearest negative num den
      = ofMagnitude negative (min (s * twoTo 52 + m) infinityBits) := by
  have hspread : (num * one / den).log2 - 52 = s := by
    refine log2_sub_eq (low.imp_right fun hlow => ?_) ?_
    · rw [Nat.le_div_iff_mul_le hden, twoTo_add, Nat.mul_assoc]
      exact hlow
    · rw [Nat.div_lt_iff_lt_mul hden, twoTo_add, Nat.mul_assoc]
      exact high
  have hround : roundRatio (num * one) (den * twoTo s) = m := by
    rw [Nat.mul_comm den]
    exact roundRatio_eq below above (Nat.mul_pos (twoTo_pos s) hden) tie
  unfold nearest
  simp only [hspread, hround]

-- Over a denominator the interval is counted in steps between neighbours.

theorem interval_low_mul (d : Double) (den : Nat) :
    d.interval.low * den = 4 * (d.significand * (twoTo d.spread * den))
      - d.reachDown * (twoTo d.spread * den) := by
  rw [interval_low, Nat.mul_assoc, Nat.sub_mul, Nat.mul_assoc]

theorem interval_high_mul (d : Double) (den : Nat) :
    d.interval.high * den = 4 * (d.significand * (twoTo d.spread * den))
      + 2 * (twoTo d.spread * den) := by
  rw [interval_high, Nat.mul_assoc, Nat.add_mul, Nat.mul_assoc]

/-- In terms of the distance between neighbours: at most half of it above, no
more than the reach below, and less than both where the significand is odd. -/
theorem bounds_of_holds {d : Double} {den point : Nat}
    (h : d.interval.holds den point = true) :
    4 * (d.significand * (twoTo d.spread * den))
        ≤ point + d.reachDown * (twoTo d.spread * den)
      ∧ point ≤ 4 * (d.significand * (twoTo d.spread * den))
        + 2 * (twoTo d.spread * den)
      ∧ (d.significand % 2 = 0
        ∨ 4 * (d.significand * (twoTo d.spread * den))
              < point + d.reachDown * (twoTo d.spread * den)
          ∧ point < 4 * (d.significand * (twoTo d.spread * den))
              + 2 * (twoTo d.spread * den)) := by
  obtain ⟨hdown, hup⟩ := Interval.bounds_of_holds h
  rw [interval_low_mul] at hdown
  rw [interval_high_mul] at hup
  refine ⟨by omega, hup, ?_⟩
  by_cases heven : d.significand % 2 = 0
  · exact Or.inl heven
  · have hopen : d.interval.closed = false := by
      rw [interval_closed]
      exact beq_false_of_ne heven
    obtain ⟨hdown, hup⟩ := Interval.lt_of_holds hopen h
    rw [interval_low_mul] at hdown
    rw [interval_high_mul] at hup
    exact Or.inr ⟨by omega, hup⟩

/-- What is less than the reach below and less than half the distance above is
in the interval. -/
theorem holds_of_near {d : Double} (nonzero : d.isZero = false)
    {den point : Nat} (hden : 0 < den)
    (hlow : 4 * (d.significand * (twoTo d.spread * den))
      < point + d.reachDown * (twoTo d.spread * den))
    (hhigh : point < 4 * (d.significand * (twoTo d.spread * den)) + 2
      * (twoTo d.spread * den)) :
    d.interval.holds den point = true := by
  have hstep := Nat.mul_pos (twoTo_pos d.spread) hden
  have hdown := Nat.mul_le_mul_right (twoTo d.spread * den) d.reachDown_le
  have hone := Nat.mul_le_mul_right (twoTo d.spread * den)
    (show 1 ≤ d.significand from significand_pos nonzero)
  refine Interval.holds_of_lt ?_ ?_
  · rw [interval_low_mul]
    omega
  · rw [interval_high_mul]
    exact hhigh

/-- Every number in the interval of a double rounds to it. -/
theorem nearest_of_holds {d : Double} (finite : d.isFinite = true)
    {num den : Nat} (hden : 0 < den)
    (h : d.interval.holds den (4 * (num * one)) = true) :
    nearest d.negative num den = d := by
  obtain ⟨hlow, hhigh, hstrict⟩ := bounds_of_holds h
  have hstep := Nat.mul_pos (twoTo_pos d.spread) hden
  have hdown := Nat.mul_le_mul_right (twoTo d.spread * den) d.reachDown_le
  suffices ∃ s m, s * twoTo 52 + m = d.spread * twoTo 52 + d.significand
      ∧ nearest d.negative num den
        = ofMagnitude d.negative (min (s * twoTo 52 + m) infinityBits) by
    obtain ⟨s, m, hsum, hnearest⟩ := this
    rw [hnearest, hsum, Nat.min_eq_left (Nat.le_of_lt (magnitude_lt finite)),
      ofMagnitude_significand]
  -- on the grid of the number itself, whose significand is then found, or
  -- below
  by_cases hgrid : d.spread = 0 ∨ twoTo 52 * (twoTo d.spread * den) ≤ num * one
  · have hmul := Nat.mul_le_mul_right (twoTo d.spread * den)
      (show d.significand + 1 ≤ twoTo 53 from d.significand_lt)
    rw [Nat.succ_mul] at hmul
    exact ⟨d.spread, d.significand, rfl,
      nearest_eq hden hgrid (by omega) (by omega) (by omega) (by omega)⟩
  · -- Just below a power of two, which is `2 ^ 53` steps of the grid there.
    obtain ⟨hspread, hbelow⟩ := not_or.1 hgrid
    obtain ⟨s, hs⟩ : ∃ s, d.spread = s + 1 := ⟨d.spread - 1, by omega⟩
    obtain hpower | hbeyond := reachDown_or_lt (d := d) (by omega)
    · obtain ⟨-, hm⟩ := significand_of_reachDown (d := d) (by omega)
      have htwice : twoTo d.spread * den = 2 * (twoTo s * den) := by
        rw [hs, twoTo_add, Nat.mul_comm (twoTo s), Nat.mul_assoc]
      rw [hpower, hm, htwice] at hlow
      rw [htwice] at hbelow hstep
      refine ⟨s, twoTo 53, ?_, nearest_eq hden (Or.inr ?_) ?_ ?_ ?_
        (Or.inl (by decide))⟩
      all_goals simp only [hs, hm, twoTo, Nat.pow_eq] at *
      all_goals omega
    · -- a longer significand is so far above the power of two that nothing in
      -- its interval is below
      have hmul := Nat.mul_le_mul_right (twoTo d.spread * den)
        (show twoTo 52 + 1 ≤ d.significand from hbeyond)
      rw [Nat.succ_mul] at hmul
      omega

end Double
end Prerender
