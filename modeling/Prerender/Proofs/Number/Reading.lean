/-
Reading a number back.

There are two layouts: with the point in its place, and with a power of
ten. The first of them fills up with zeros, in front of the digits or
behind them, and may put a point and a zero behind a whole number.
Whichever way the digits are laid out, what is read is the decimal that
they denote (`Decimal.ReadFrom`), perhaps with some of its zeros moved
between the digits and the power. That is as good, since reading looks
at the value alone.

The steps are these:

1. The digits of the shortest decimal denote a number that lies in the
   interval of the double (`shortest_holds`, with
   `Proofs/Number/Shortest`).
2. What is written is read as that decimal, by the three places where
   the point may stand (`Decimal.readFrom_fraction`,
   `Decimal.readFrom_mixed`, `Decimal.readFrom_whole`) and the form with
   a power (`Decimal.readFrom_exponentialText`).
3. A decimal in the interval is rounded to the double
   (`ofDecimal_shortest`, with `Proofs/Number/Rounding`).

So the text of a finite number is read as that number, in every layout
(`Layout.ofText?_text`). Whether the digits are the shortest ones is not
used; that they are in the interval is.
-/
import Prerender.Number.Reading
import Prerender.Proofs.Number.Shortest

namespace Prerender

-- =============================================================== digits

namespace Text

theorem digitsValue_append (xs ys : List Char) :
    digitsValue (xs ++ ys) = digitsValue xs * tenTo ys.length
      + digitsValue ys := by
  have hvalue : ∀ cs, digitsValue cs = Nat.ofDigitChars 10 cs 0 := fun _ => rfl
  rw [hvalue, hvalue, hvalue, Nat.ofDigitChars_append,
    Nat.ofDigitChars_eq_ofDigitChars_zero, Nat.mul_comm]
  rfl

/-- The digits of a whole number denote it. -/
theorem digitsValue_toDigits (n : Nat) : digitsValue (Nat.toDigits 10 n) = n :=
  Nat.ofDigitChars_ten_toDigits

theorem digitsValue_zeros (n : Nat) :
    digitsValue (List.replicate n '0') = 0 := by
  induction n with
  | zero => rfl
  | succ n ih =>
      rw [List.replicate_succ']
      rw [digitsValue_append, ih, Nat.zero_mul]
      rfl

/-- The digits of a whole number are read as it. -/
theorem natOfDigits?_toDigits (n : Nat) :
    natOfDigits? (Nat.toDigits 10 n) = some n := by
  have hempty : (Nat.toDigits 10 n).isEmpty = false := by
    rw [List.isEmpty_eq_false_iff]
    exact Nat.toDigits_ne_nil
  have hdigits : (Nat.toDigits 10 n).all Char.isDigit = true :=
    List.all_eq_true.2 fun _ => Double.isDigit_of_mem_toDigits
  rw [natOfDigits?, hempty, hdigits, digitsValue_toDigits]
  rfl

/-- What is dropped at the end stood there, and was of the kind that is
dropped. -/
theorem dropEndWhile_append (p : Char → Bool) (cs : List Char) :
    ∃ dropped, cs = dropEndWhile p cs ++ dropped
      ∧ ∀ c ∈ dropped, p c = true := by
  refine ⟨(cs.reverse.takeWhile p).reverse, ?_, fun c hc => ?_⟩
  · rw [dropEndWhile, ← List.reverse_append, List.takeWhile_append_dropWhile,
      List.reverse_reverse]
  · rw [List.mem_reverse] at hc
    exact List.all_eq_true.1 List.all_takeWhile c hc

end Text

namespace Double

open Text (digitsValue)

/-- Leaving out the zeros at the end does not change the decimal. -/
theorem Decimal.ofNat_eq (n : Nat) (k : Int) :
    ∃ t : Nat, n = digitsValue (Decimal.ofNat n k).digits * tenTo t
      ∧ (Decimal.ofNat n k).exponent = k + t := by
  obtain ⟨dropped, happend, hzero⟩ := Text.dropEndWhile_append (· == '0')
    (Nat.toDigits 10 n)
  refine ⟨dropped.length, ?_, ?_⟩
  · have hvalue := congrArg digitsValue happend
    rw [List.eq_replicate_of_mem fun c hc => beq_iff_eq.1 (hzero c hc),
      Text.digitsValue_append, Text.digitsValue_zeros,
      Text.digitsValue_toDigits, List.length_replicate] at hvalue
    exact hvalue
  · have hlength := congrArg List.length happend
    rw [List.length_append] at hlength
    show k + ((Nat.toDigits 10 n).length
      - (Text.dropEndWhile (· == '0') _).length : Nat) = _
    omega

/-- The digits of a number denote one that reads back as it. -/
theorem shortest_holds {d : Double} {tie : Tie} (nonzero : d.isZero = false) :
    d.interval.holdsDecimal (digitsValue (d.shortest tie).digits)
      (d.shortest tie).exponent = true := by
  obtain ⟨n, k, hshortest, hholds⟩ := @shortest_eq d tie nonzero
  obtain ⟨t, hn, hexponent⟩ := Decimal.ofNat_eq n k
  rw [hshortest, hexponent, ← Interval.holdsDecimal_mul_tenTo, ← hn]
  exact hholds

/-- There is at least one digit. -/
theorem digits_ne_nil (d : Double) (tie : Tie) :
    (d.shortest tie).digits ≠ [] := by
  intro hnil
  cases hzero : d.isZero with
  | true =>
      rw [shortest, hzero] at hnil
      cases hnil
  | false =>
      have hpos := pos_of_holdsDecimal hzero (@shortest_holds d tie hzero)
      rw [hnil] at hpos
      exact Nat.lt_irrefl 0 hpos

-- ============================================================= numerals

section
variable {negative : Bool} {whole places digits rest : List Char}
  {wholePoint : Bool} {point : Int}

/-- A power that was written is read. -/
theorem readExponent_toDigits (exponent : Int) :
    readExponent ('e' :: (if exponent < 0 then '-' else '+')
      :: Nat.toDigits 10 exponent.natAbs)
      = some exponent := by
  rw [readExponent, if_pos (Or.inl rfl)]
  by_cases hnegative : exponent < 0
  · rw [if_pos hnegative]
    simp only [readSign, Text.natOfDigits?_toDigits]
    show some (-(exponent.natAbs : Int)) = some exponent
    rw [Int.ofNat_natAbs_of_nonpos (Int.le_of_lt hnegative), Int.neg_neg]
  · rw [if_neg hnegative]
    simp only [readSign, Text.natOfDigits?_toDigits]
    show some (exponent.natAbs : Int) = some exponent
    rw [Int.natAbs_of_nonneg (Int.not_lt.1 hnegative)]

/-- What stands behind the digits of a numeral. -/
def IsEnd (rest : List Char) : Prop := rest = [] ∨ ∃ more, rest = 'e' :: more

/-- Digits end where the numeral ends or its power begins. -/
theorem IsEnd.takeWhile_append (h : IsEnd rest)
    (hwhole : ∀ c ∈ whole, c.isDigit = true) :
    (whole ++ rest).takeWhile Char.isDigit = whole
      ∧ (whole ++ rest).dropWhile Char.isDigit = rest := by
  rw [List.takeWhile_append_of_pos hwhole, List.dropWhile_append_of_pos hwhole]
  obtain rfl | ⟨more, rfl⟩ := h
  · exact ⟨List.append_nil whole, rfl⟩
  · exact ⟨List.append_nil whole, rfl⟩

/-- Digits without a point among them are read as their value. -/
theorem readMagnitude_whole (hwhole : ∀ c ∈ whole, c.isDigit = true)
    (hne : whole ≠ []) (hrest : IsEnd rest) :
    readMagnitude negative (whole ++ rest)
      = (readExponent rest).map fun k =>
        ofDecimal negative (digitsValue whole) k := by
  obtain ⟨htake, hdrop⟩ := hrest.takeWhile_append hwhole
  have hempty : readMagnitude negative (whole ++ rest)
      = if whole ++ [] = [] then none
        else (readExponent rest).map fun k =>
          ofDecimal negative (digitsValue (whole ++ []))
            (k - ([] : List Char).length) := by
    rw [readMagnitude, htake, hdrop]
    obtain rfl | ⟨more, rfl⟩ := hrest
    · rfl
    · rfl
  rw [hempty, List.append_nil, if_neg hne]
  simp only [List.length_nil, Int.ofNat_zero, Int.sub_zero]

/-- Digits with a point among them are read as their value with the places
taken off the power. -/
theorem readMagnitude_point (hwhole : ∀ c ∈ whole, c.isDigit = true)
    (hplaces : ∀ c ∈ places, c.isDigit = true) (hne : whole ≠ [])
    (hrest : IsEnd rest) :
    readMagnitude negative (whole ++ '.' :: (places ++ rest))
      = (readExponent rest).map fun k =>
          ofDecimal negative (digitsValue (whole ++ places))
            (k - places.length) := by
  obtain ⟨htake, hdrop⟩ := hrest.takeWhile_append hplaces
  have hne' : whole ++ places ≠ [] :=
    fun h => hne (List.append_eq_nil_iff.1 h).1
  have hpoint : ('.' :: (places ++ rest)).takeWhile Char.isDigit = []
      ∧ ('.' :: (places ++ rest)).dropWhile Char.isDigit = '.'
        :: (places ++ rest) := ⟨rfl, rfl⟩
  rw [readMagnitude, List.takeWhile_append_of_pos hwhole,
    List.dropWhile_append_of_pos hwhole, hpoint.1, hpoint.2, List.append_nil]
  simp only [htake, hdrop, if_neg hne']

end

-- ============================================================== layouts

/-- Whether the characters begin with a digit and are read as the decimal,
perhaps with further zeros at its end. -/
def Decimal.ReadFrom (decimal : Decimal) (cs : List Char) : Prop :=
  cs.head?.any Char.isDigit = true
    ∧ ∃ (t : Nat) (k : Int), k + t = decimal.exponent
      ∧ ∀ negative, readMagnitude negative cs
        = some (ofDecimal negative (digitsValue decimal.digits * tenTo t) k)

/-- Digits in front of anything begin with a digit. -/
theorem any_head?_append {cs : List Char} (hdigits : ∀ c ∈ cs, c.isDigit = true)
    (hne : cs ≠ [])
    (rest : List Char) : (cs ++ rest).head?.any Char.isDigit = true := by
  cases cs with
  | nil => exact absurd rfl hne
  | cons c more => exact hdigits c (.head _)

theorem isDigit_of_mem_zeros {n : Nat} :
    ∀ c ∈ List.replicate n '0', c.isDigit = true := by
  intro c hc
  rw [List.eq_of_mem_replicate hc]
  rfl

section
variable {decimal : Decimal} (hdigits : ∀ c ∈ decimal.digits, c.isDigit = true)
  (hne : decimal.digits ≠ [])
include hdigits

/-- Zeros in front, the first behind which the point stands, change no value. -/
theorem Decimal.readFrom_fraction {n : Nat}
    (h : decimal.exponent = -(n + decimal.digits.length)) :
    decimal.ReadFrom
      ('0' :: '.' :: (List.replicate n '0' ++ decimal.digits)) := by
  refine ⟨rfl, 0, decimal.exponent, Int.add_zero _, fun negative => ?_⟩
  have hread := @readMagnitude_point negative ['0']
    (List.replicate n '0' ++ decimal.digits) []
    (List.forall_mem_singleton.2 rfl)
    (List.forall_mem_append.2 ⟨isDigit_of_mem_zeros, hdigits⟩)
    (List.cons_ne_nil _ _) (Or.inl rfl)
  have hvalue : digitsValue (['0'] ++ (List.replicate n '0' ++ decimal.digits))
      = digitsValue decimal.digits * tenTo 0 := by
    rw [← List.append_assoc, List.singleton_append, ← List.replicate_succ,
      Text.digitsValue_append, Text.digitsValue_zeros, Nat.zero_mul,
      Nat.zero_add]
    exact (Nat.mul_one _).symm
  have hlength : (0 : Int) - (List.replicate n '0' ++ decimal.digits).length
      = decimal.exponent := by
    rw [List.length_append, List.length_replicate]
    omega
  rw [List.append_nil, List.singleton_append, readExponent, Option.map_some,
    hvalue, hlength]
    at hread
  exact hread

include hne

/-- A point among the digits is read. -/
theorem Decimal.readFrom_mixed {n : Nat} (hpos : 0 < n)
    (hn : n < decimal.digits.length)
    (h : decimal.exponent = n - decimal.digits.length) :
    decimal.ReadFrom
      (decimal.digits.take n ++ '.' :: decimal.digits.drop n) := by
  have htake : decimal.digits.take n ≠ [] := by
    rw [Ne, List.take_eq_nil_iff, not_or]
    exact ⟨Nat.ne_of_gt hpos, hne⟩
  have hbefore : ∀ c ∈ decimal.digits.take n, c.isDigit = true :=
    fun c hc => hdigits c (List.mem_of_mem_take hc)
  refine ⟨any_head?_append hbefore htake _, 0, decimal.exponent, Int.add_zero _,
    fun negative => ?_⟩
  have hread :=
    @readMagnitude_point negative _ (decimal.digits.drop n) [] hbefore
    (fun c hc => hdigits c (List.mem_of_mem_drop hc)) htake (Or.inl rfl)
  have hlength : (0 : Int) - (decimal.digits.drop n).length
    = decimal.exponent := by
    rw [List.length_drop]
    omega
  rw [List.append_nil, readExponent, Option.map_some, List.take_append_drop,
    hlength] at hread
  rw [show tenTo 0 = 1 from rfl, Nat.mul_one]
  exact hread

/-- Zeros behind the digits, the last of them perhaps behind a point, are read
as a power of ten. -/
theorem Decimal.readFrom_whole {n : Nat} (h : decimal.exponent = n)
    (wholePoint : Bool) :
    decimal.ReadFrom
      (decimal.digits ++ List.replicate n '0' ++ if wholePoint then ['.', '0']
        else []) := by
  have hall : ∀ c ∈ decimal.digits ++ List.replicate n '0', c.isDigit = true :=
    List.forall_mem_append.2 ⟨hdigits, isDigit_of_mem_zeros⟩
  have hwhole : decimal.digits ++ List.replicate n '0' ≠ [] :=
    fun h => hne (List.append_eq_nil_iff.1 h).1
  have hvalue : digitsValue (decimal.digits ++ List.replicate n '0')
      = digitsValue decimal.digits * tenTo n := by
    rw [Text.digitsValue_append, Text.digitsValue_zeros, List.length_replicate,
      Nat.add_zero]
  refine ⟨any_head?_append hall hwhole _, ?_⟩
  cases wholePoint with
  | true =>
      refine ⟨n + 1, -1, by omega, fun negative => ?_⟩
      have hread := @readMagnitude_point negative _ ['0'] [] hall
        (List.forall_mem_singleton.2 rfl) hwhole (Or.inl rfl)
      rw [readExponent, Option.map_some, Text.digitsValue_append,
        hvalue] at hread
      rw [tenTo_add, ← Nat.mul_assoc]
      exact hread
  | false =>
      refine ⟨n, 0, by omega, fun negative => ?_⟩
      have hread := @readMagnitude_whole negative _ [] hall hwhole (Or.inl rfl)
      rw [readExponent, Option.map_some, hvalue] at hread
      exact hread

/-- With the point in place the decimal is read. -/
theorem Decimal.readFrom_positionalText (wholePoint : Bool) :
    decimal.ReadFrom (positionalText wholePoint decimal.digits
      (decimal.exponent + decimal.digits.length)) := by
  unfold positionalText
  split
  · exact Decimal.readFrom_fraction hdigits (by omega)
  · split
    · exact Decimal.readFrom_mixed hdigits hne (by omega) (by omega) (by omega)
    · exact Decimal.readFrom_whole hdigits hne (by omega) wholePoint

/-- With a power of ten the decimal is read. -/
theorem Decimal.readFrom_exponentialText :
    decimal.ReadFrom (exponentialText decimal.digits
      (decimal.exponent + decimal.digits.length - 1)) := by
  obtain ⟨digits, e⟩ := decimal
  simp only at hdigits hne ⊢
  obtain ⟨exponent, hexponent⟩ : ∃ exponent, exponent = e + digits.length - 1 :=
    ⟨_, rfl⟩
  rw [← hexponent]
  have hend : IsEnd ('e' :: (if exponent < 0 then '-' else '+')
    :: Nat.toDigits 10 exponent.natAbs) :=
    Or.inr ⟨_, rfl⟩
  cases digits with
  | nil => exact absurd rfl hne
  | cons d rest =>
      obtain ⟨hd, hrest⟩ := List.forall_mem_cons.1 hdigits
      -- one digit stands without a point, further ones behind a point
      cases rest with
      | nil =>
          refine ⟨hd, 0, e, Int.add_zero e, fun negative => ?_⟩
          rw [show tenTo 0 = 1 from rfl, Nat.mul_one]
          have hread := @readMagnitude_whole negative [d] _ hdigits hne hend
          rw [readExponent_toDigits, Option.map_some] at hread
          have heq : exponent = e := by
            rw [hexponent]
            exact Int.add_sub_cancel e 1
          rw [← heq]
          exact hread
      | cons f rest =>
          refine ⟨hd, 0, e, Int.add_zero e, fun negative => ?_⟩
          rw [show tenTo 0 = 1 from rfl, Nat.mul_one]
          have hread := @readMagnitude_point negative [d] (f :: rest) _
            (List.forall_mem_singleton.2 hd) hrest (List.cons_ne_nil _ _) hend
          rw [readExponent_toDigits, Option.map_some] at hread
          have heq : exponent - (f :: rest).length = e := by
            rw [hexponent, List.length_cons, List.length_cons]
            omega
          rw [← heq]
          exact hread

end

/-- What stands behind the sign is read as the shortest decimal, in every
layout. -/
theorem Layout.readFrom_text (layout : Layout) (d : Double) :
    ∃ body, (layout.text d).toList = (if d.negative then ['-'] else []) ++ body
      ∧ (d.shortest layout.tie).ReadFrom body := by
  have hdigits : ∀ c ∈ (d.shortest layout.tie).digits, c.isDigit = true :=
    fun c => isDigit_of_mem_shortest
  have hne := digits_ne_nil d layout.tie
  unfold Layout.text
  rw [String.toList_ofList]
  refine ⟨_, rfl, ?_⟩
  cases layout.positional with
  | none => exact Decimal.readFrom_positionalText hdigits hne layout.wholePoint
  | some range =>
      obtain ⟨least, greatest⟩ := range
      simp only
      split
      · exact Decimal.readFrom_positionalText hdigits hne layout.wholePoint
      · exact Decimal.readFrom_exponentialText hdigits hne

-- ================================================================ texts

/-- A digit has no small form, so it does not begin a word such as `nan`. -/
theorem toLower_of_isDigit {c : Char} (h : c.isDigit = true) :
    c.toLower = c := by
  unfold Char.toLower
  simp only [Char.isDigit, Bool.and_eq_true, decide_eq_true_eq] at h
  rw [dif_neg]
  rintro ⟨hupper, -⟩
  have hdigit : c.val ≤ 57 := h.2
  have hletter : 65 ≤ c.val := hupper
  exact absurd (UInt32.le_trans hletter hdigit) (by decide)

/-- In front of a digit there is no sign to be read. -/
theorem readSign_of_isDigit {c : Char} (h : c.isDigit = true)
    (more : List Char) :
    readSign (c :: more) = (false, c :: more) := by
  unfold readSign
  split
  · next heq =>
    cases heq
    cases h
  · next heq =>
    cases heq
    cases h
  · rfl

/-- The two zeros have no magnitude, and differ in their sign. -/
theorem ofMagnitude_zero {d : Double} (h : d.isZero = true) :
    ofMagnitude d.negative 0 = d := by
  have hmagnitude : d.spread * twoTo 52 + d.significand = 0 := by
    simp only [isZero, Bool.and_eq_true, beq_iff_eq] at h
    rw [spread, significand, h.1, h.2, if_pos rfl]
    rfl
  have hfields := ofMagnitude_significand d
  rw [hmagnitude] at hfields
  exact hfields

/-- A number is read from the digits that are written for it. -/
theorem ofDecimal_shortest {d : Double} (finite : d.isFinite = true) {tie : Tie}
    {t : Nat} {k : Int} (h : k + t = (d.shortest tie).exponent) :
    ofDecimal d.negative (digitsValue (d.shortest tie).digits * tenTo t) k
      = d := by
  cases hzero : d.isZero with
  | true =>
      have hnothing : digitsValue (d.shortest tie).digits * tenTo t = 0 := by
        rw [shortest, hzero]
        exact Nat.zero_mul _
      rw [hnothing]
      exact ofMagnitude_zero hzero
  | false =>
      refine ofDecimal_of_holdsDecimal finite hzero ?_
      rw [Interval.holdsDecimal_mul_tenTo, h]
      exact shortest_holds hzero

/-- A finite number is read from its text, whatever the layout. -/
theorem Layout.ofText?_text (layout : Layout) {d : Double}
    (finite : d.isFinite = true) :
    ofText? (layout.text d) = some d := by
  obtain ⟨body, htext, hhead, t, k, hexponent, hread⟩ := layout.readFrom_text d
  obtain ⟨c, more, rfl⟩ : ∃ c more, body = c :: more := by
    cases body with
    | nil => cases hhead
    | cons c more => exact ⟨c, more, rfl⟩
  have hsign : readSign (layout.text d).toList = (d.negative, c :: more) := by
    rw [htext]
    cases d.negative with
    | true => rfl
    | false => exact readSign_of_isDigit hhead more
  have hname : ∀ name : String, name.toList.head?.any Char.isDigit = false →
      String.ofList ((c :: more).map Char.toLower) ≠ name := by
    intro name hname heq
    rw [← heq, String.toList_ofList, List.map_cons, toLower_of_isDigit hhead]
      at hname
    rw [show (c :: more.map Char.toLower).head?.any Char.isDigit = true
      from hhead] at hname
    cases hname
  rw [ofText?, hsign]
  simp only
  rw [if_neg (hname _ rfl), if_neg (not_or.2 ⟨hname _ rfl, hname _ rfl⟩), hread,
    ofDecimal_shortest finite hexponent]

end Double
end Prerender
