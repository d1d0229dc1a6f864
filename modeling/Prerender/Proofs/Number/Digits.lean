/-
The characters that numbers are written with.

Digits come from the core library's base ten, whatever is dropped from
them at the end. A layout adds at most a sign, a point, zeros and the
mark of a power. So the text of a number, in whatever layout, consists
of digits and of four other characters
(`Layout.isNumeralChar_of_mem_text`).

This is all that is needed to see where the text of a number ends: at
the first character that is none of these. How the digits are found, and
that there are as few as possible, does not matter here.
-/
import Prerender.Number.Layout

namespace Prerender

/-- Leaving out characters at the end adds none. -/
theorem Text.mem_of_mem_dropEndWhile {p : Char → Bool}
    {cs : List Char} {c : Char} (h : c ∈ Text.dropEndWhile p cs) : c ∈ cs := by
  rw [Text.dropEndWhile, List.mem_reverse] at h
  exact List.mem_reverse.1 ((List.dropWhile_sublist p).subset h)

/-- Two whole numbers with one text are one. -/
theorem Text.toString_nat_inj {m n : Nat} :
    toString m = toString n ↔ m = n := by
  refine ⟨fun h => ?_, congrArg toString⟩
  have hdigits : Nat.toDigits 10 m = Nat.toDigits 10 n := by
    rw [← Nat.toList_repr, ← Nat.toList_repr]
    exact congrArg String.toList h
  rw [← @Nat.ofDigitChars_ten_toDigits m, hdigits,
    Nat.ofDigitChars_ten_toDigits]

namespace Double

theorem isDigit_of_mem_toDigits {n : Nat} {c : Char}
    (h : c ∈ Nat.toDigits 10 n) :
    c.isDigit = true :=
  Nat.isDigit_of_mem_toDigits (by decide) (by decide) h

/-- A decimal has digits of its whole number. -/
theorem Decimal.isDigit_of_mem_ofNat {n : Nat} {k : Int} {c : Char}
    (h : c ∈ (Decimal.ofNat n k).digits) : c.isDigit = true :=
  isDigit_of_mem_toDigits (Text.mem_of_mem_dropEndWhile h)

/-- The search for the shortest decimal ends with digits, on whichever grid it
ends. -/
theorem isDigit_of_mem_shortestFrom {tie : Tie} {d : Double}
    {count more : Nat} {c : Char}
    (h : c ∈ (shortestFrom tie d count more).digits) : c.isDigit = true := by
  induction more generalizing count with
  | zero =>
      cases List.mem_singleton.1 h
      rfl
  | succ more ih =>
      rw [shortestFrom] at h
      cases hgrid : onGrid tie d (d.decimalMagnitude - count) with
      | none =>
          simp only [hgrid] at h
          exact ih h
      | some n =>
          simp only [hgrid] at h
          exact Decimal.isDigit_of_mem_ofNat h

theorem isDigit_of_mem_shortest {tie : Tie} {d : Double} {c : Char}
    (h : c ∈ (d.shortest tie).digits) : c.isDigit = true := by
  unfold shortest at h
  split at h
  · cases List.mem_singleton.1 h
    rfl
  · exact isDigit_of_mem_shortestFrom h

/-- Whether a number may be written with the character. -/
def isNumeralChar (c : Char) : Bool :=
  c.isDigit || c == '+' || c == '-' || c == '.' || c == 'e'

theorem isNumeralChar_of_isDigit {c : Char} (h : c.isDigit = true) :
    isNumeralChar c = true := by
  simp [isNumeralChar, h]

theorem isNumeralChar_of_mem_replicate {n : Nat} {c : Char}
    (h : c ∈ List.replicate n '0') :
    isNumeralChar c = true := by
  rw [List.eq_of_mem_replicate h]
  rfl

/-- With the point in its place a number has digits, zeros and a point. -/
theorem isNumeralChar_of_mem_positionalText {wholePoint : Bool}
    {digits : List Char} {point : Int} (all : ∀ c ∈ digits, c.isDigit = true) :
    ∀ c ∈ positionalText wholePoint digits point, isNumeralChar c = true := by
  have hdigits : ∀ c ∈ digits, isNumeralChar c = true :=
    fun c hc => isNumeralChar_of_isDigit (all c hc)
  unfold positionalText
  split
  · refine List.forall_mem_cons.2 ⟨rfl, List.forall_mem_cons.2 ⟨rfl, ?_⟩⟩
    exact List.forall_mem_append.2
      ⟨fun c => isNumeralChar_of_mem_replicate, hdigits⟩
  · split
    · refine List.forall_mem_append.2
        ⟨fun c hc => hdigits c (List.mem_of_mem_take hc), ?_⟩
      exact List.forall_mem_cons.2
        ⟨rfl, fun c hc => hdigits c (List.mem_of_mem_drop hc)⟩
    · refine List.forall_mem_append.2
        ⟨List.forall_mem_append.2
          ⟨hdigits, fun c => isNumeralChar_of_mem_replicate⟩, ?_⟩
      split
      · exact List.all_eq_true.1 rfl
      · nofun

/-- With a power of ten it has digits, a point, and the power with its sign.
-/
theorem isNumeralChar_of_mem_exponentialText {digits : List Char}
    {exponent : Int} (all : ∀ c ∈ digits, c.isDigit = true) :
    ∀ c ∈ exponentialText digits exponent, isNumeralChar c = true := by
  have hdigits : ∀ c ∈ digits, isNumeralChar c = true :=
    fun c hc => isNumeralChar_of_isDigit (all c hc)
  refine List.forall_mem_append.2 ⟨?_, List.forall_mem_cons.2 ⟨rfl, ?_⟩⟩
  · match digits, hdigits with
    | [], _ => nofun
    | [d], hdigits => exact hdigits
    | d :: e :: rest, hdigits =>
        obtain ⟨hd, hrest⟩ := List.forall_mem_cons.1 hdigits
        exact List.forall_mem_cons.2 ⟨hd, List.forall_mem_cons.2 ⟨rfl, hrest⟩⟩
  · refine List.forall_mem_cons.2 ⟨by split <;> rfl, fun c hc => ?_⟩
    exact isNumeralChar_of_isDigit (isDigit_of_mem_toDigits hc)

/-- The text of a number consists of digits, signs, points and the mark of a
power. -/
theorem Layout.isNumeralChar_of_mem_text (layout : Layout) (d : Double) :
    ∀ c ∈ (layout.text d).toList, isNumeralChar c = true := by
  unfold Layout.text
  rw [String.toList_ofList]
  refine List.forall_mem_append.2 ⟨?_, ?_⟩
  · split
    · exact List.forall_mem_singleton.2 rfl
    · nofun
  · have hdigits : ∀ c ∈ (d.shortest layout.tie).digits, c.isDigit = true :=
      fun c => isDigit_of_mem_shortest
    split
    · exact isNumeralChar_of_mem_positionalText hdigits
    · split
      · exact isNumeralChar_of_mem_positionalText hdigits
      · exact isNumeralChar_of_mem_exponentialText hdigits

end Double
end Prerender
