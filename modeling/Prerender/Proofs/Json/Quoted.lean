/-
Reading quoted text undoes quoting it.

A quoted text stands between quotes, and a quote in it is escaped. So
the closing quote is the first one that is not, and whatever is in the
text and behind it, reading finds the text and what stands behind
(`readQuoted_quoted`). A quoted text therefore tells the text and ends
at its closing quote (`eq_of_quoted_append`).

One character decides between two cases (`quotedChar_cases`): it stands
for itself, being neither a quote nor a backslash nor a control
character, or it has an escape that is read as the character. The short
escapes are checked one by one, those of other control characters by
their number (`readCodePoint_control`). The reader has a bound on its
steps, which the text that is read is shorter than in any case.
-/
import Prerender.Json.Reader
import Prerender.Proofs.Text.Told

namespace Prerender.Json

theorem hexValue?_hexDigit {n : Nat} (h : n < 16) :
    hexValue? (hexDigit n) = some n := by
  have hall : ∀ n < 16, hexValue? (hexDigit n) = some n := by decide
  exact hall n h

/-- The escape of a control character by its number. -/
theorem readCodePoint_control {n : Nat} (h : n < 32) (rest : List Char) :
    readCodePoint ('0' :: '0' :: hexDigit (n / 16) :: hexDigit (n % 16) :: rest)
      = some (Char.ofNat n, rest) := by
  have hunit : readUnit
    ('0' :: '0' :: hexDigit (n / 16) :: hexDigit (n % 16) :: rest)
      = some (n, rest) := by
    have hzero : hexValue? '0' = some 0 := by decide
    have hsum : ((0 * 16 + 0) * 16 + n / 16) * 16 + n % 16 = n := by omega
    simp only [readUnit, hzero, hexValue?_hexDigit (show n / 16 < 16 by omega),
      hexValue?_hexDigit (show n % 16 < 16 by omega), Option.bind_eq_bind,
      Option.bind_some, hsum]
  rw [readCodePoint, hunit]
  show (if _ then _ else _) = _
  rw [if_neg (by omega), if_neg (by omega)]

/-- A character inside quotes is itself, or its escape. -/
theorem quotedChar_cases (c : Char) :
    (quotedChar c = [c] ∧ c ≠ '\x22' ∧ c ≠ '\x5c' ∧ ¬ c.toNat < 32)
      ∨ ∃ escape, quotedChar c = '\x5c' :: escape
          ∧ ∀ rest, readEscape (escape ++ rest) = some (c, rest) := by
  unfold quotedChar
  split
  · exact Or.inr ⟨_, rfl, fun _ => rfl⟩
  · exact Or.inr ⟨_, rfl, fun _ => rfl⟩
  · exact Or.inr ⟨_, rfl, fun _ => rfl⟩
  · exact Or.inr ⟨_, rfl, fun _ => rfl⟩
  · exact Or.inr ⟨_, rfl, fun _ => rfl⟩
  · exact Or.inr ⟨_, rfl, fun _ => rfl⟩
  · exact Or.inr ⟨_, rfl, fun _ => rfl⟩
  · next hquote hbackslash _ _ _ _ _ =>
    split
    · next hcontrol =>
      refine Or.inr ⟨_, rfl, fun rest => ?_⟩
      have hread := readCodePoint_control hcontrol rest
      rw [Char.ofNat_toNat] at hread
      exact hread
    · next hcontrol => exact Or.inl ⟨rfl, hquote, hbackslash, hcontrol⟩

/-- Reading what stands between quotes gives the text, up to the closing one. -/
theorem readQuoted_quoted (cs read rest : List Char) {steps : Nat}
    (enough : cs.length < steps) :
    readQuoted read steps (cs.flatMap quotedChar ++ '\x22' :: rest)
      = some (String.ofList (read.reverse ++ cs), rest) := by
  induction cs generalizing read steps with
  | nil =>
      obtain ⟨steps, rfl⟩ : ∃ n, steps = n + 1 := ⟨steps - 1, by omega⟩
      rw [List.flatMap_nil, List.nil_append, readQuoted, List.append_nil]
  | cons c cs ih =>
      obtain ⟨steps, rfl⟩ : ∃ n, steps = n + 1 := ⟨steps - 1, by omega⟩
      have hrest : readQuoted (c :: read) steps
        (cs.flatMap quotedChar ++ '\x22' :: rest) = _ :=
        ih (c :: read) (by simpa using enough)
      rw [List.reverse_cons, List.append_assoc, List.singleton_append] at hrest
      rw [List.flatMap_cons, List.append_assoc]
      rcases quotedChar_cases c with
        ⟨hself, hquote, hbackslash, hcontrol⟩ | ⟨escape, hescape, hread⟩
      · rw [hself, List.singleton_append, readQuoted]
        · rw [if_neg hcontrol]
          exact hrest
        · exact fun h => hquote h
        · exact fun h => hbackslash h
      · rw [hescape, List.cons_append, readQuoted, hread]
        exact hrest

/-- A quoted text tells the text, whatever follows. -/
theorem eq_of_quoted_append {s t u v : String}
    (h : quoted s ++ u = quoted t ++ v) :
    s = t ∧ u = v := by
  have hwritten : ∀ s u : String, (quoted s ++ u).toList
      = '\x22' :: (s.toList.flatMap quotedChar ++ '\x22' :: u.toList) := by
    intro s u
    rw [String.toList_append, quoted, String.toList_ofList, List.cons_append,
      List.append_assoc]
    rfl
  have hlist := congrArg String.toList h
  rw [hwritten, hwritten] at hlist
  injection hlist with _ hlist
  -- One number of steps is enough for both.
  have hs := readQuoted_quoted s.toList [] u.toList
    (show s.toList.length < max s.toList.length t.toList.length + 1 by omega)
  have ht := readQuoted_quoted t.toList [] v.toList
    (show t.toList.length < max s.toList.length t.toList.length + 1 by omega)
  rw [hlist, ht] at hs
  simp only [List.reverse_nil, List.nil_append, String.ofList_toList,
    Option.some.injEq, Prod.mk.injEq, String.toList_inj] at hs
  exact ⟨hs.1.symm, hs.2.symm⟩

/-- Quoted texts are the same only for the same text. -/
theorem quoted_inj {s t : String} (h : quoted s = quoted t) : s = t :=
  (eq_of_quoted_append (congrArg (· ++ "") h)).1

theorem startsWith_quoted {p : Char → Bool} (hp : p '\x22' = true)
    (s : String) :
    Text.StartsWith p (quoted s) :=
  Text.startsWith_iff.2 ⟨'\x22', _, String.toList_ofList, hp⟩

end Prerender.Json
