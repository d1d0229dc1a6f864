/-
What a text loses and keeps when the operating system has it as bytes.

Nothing is lost: read as UTF-8, the bytes of a text are the text again
(`OsText.lossy_ofText`). So texts with the same bytes are the same
(`OsText.ofText_inj`), and `OsText.text?` gives a text exactly for its
own bytes (`OsText.text?_eq_some_iff`). Of bytes that are not those of a
text nothing of the kind can be said; many of them read the same, and
`IsUnicode` is what a statement has to ask for where that matters.

The reader goes byte by byte, and between two bytes it knows the bits
that it has read of a character, how many bytes are to come, and between
which bounds the next one has to be. Its steps are stated once each: a
byte between characters (`readBytes_begin`), a byte that a begun
character goes on with (`readBytes_next`), and its last one
(`readBytes_last`). A character is then read in as many of these steps
as it has bytes, with the numbers of `Text.utf8EncodeChar_cases` in the
place of its bits (`readBytes_utf8EncodeChar`), and a text character by
character.

The bounds of the second byte are the only place where it matters that
the number is one of a character: they keep out shorter encodings, which
the first byte already forbids, and surrogates, which no character is.

A slash is a byte of its own. Hence what begins or ends with one, and
the parts of a path, can be told from the text as well as from its bytes
(`head?_ofText`, `getLast?_ofText`).
-/
import Prerender.Proofs.Text.Bytes
import Prerender.Text.OsText

namespace Prerender.OsText

-- ============================================================ plain bytes

section
variable {front back text : OsText}

/-- A text of the system is its bytes, and has nothing else to it. -/
theorem bytes_inj : front.bytes = back.bytes ↔ front = back := by
  cases front
  cases back
  exact (OsText.mk.injEq ..).symm.to_iff

@[simp] theorem bytes_append (front back : OsText) :
    (front ++ back).bytes = front.bytes ++ back.bytes := rfl

/-- Texts in a row may be put together in any order. -/
theorem append_assoc (a b c : OsText) : a ++ b ++ c = a ++ (b ++ c) :=
  bytes_inj.1 (List.append_assoc ..)

theorem bytes_empty : (ofText "").bytes = [] := rfl

theorem empty_append (text : OsText) : ofText "" ++ text = text := rfl

theorem append_empty (text : OsText) : text ++ ofText "" = text :=
  bytes_inj.1 (List.append_nil _)

/-- There are no bytes only where there is no text. -/
theorem bytes_eq_nil_iff : text.bytes = [] ↔ text = ofText "" := by
  rw [← bytes_empty, bytes_inj]

/-- The test finds the text without bytes. -/
theorem isEmpty_iff : text.isEmpty = true ↔ text = ofText "" := by
  rw [isEmpty, List.isEmpty_iff, bytes_eq_nil_iff]

theorem isEmpty_eq_false_iff : text.isEmpty = false ↔ text ≠ ofText "" := by
  rw [← Bool.not_eq_true, Ne, isEmpty_iff]

/-- Nothing is made of nothing but of nothing. -/
theorem append_eq_empty_iff :
    front ++ back = ofText "" ↔ front = ofText "" ∧ back = ofText "" := by
  simp only [← bytes_eq_nil_iff, bytes_append, List.append_eq_nil_iff]

theorem size_append (front back : OsText) :
    (front ++ back).size = front.size + back.size := List.length_append

end

-- ========================================================= bytes of texts

/-- The bytes of texts in a row are those of the texts in a row. -/
theorem ofText_append (front back : String) :
    ofText (front ++ back) = ofText front ++ ofText back := by
  rw [← bytes_inj, bytes_append, ofText, ofText, ofText, String.toList_append,
    List.flatMap_append]

/-- The first character of a text has the first bytes. -/
theorem ofText_ofList_cons (c : Char) (cs : List Char) :
    ofText (String.ofList (c :: cs))
      = ofText (String.ofList [c]) ++ ofText (String.ofList cs) := by
  rw [← ofText_append, ← String.ofList_append, List.singleton_append]

-- ============================================================ plain ends

/-- A byte below 0x80 is the only one of its character. -/
theorem utf8EncodeChar_of_mem {n : Nat} (plain : n < 0x80) {c : Char}
    (h : UInt8.ofNat n ∈ String.utf8EncodeChar c) :
    c.val.toNat = n ∧ String.utf8EncodeChar c = [UInt8.ofNat n] := by
  have hbyte : ∀ {m}, m < 256 → UInt8.ofNat n = UInt8.ofNat m → n = m := by
    intro m hm heq
    rw [← UInt8.toNat_inj, UInt8.toNat_ofNat', UInt8.toNat_ofNat'] at heq
    omega
  rcases Text.utf8EncodeChar_cases c with ⟨hc, heq⟩ | ⟨hlow, hc, heq⟩
    | ⟨hlow, hc, heq⟩ | ⟨hlow, hc, heq⟩ <;> rw [heq] at h
  · have hn := hbyte (by omega) (List.mem_singleton.1 h)
    rw [heq, hn]
    exact ⟨rfl, rfl⟩
  -- every byte of a longer encoding is greater
  all_goals
    exfalso
    simp only [List.mem_cons, List.not_mem_nil, or_false] at h
  · rcases h with h | h <;> have hn := hbyte (by omega) h <;> omega
  · rcases h with h | h | h <;> have hn := hbyte (by omega) h <;> omega
  · rcases h with h | h | h | h <;> have hn := hbyte (by omega) h <;> omega

theorem utf8EncodeChar_plain {c : Char} (plain : c.val.toNat < 0x80) :
    String.utf8EncodeChar c = [UInt8.ofNat c.val.toNat] := by
  rcases Text.utf8EncodeChar_cases c with
    ⟨-, heq⟩ | ⟨hlow, -⟩ | ⟨hlow, -⟩ | ⟨hlow, -⟩
  · exact heq
  all_goals exact absurd plain (Nat.not_lt.2 (Nat.le_trans (by decide) hlow))

variable {text : String} {c : Char}

/-- A text begins with a plain character exactly if its bytes do. -/
theorem head?_ofText (plain : c.val.toNat < 0x80) :
    (ofText text).bytes.head? = some (UInt8.ofNat c.val.toNat)
      ↔ text.toList.head? = some c := by
  rw [ofText]
  cases text.toList with
  | nil => exact iff_of_false nofun nofun
  | cons d rest =>
      rw [List.head?_cons, Option.some_inj, List.flatMap_cons,
        List.head?_append]
      constructor
      · intro h
        cases hd : String.utf8EncodeChar d with
        | nil => exact absurd hd String.utf8EncodeChar_ne_nil
        | cons byte more =>
            -- the first byte is one of the first character, and as a plain
            -- one its only byte
            rw [hd, List.head?_cons, Option.some_or, Option.some_inj] at h
            have hmem : UInt8.ofNat c.val.toNat ∈ String.utf8EncodeChar d := by
              rw [hd, h]
              exact .head _
            exact Char.ext (UInt32.toNat_inj.1
              (utf8EncodeChar_of_mem plain hmem).1)
      · rintro rfl
        rw [utf8EncodeChar_plain plain]
        rfl

/-- A text ends with a plain character exactly if its bytes do. -/
theorem getLast?_ofText (plain : c.val.toNat < 0x80) :
    (ofText text).bytes.getLast? = some (UInt8.ofNat c.val.toNat)
      ↔ text.toList.getLast? = some c := by
  rw [ofText]
  rcases List.eq_nil_or_concat text.toList with h | ⟨front, d, h⟩
  · rw [h]
    exact iff_of_false nofun nofun
  · rw [h, List.concat_eq_append, List.getLast?_concat, Option.some_inj,
      List.flatMap_append, List.flatMap_singleton, List.getLast?_append]
    constructor
    · intro hlast
      cases hd : (String.utf8EncodeChar d).getLast? with
      | none =>
          exact absurd (List.getLast?_eq_none_iff.1 hd)
            String.utf8EncodeChar_ne_nil
      | some byte =>
          -- the same at the other end
          rw [hd, Option.some_or, Option.some_inj] at hlast
          have hmem := List.mem_of_getLast? (hlast ▸ hd)
          exact Char.ext
            (UInt32.toNat_inj.1 (utf8EncodeChar_of_mem plain hmem).1)
    · rintro rfl
      rw [utf8EncodeChar_plain plain]
      rfl

-- ================================================================ reading

section
variable {n : Nat} {begun : Begun}

/-- A byte between characters: it completes one, or begins one. -/
theorem readBytes_begin (h : n < 256) (rest : List UInt8) :
    readBytes none (UInt8.ofNat n :: rest)
      = (beginChar n).1 ++ readBytes (beginChar n).2 rest := by
  rw [readBytes, UInt8.toNat_ofNat', Nat.mod_eq_of_lt h]
  rfl

/-- A byte that a begun character goes on with, but does not end with. -/
theorem readBytes_next (h : n < 64) (low : begun.low ≤ n + 128)
    (high : n + 128 ≤ begun.high) (more : begun.missing ≠ 1)
    (rest : List UInt8) :
    readBytes (some begun) (UInt8.ofNat (n + 128) :: rest)
      = readBytes (some ⟨begun.bits * 64 + n, begun.missing - 1, 0x80, 0xbf⟩)
        rest := by
  rw [readBytes, UInt8.toNat_ofNat', Nat.mod_eq_of_lt (by omega), readByte,
    if_pos ⟨low, high⟩, Nat.add_sub_cancel, if_neg more]
  rfl

/-- The byte that a begun character ends with. -/
theorem readBytes_last (h : n < 64) (low : begun.low ≤ n + 128)
    (high : n + 128 ≤ begun.high) (last : begun.missing = 1)
    (rest : List UInt8) :
    readBytes (some begun) (UInt8.ofNat (n + 128) :: rest)
      = Char.ofNat (begun.bits * 64 + n) :: readBytes none rest := by
  rw [readBytes, UInt8.toNat_ofNat', Nat.mod_eq_of_lt (by omega), readByte,
    if_pos ⟨low, high⟩, Nat.add_sub_cancel, if_pos last]
  rfl

end

/-- The bytes of a character are read as the character. -/
theorem readBytes_utf8EncodeChar (c : Char) (rest : List UInt8) :
    readBytes none (String.utf8EncodeChar c ++ rest) = c
      :: readBytes none rest := by
  have hchar : ∀ {n}, n = c.val.toNat → Char.ofNat n = c := by
    rintro n rfl
    exact Char.ofNat_toNat c
  -- the numbers of surrogates, which the second of three bytes keeps out
  have hvalid : c.val.toNat < 0xd800 ∨ 0xdfff < c.val.toNat :=
    c.valid.imp id And.left
  rcases Text.utf8EncodeChar_cases c with
    ⟨h, heq⟩ | ⟨hlow, h, heq⟩ | ⟨hlow, h, heq⟩ | ⟨hlow, h, heq⟩
    <;> rw [heq] <;> simp only [List.cons_append, List.nil_append]
  · -- one byte
    rw [readBytes_begin (by omega), beginChar, if_pos h, hchar rfl]
    rfl
  · -- two bytes
    rw [readBytes_begin (by omega), beginChar, if_neg (by omega),
      if_neg (by omega), if_pos (by omega)]
    show readBytes _ _ = _
    rw [readBytes_last (by omega) (by dsimp only; omega)
      (by dsimp only; omega) rfl, hchar]
    dsimp only
    omega
  · -- three bytes; the second one tells apart shorter encodings and surrogates
    rw [readBytes_begin (by omega), beginChar, if_neg (by omega),
      if_neg (by omega), if_neg (by omega), if_pos (by omega)]
    show readBytes _ _ = _
    rw [readBytes_next (by omega) (by dsimp only; split <;> omega)
        (by dsimp only; split <;> omega) (by dsimp only; decide),
      readBytes_last (by omega) (by dsimp only; omega)
      (by dsimp only; omega) rfl, hchar]
    dsimp only
    omega
  · -- four bytes; the second one tells apart what is too short or too great
    rw [readBytes_begin (by omega), beginChar, if_neg (by omega),
      if_neg (by omega), if_neg (by omega), if_neg (by omega),
      if_pos (by omega)]
    show readBytes _ _ = _
    rw [readBytes_next (by omega) (by dsimp only; split <;> omega)
        (by dsimp only; split <;> omega) (by dsimp only; decide),
      readBytes_next (by omega) (by dsimp only; omega) (by dsimp only; omega)
      (by dsimp only; decide), readBytes_last (by omega) (by dsimp only; omega)
      (by dsimp only; omega) rfl, hchar]
    dsimp only
    omega

/-- The bytes of characters in a row are read as the characters. -/
theorem readBytes_flatMap (cs : List Char) :
    readBytes none (cs.flatMap String.utf8EncodeChar) = cs := by
  induction cs with
  | nil => rfl
  | cons c rest ih => rw [List.flatMap_cons, readBytes_utf8EncodeChar, ih]

/-- A text that was given as bytes is read from them as it was. -/
@[simp] theorem lossy_ofText (text : String) : (ofText text).lossy = text := by
  rw [lossy, ofText, readBytes_flatMap, String.ofList_toList]

/-- Texts with the same bytes are the same. -/
theorem ofText_inj {a b : String} : ofText a = ofText b ↔ a = b := by
  refine ⟨fun h => ?_, congrArg ofText⟩
  rw [← lossy_ofText a, h, lossy_ofText]

/-- What can be told as a text is that text in bytes. -/
theorem text?_eq_some_iff {text : OsText} {read : String} :
    text.text? = some read ↔ text = ofText read := by
  rw [text?, Option.ite_none_right_eq_some, Option.some_inj]
  constructor
  · rintro ⟨h, rfl⟩
    exact h.symm
  · rintro rfl
    exact ⟨by rw [lossy_ofText], lossy_ofText read⟩

@[simp] theorem text?_ofText (text : String) : (ofText text).text?
  = some text :=
  text?_eq_some_iff.2 rfl

/-- Whether the bytes are those of a text. -/
def IsUnicode (text : OsText) : Prop := ∃ read, text = ofText read

instance (text : OsText) : Decidable text.IsUnicode :=
  decidable_of_iff (text.text?.isSome = true) <|
    Option.isSome_iff_exists.trans (exists_congr fun _ => text?_eq_some_iff)

/-- The bytes of a text are those of a text. -/
theorem isUnicode_ofText (text : String) : IsUnicode (ofText text) :=
  ⟨text, rfl⟩

end Prerender.OsText
