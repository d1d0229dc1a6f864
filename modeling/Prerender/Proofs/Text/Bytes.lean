/-
The order of texts.

Names of files and keys of objects are compared by the program byte by
byte, texts here character by character. Both come to the same
(`bytes_lt_iff`), because of how the encoding is made: the first byte of
a character tells how many follow, longer encodings begin with greater
bytes, and within one length the bits of the number stand in their
order. So the bytes of a character come before those of a greater one,
whatever follows them (`utf8EncodeChar_lt`), and a text is compared like
the row of its characters.

The encoding is met once, in `utf8EncodeChar_cases`. It gives the bytes
of a character by the division of its number by 64, from which on the
order is a matter of linear arithmetic. The reader of bytes in
`Proofs/Text/OsText` uses the same four cases.

`ByteAscending` is for statements about what the program sorts: it says
that texts stand in the order of their bytes, and is the order of texts
itself (`byteAscending_iff`).
-/
namespace Prerender.Text

/-- The bytes of a text. -/
def bytes (text : String) : List UInt8 := text.toUTF8.data.toList

/-- The bytes of a text are those of its characters in a row. -/
theorem bytes_eq (text : String) :
    bytes text = text.toList.flatMap String.utf8EncodeChar := by
  rw [bytes, String.toUTF8, ← String.utf8Encode_toList, List.utf8Encode,
    List.data_toByteArray]

/-- Bytes given as numbers are compared as numbers. -/
theorem cons_ofNat_lt_iff {m n : Nat} (hm : m < 256) (hn : n < 256)
    {front back : List UInt8} :
    UInt8.ofNat m :: front < UInt8.ofNat n :: back ↔ m < n ∨ m = n
      ∧ front < back := by
  rw [List.cons_lt_cons_iff, UInt8.lt_iff_toNat_lt, ← UInt8.toNat_inj,
    UInt8.toNat_ofNat', UInt8.toNat_ofNat', Nat.mod_eq_of_lt hm,
    Nat.mod_eq_of_lt hn]

/-- A character has one to four bytes; each but the first has six of its
bits. -/
theorem utf8EncodeChar_cases (c : Char) : let n :=
  c.val.toNat
    (n < 0x80 ∧ String.utf8EncodeChar c = [.ofNat n])
    ∨ (0x80 ≤ n ∧ n < 0x800
      ∧ String.utf8EncodeChar c
        = [.ofNat (n / 64 + 192), .ofNat (n % 64 + 128)])
    ∨ (0x800 ≤ n ∧ n < 0x10000 ∧ String.utf8EncodeChar c
      = [.ofNat (n / 64 / 64 + 224), .ofNat (n / 64 % 64 + 128),
        .ofNat (n % 64 + 128)])
    ∨ (0x10000 ≤ n ∧ n < 0x110000 ∧ String.utf8EncodeChar c
      = [.ofNat (n / 64 / 64 / 64 + 240), .ofNat (n / 64 / 64 % 64 + 128),
        .ofNat (n / 64 % 64 + 128), .ofNat (n % 64 + 128)]) := by
  have hn : c.val.toNat < 0x110000 := by
    rcases c.valid with h | ⟨-, h⟩
    · exact Nat.lt_trans h (by decide)
    · exact h
  -- from here on only the number of the character matters
  unfold String.utf8EncodeChar
  generalize c.val.toNat = n at *
  intro
  have h₂ : n / 64 / 64 = n / 4096 := Nat.div_div_eq_div_mul ..
  have h₃ : n / 64 / 64 / 64 = n / 262144 := by
    rw [h₂]; exact Nat.div_div_eq_div_mul ..
  dsimp only
  rw [h₃, h₂]
  split
  · -- one byte, then two, three and four; the first one has the bits that are
    -- left
    exact Or.inl ⟨by omega, rfl⟩
  · split
    · refine Or.inr (Or.inl ⟨by omega, by omega, ?_⟩)
      rw [Nat.mod_eq_of_lt (by omega : n / 64 < 32)]
    · split
      · refine Or.inr (Or.inr (Or.inl ⟨by omega, by omega, ?_⟩))
        rw [Nat.mod_eq_of_lt (by omega : n / 4096 < 16)]
      · refine Or.inr (Or.inr (Or.inr ⟨by omega, by omega, ?_⟩))
        rw [Nat.mod_eq_of_lt (by omega : n / 262144 < 8)]

/-- The bytes of a character come before those of a greater one. -/
theorem utf8EncodeChar_lt {c d : Char} (h : c < d) (front back : List UInt8) :
    String.utf8EncodeChar c ++ front < String.utf8EncodeChar d ++ back := by
  have hlt : c.val.toNat < d.val.toNat := h
  -- fewer bytes start with a lower one; as many compare like the digits of a
  -- number to base 64
  rcases utf8EncodeChar_cases c with hc | hc | hc | hc <;>
    rcases utf8EncodeChar_cases d with hd | hd | hd | hd
  all_goals
    simp only [hc, hd, List.cons_append, List.nil_append]
    simp (disch := omega) only [cons_ofNat_lt_iff]
    omega

/-- The bytes of characters are in the order of the characters. -/
theorem flatMap_utf8EncodeChar_lt {cs ds : List Char} (h : cs < ds) :
    cs.flatMap String.utf8EncodeChar < ds.flatMap String.utf8EncodeChar := by
  induction h with
  | @nil d ds =>
      rw [List.flatMap_nil, List.flatMap_cons]
      cases hd : String.utf8EncodeChar d with
      | nil => exact absurd hd String.utf8EncodeChar_ne_nil
      | cons byte rest => exact List.nil_lt_cons ..
  | @rel c cs d ds h =>
      rw [List.flatMap_cons, List.flatMap_cons]
      exact utf8EncodeChar_lt h _ _
  | @cons c cs ds _ ih =>
      rw [List.flatMap_cons, List.flatMap_cons]
      exact List.append_left_lt ih

/-- The order of texts is that of their bytes. -/
theorem bytes_lt_iff {a b : String} : bytes a < bytes b ↔ a < b := by
  have hmono : ∀ {a b : String}, a < b → bytes a < bytes b := by
    intro a b h
    rw [bytes_eq, bytes_eq]
    exact flatMap_utf8EncodeChar_lt (String.lt_iff.1 h)
  refine ⟨fun h => String.not_le.1 fun hle => ?_, hmono⟩
  by_cases heq : b = a
  · rw [heq] at h
    exact List.lt_irrefl _ h
  · exact List.lt_asymm h
      (hmono (String.not_le.1 fun hge => heq (String.le_antisymm hle hge)))

/-- The same for texts that may be equal. -/
theorem bytes_le_iff {a b : String} : bytes a ≤ bytes b ↔ a ≤ b := by
  rw [← String.not_lt, ← bytes_lt_iff, List.not_lt]

/-- Texts stand in strictly ascending order of their bytes. -/
def ByteAscending (texts : List String) : Prop :=
  texts.Pairwise fun a b => bytes a < bytes b

theorem byteAscending_iff {texts : List String} :
    ByteAscending texts ↔ texts.Pairwise (· < ·) :=
  ⟨fun h => h.imp bytes_lt_iff.1, fun h => h.imp bytes_lt_iff.2⟩

end Prerender.Text
