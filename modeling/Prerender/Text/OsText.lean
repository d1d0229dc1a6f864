/-
Text of the operating system, as the names and the paths of files are given
in it. It is a list of bytes. Mostly these are the encoding of a text
(`OsText.ofText`), and a text stands for them wherever such a list is
expected, but any other bytes will do for a name as well.

Where a text is asked for, the bytes are read as UTF-8 (`OsText.lossy`).
Whatever no character begins with stands as a replacement character: a byte
that is out of place, or the longest beginning of a character that does not
go on. Bytes that are different may therefore read the same. They are the
encoding of a text exactly if nothing was replaced, and `OsText.text?` gives
the text only then.
-/
namespace Prerender

/-- Text as the operating system has it: bytes, whatever they are. -/
structure OsText where
  bytes : List UInt8
deriving DecidableEq

namespace OsText

/-- A text in UTF-8. -/
def ofText (text : String) : OsText :=
  ⟨text.toList.flatMap String.utf8EncodeChar⟩

instance : Coe String OsText := ⟨ofText⟩

instance : Append OsText := ⟨fun front back => ⟨front.bytes ++ back.bytes⟩⟩

/-- Whether there is nothing in it. -/
def isEmpty (text : OsText) : Bool := text.bytes.isEmpty

/-- The length in bytes. -/
def size (text : OsText) : Nat := text.bytes.length

-- ============================================================== reading

/-- What is shown for bytes that are no character. -/
def replacement : Char := '\ufffd'

/-- A character that was begun. -/
structure Begun where
  /-- The bits that were read. -/
  bits : Nat
  /-- How many bytes there are to come. -/
  missing : Nat
  /-- The least value that the next of them can have. -/
  low : Nat
  /-- The greatest value that the next of them can have. -/
  high : Nat

/-- Reads a byte between characters: the characters that it completes, and
the one that it begins. A second byte is held to bounds of its own where a
shorter encoding, a surrogate or a number beyond the last character would
come of others. -/
def beginChar (byte : Nat) : List Char × Option Begun :=
  if byte < 0x80 then ([Char.ofNat byte], none)
  else if byte < 0xc2 then ([replacement], none)
  else if byte < 0xe0 then ([], some ⟨byte - 0xc0, 1, 0x80, 0xbf⟩)
  else if byte < 0xf0 then
    ([], some ⟨byte - 0xe0, 2, if byte = 0xe0 then 0xa0 else 0x80,
      if byte = 0xed then 0x9f else 0xbf⟩)
  else if byte < 0xf5 then
    ([], some ⟨byte - 0xf0, 3, if byte = 0xf0 then 0x90 else 0x80,
      if byte = 0xf4 then 0x8f else 0xbf⟩)
  else ([replacement], none)

/-- Reads a byte. One that a begun character does not go on with is read
between characters, and what was begun is replaced. -/
def readByte (byte : Nat) : Option Begun → List Char × Option Begun
  | none => beginChar byte
  | some begun =>
      if begun.low ≤ byte ∧ byte ≤ begun.high then
        let bits := begun.bits * 64 + (byte - 0x80)
        if begun.missing = 1 then ([Char.ofNat bits], none)
        else ([], some ⟨bits, begun.missing - 1, 0x80, 0xbf⟩)
      else
        let (chars, next) := beginChar byte
        (replacement :: chars, next)

/-- Reads bytes behind those of a begun character. -/
def readBytes : Option Begun → List UInt8 → List Char
  | none, [] => []
  | some _, [] => [replacement]
  | begun, byte :: rest =>
      let (chars, next) := readByte byte.toNat begun
      chars ++ readBytes next rest

/-- The bytes as a text, with replacement characters where they are none. -/
def lossy (text : OsText) : String := String.ofList (readBytes none text.bytes)

/-- The text that the bytes are the encoding of, if there is one. -/
def text? (text : OsText) : Option String :=
  if ofText text.lossy = text then some text.lossy else none

end OsText
end Prerender
