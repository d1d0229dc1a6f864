/-
Reading JSON text. A numeral without point and power of ten that fits
sixty-four bits, signed or unsigned, is a whole number and every other one a
double. The reader walks the characters with a bound on its steps, one more
than there are characters, which no text uses up.
-/
import Prerender.Json.Basic
import Prerender.Number.Reading

namespace Prerender.Json

/-- The text after the blanks that JSON allows between tokens. -/
def skipBlanks (cs : List Char) : List Char :=
  cs.dropWhile fun c => c == ' ' || c == '\t' || c == '\n' || c == '\r'

/-- The value of a hexadecimal digit. -/
def hexValue? (c : Char) : Option Nat :=
  if '0' ≤ c ∧ c ≤ '9' then some (c.toNat - 48)
  else if 'a' ≤ c ∧ c ≤ 'f' then some (c.toNat - 87)
  else if 'A' ≤ c ∧ c ≤ 'F' then some (c.toNat - 55)
  else none

/-- The value of four hexadecimal digits and what follows them. -/
def readUnit : List Char → Option (Nat × List Char)
  | a :: b :: c :: d :: rest => do
      let a ← hexValue? a
      let b ← hexValue? b
      let c ← hexValue? c
      let d ← hexValue? d
      some (((a * 16 + b) * 16 + c) * 16 + d, rest)
  | _ => none

/-- The character of an escape by number, which takes two units beyond the
basic plane. -/
def readCodePoint (cs : List Char) : Option (Char × List Char) := do
  let (unit, rest) ← readUnit cs
  if 0xD800 ≤ unit ∧ unit < 0xDC00 then
    match rest with
    | '\x5c' :: 'u' :: more =>
        let (second, rest) ← readUnit more
        if 0xDC00 ≤ second ∧ second < 0xE000 then
          some (Char.ofNat
            (0x10000 + (unit - 0xD800) * 0x400 + (second - 0xDC00)), rest)
        else none
    | _ => none
  else if 0xDC00 ≤ unit ∧ unit < 0xE000 then none
  else some (Char.ofNat unit, rest)

/-- The character of an escape, read after its backslash. -/
def readEscape : List Char → Option (Char × List Char)
  | '\x22' :: rest => some ('\x22', rest)
  | '\x5c' :: rest => some ('\x5c', rest)
  | '/' :: rest => some ('/', rest)
  | 'b' :: rest => some ('\x08', rest)
  | 'f' :: rest => some ('\x0c', rest)
  | 'n' :: rest => some ('\n', rest)
  | 'r' :: rest => some ('\r', rest)
  | 't' :: rest => some ('\t', rest)
  | 'u' :: rest => readCodePoint rest
  | _ => none

/-- The rest of a quoted text, up to its closing quote; `read` holds the
characters so far, last one first. -/
def readQuoted (read : List Char) :
    Nat → List Char → Option (String × List Char)
  | 0, _ => none
  | steps + 1, cs =>
      match cs with
      | [] => none
      | '\x22' :: rest => some (String.ofList read.reverse, rest)
      | '\x5c' :: rest => do
          let (c, rest) ← readEscape rest
          readQuoted (c :: read) steps rest
      | c :: rest =>
          if c.toNat < 32 then none else readQuoted (c :: read) steps rest

/-- The value of a numeral. -/
def numeral? (cs : List Char) : Option Json :=
  let (negative, digits) := Double.readSign cs
  match Text.natOfDigits? digits with
  | some magnitude =>
      let n : Int := if negative then -magnitude else magnitude
      if -(twoTo 63 : Int) ≤ n ∧ n < twoTo 64
        ∧ ¬(negative ∧ magnitude = 0) then some (.int n)
      else some (.double (Double.ofDecimal negative magnitude 0))
  | none => (Double.readMagnitude negative digits).map .double

/-- What follows `word` in the text. -/
def afterWord (word : String) (cs : List Char) : Option (List Char) :=
  word.toList.isPrefixOf? cs

mutual

/-- A value and what follows it. -/
def readValue : Nat → List Char → Option (Json × List Char)
  | 0, _ => none
  | steps + 1, cs =>
      match skipBlanks cs with
      | '\x22' :: rest =>
          (readQuoted [] (rest.length + 1) rest).map fun (s, rest) =>
            (.str s, rest)
      | '[' :: rest =>
          match skipBlanks rest with
          | ']' :: rest => some (.arr [], rest)
          | rest => readItems [] steps rest
      | '\x7b' :: rest =>
          match skipBlanks rest with
          | '\x7d' :: rest => some (.obj [], rest)
          | rest => readMembers [] steps rest
      | 'n' :: rest => (afterWord "ull" rest).map (.null, ·)
      | 't' :: rest => (afterWord "rue" rest).map (.bool true, ·)
      | 'f' :: rest => (afterWord "alse" rest).map (.bool false, ·)
      | cs =>
          let inNumeral := fun c : Char =>
            c.isDigit || c == '-' || c == '+' || c == '.' || c
              == 'e' || c == 'E'
          (numeral? (cs.takeWhile inNumeral)).map (·, cs.dropWhile inNumeral)

/-- The items of an array up to its closing bracket; `read` holds those so
far, last one first. -/
def readItems (read : List Json) : Nat → List Char → Option (Json × List Char)
  | 0, _ => none
  | steps + 1, cs => do
      let (item, rest) ← readValue steps cs
      match skipBlanks rest with
      | ',' :: rest => readItems (item :: read) steps rest
      | ']' :: rest => some (.arr (item :: read).reverse, rest)
      | _ => none

/-- The members of an object up to its closing brace; `read` holds those so
far, last one first. -/
def readMembers (read : List (String × Json)) :
    Nat → List Char → Option (Json × List Char)
  | 0, _ => none
  | steps + 1, cs =>
      match skipBlanks cs with
      | '\x22' :: rest => do
          let (name, rest) ← readQuoted [] (rest.length + 1) rest
          match skipBlanks rest with
          | ':' :: rest =>
              let (value, rest) ← readValue steps rest
              match skipBlanks rest with
              | ',' :: rest => readMembers ((name, value) :: read) steps rest
              | '\x7d' :: rest =>
                  some (object ((name, value) :: read).reverse, rest)
              | _ => none
          | _ => none
      | _ => none

end

/-- The value that a text denotes. -/
def ofText? (s : String) : Option Json := do
  let cs := s.toList
  let (value, rest) ← readValue (cs.length + 1) cs
  if (skipBlanks rest).isEmpty then some value else none

end Prerender.Json
