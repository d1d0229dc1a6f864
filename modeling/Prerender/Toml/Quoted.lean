/-
The four quoted forms of TOML text: with escapes or without, on one line or on
several. Control characters other than the tab have to be escaped; a text on
several lines may break them.
-/
import Prerender.Json.Reader

namespace Prerender.Toml

/-- Whether a character may be written as it is. -/
def isPlain (c : Char) : Bool :=
  c == '\t' || (decide (32 ≤ c.toNat) && c.toNat != 127)

/-- The character with the number that `count` hexadecimal digits denote, and
what follows them. -/
def readHex (count : Nat) (cs : List Char) : Option (Char × List Char) := do
  let digits ← (cs.take count).mapM Json.hexValue?
  let n := digits.foldl (fun n d => 16 * n + d) 0
  if digits.length = count
    ∧ n.isValidChar then some (Char.ofNat n, cs.drop count) else none

/-- The character of an escape, read after its backslash. -/
def readEscape : List Char → Option (Char × List Char)
  | 'b' :: rest => some ('\x08', rest)
  | 't' :: rest => some ('\t', rest)
  | 'n' :: rest => some ('\n', rest)
  | 'f' :: rest => some ('\x0c', rest)
  | 'r' :: rest => some ('\r', rest)
  | 'e' :: rest => some ('\x1b', rest)
  | '\x22' :: rest => some ('\x22', rest)
  | '\x5c' :: rest => some ('\x5c', rest)
  | 'x' :: rest => readHex 2 rest
  | 'u' :: rest => readHex 4 rest
  | 'U' :: rest => readHex 8 rest
  | _ => none

/-- A text that was read and what follows it. -/
abbrev Read := Option (String × List Char)

/-- The text of the characters that were read, last one first. -/
def finish (read : List Char) (rest : List Char) : Read :=
  some (String.ofList read.reverse, rest)

/-- The rest of a text on one line, up to its closing quote. -/
def readBasic (read : List Char) : Nat → List Char → Read
  | 0, _ => none
  | steps + 1, cs =>
      match cs with
      | [] => none
      | '\x22' :: rest => finish read rest
      | '\x5c' :: rest => do
          let (c, rest) ← readEscape rest
          readBasic (c :: read) steps rest
      | c :: rest =>
          if isPlain c then readBasic (c :: read) steps rest else none

/-- The rest of a text on one line without escapes, up to its closing
apostrophe. -/
def readLiteral (read : List Char) : List Char → Read
  | [] => none
  | c :: rest =>
      if c = '\x27' then finish read rest
      else if isPlain c then readLiteral (c :: read) rest
      else none

/-- A line break and what follows it. -/
def afterBreak : List Char → Option (List Char)
  | '\n' :: rest => some rest
  | '\r' :: '\n' :: rest => some rest
  | _ => none

/-- What follows the blanks and line breaks at the front. -/
def skipBreaks : List Char → List Char
  | [] => []
  | c :: rest =>
      if c = ' ' ∨ c = '\t' ∨ c = '\n' then skipBreaks rest
      else if c = '\r' ∧ rest.head? = some '\n' then skipBreaks rest
      else c :: rest

/-- What follows a backslash that continues the line: blanks, a line break,
and everything blank after it. -/
def afterContinuation (cs : List Char) : Option (List Char) :=
  (afterBreak (cs.dropWhile fun c => c == ' ' || c == '\t')).map skipBreaks

/-- The end of a text on several lines, read at three quotes: two further
quotes still belong to the text. -/
def closeBlock (quote : Char) (read : List Char) (rest : List Char) : Read :=
  match rest with
  | a :: b :: more =>
      if a = quote ∧ b = quote then finish (quote :: quote :: read) more
      else if a = quote then finish (quote :: read) (b :: more)
      else finish read rest
  | [a] => if a = quote then finish (quote :: read) [] else finish read rest
  | [] => finish read rest

/-- The rest of a text on several lines, up to its closing quotes. -/
def readBasicBlock (read : List Char) : Nat → List Char → Read
  | 0, _ => none
  | steps + 1, cs =>
      match cs with
      | [] => none
      | '\x22' :: '\x22' :: '\x22' :: rest => closeBlock '\x22' read rest
      | '\x5c' :: rest =>
          match readEscape rest with
          | some (c, rest) => readBasicBlock (c :: read) steps rest
          | none => do readBasicBlock read steps (← afterContinuation rest)
      | '\r' :: '\n' :: rest => readBasicBlock ('\n' :: '\r' :: read) steps rest
      | c :: rest =>
          if isPlain c || c == '\n' then readBasicBlock
            (c :: read) steps rest else none

/-- The rest of a text on several lines without escapes, up to its closing
apostrophes. -/
def readLiteralBlock (read : List Char) : Nat → List Char → Read
  | 0, _ => none
  | steps + 1, cs =>
      match cs with
      | [] => none
      | '\x27' :: '\x27' :: '\x27' :: rest => closeBlock '\x27' read rest
      | '\r' :: '\n' :: rest =>
          readLiteralBlock ('\n' :: '\r' :: read) steps rest
      | c :: rest =>
          if isPlain c || c == '\n' then readLiteralBlock
            (c :: read) steps rest else none

/-- The text without a line break at its front, which belongs to the opening
quotes. -/
def dropFirstBreak (cs : List Char) : List Char := (afterBreak cs).getD cs

/-- A text on one line and what follows it. -/
def readLine (cs : List Char) : Read :=
  match cs with
  | '\x22' :: rest => readBasic [] (rest.length + 1) rest
  | '\x27' :: rest => readLiteral [] rest
  | _ => none

/-- A quoted text of any form and what follows it. -/
def readQuoted (cs : List Char) : Read :=
  match cs with
  | '\x22' :: '\x22' :: '\x22' :: rest =>
      readBasicBlock [] (rest.length + 1) (dropFirstBreak rest)
  | '\x27' :: '\x27' :: '\x27' :: rest =>
      readLiteralBlock [] (rest.length + 1) (dropFirstBreak rest)
  | _ => readLine cs

end Prerender.Toml
