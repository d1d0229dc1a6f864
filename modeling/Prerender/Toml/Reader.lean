/-
Reading a TOML document, in the edition that allows line breaks and a last
comma in inline tables. The result is the data of the document; a text that is
no TOML has none, and why is not told. Values nest at most eighty deep, and a
key has at most eighty parts.
-/
import Prerender.Toml.Quoted
import Prerender.Toml.Scalar
import Prerender.Toml.Table

namespace Prerender.Toml

-- ============================================================== blanks

/-- What follows the blanks at the front. -/
def skipSpace (cs : List Char) : List Char :=
  cs.dropWhile fun c => c == ' ' || c == '\t'

/-- What follows a comment, from its line break on. -/
def readComment (cs : List Char) : Option (List Char) :=
  match cs.dropWhile isPlain with
  | [] => some []
  | rest => if (afterBreak rest).isSome then some rest else none

/-- What follows blanks, line breaks and comments. -/
def skipTrivia : Nat → List Char → Option (List Char)
  | 0, _ => none
  | steps + 1, cs =>
      match skipSpace cs with
      | '#' :: rest => do skipTrivia steps (← readComment rest)
      | rest =>
          match afterBreak rest with
          | some rest => skipTrivia steps rest
          | none => some rest

-- ================================================================ keys

/-- Whether a character may stand in a key without quotes. -/
def isBare (c : Char) : Bool := c.isAlphanum || c == '_' || c == '-'

/-- One part of a key and what follows it. -/
def readPart (cs : List Char) : Option (String × List Char) :=
  match readLine cs with
  | some result => some result
  | none =>
      let bare := cs.takeWhile isBare
      if bare.isEmpty then none else some
        (String.ofList bare, cs.dropWhile isBare)

/-- How many parts a key may have. -/
def partLimit : Nat := 80

/-- A key of a limited number of parts, as those before the last point and the
last one, and what follows it. -/
def readKey : Nat → List Char → Option ((List String × String) × List Char)
  | 0, _ => none
  | parts + 1, cs => do
      let (part, rest) ← readPart (skipSpace cs)
      match skipSpace rest with
      | '.' :: rest => do
          let ((path, name), rest) ← readKey parts rest
          some ((part :: path, name), rest)
      | rest => some (([], part), rest)

-- ============================================================== values

/-- Whether a character ends a value without quotes or brackets. -/
def endsScalar (c : Char) : Bool :=
  c == ',' || c == '=' || c == '[' || c
    == ']' || c == '\x7b' || c == '\x7d' || c == '#' || c == ' '
    || c == '\t' || c == '\n' || c == '\r'

/-- The characters of a value without quotes or brackets, and what follows
them. A blank between a date and a time belongs to the value. -/
def scalarChars (cs : List Char) : List Char × List Char :=
  let first := cs.takeWhile fun c => !endsScalar c
  let rest := cs.dropWhile fun c => !endsScalar c
  match readDate first, rest with
  | some (_, []), ' ' :: c :: more =>
      if c.isDigit then
        (first ++ ' ' :: (c :: more).takeWhile fun c => !endsScalar c,
          (c :: more).dropWhile fun c => !endsScalar c)
      else (first, rest)
  | _, _ => (first, rest)

mutual

/-- A value and what follows it; `depth` is how much deeper it may nest. -/
def readValue : Nat → Nat → List Char → Option (Value × List Char)
  | 0, _, _ => none
  | steps + 1, depth, cs =>
      match cs with
      | '\x22' :: _ => (readQuoted cs).map fun (s, rest) =>
          (.data (.str s), rest)
      | '\x27' :: _ => (readQuoted cs).map fun (s, rest) =>
          (.data (.str s), rest)
      | '[' :: rest =>
          if depth = 0 then none else readItems [] steps (depth - 1) rest
      | '\x7b' :: rest =>
          if depth = 0 then none else readInline [] steps (depth - 1) rest
      | _ =>
          let (scalar, rest) := scalarChars cs
          (readScalar scalar).map (·, rest)

/-- The items of a list up to its closing bracket; `read` holds those so far,
last one first. -/
def readItems (read : List Value) :
    Nat → Nat → List Char → Option (Value × List Char)
  | 0, _, _ => none
  | steps + 1, depth, cs => do
      let cs ← skipTrivia (cs.length + 1) cs
      match cs with
      | ']' :: rest => some (.list read.reverse, rest)
      | cs =>
          let (item, rest) ← readValue steps depth cs
          let rest ← skipTrivia (rest.length + 1) rest
          match rest with
          | ',' :: rest => readItems (item :: read) steps depth rest
          | ']' :: rest => some (.list (item :: read).reverse, rest)
          | _ => none

/-- The pairs of an inline table up to its closing brace; `table` holds those
so far. Lines may break anywhere but inside a key. -/
def readInline (table : Table) :
    Nat → Nat → List Char → Option (Value × List Char)
  | 0, _, _ => none
  | steps + 1, depth, cs => do
      let cs ← skipTrivia (cs.length + 1) cs
      match cs with
      | '\x7d' :: rest => some (table.toValue, rest)
      | cs =>
          let ((path, name), rest) ← readKey partLimit cs
          let rest ← skipTrivia (rest.length + 1) rest
          match rest with
          | '=' :: rest =>
              let rest ← skipTrivia (rest.length + 1) rest
              let (value, rest) ← readValue steps depth rest
              let table ← table.addPair path name value
              let rest ← skipTrivia (rest.length + 1) rest
              match rest with
              | ',' :: rest => readInline table steps depth rest
              | '\x7d' :: rest => some (table.toValue, rest)
              | _ => none
          | _ => none

end

-- =========================================================== documents

/-- How deep values may nest. -/
def nestingLimit : Nat := 80

/-- A line of a document that says something. -/
inductive Statement where
  | pair (path : List String) (name : String) (value : Value)
  | table (path : List String) (name : String)
  | item (path : List String) (name : String)

/-- A statement and what follows it. -/
def readStatement (cs : List Char) : Option (Statement × List Char) :=
  match cs with
  | '[' :: '[' :: rest => do
      let ((path, name), rest) ← readKey partLimit rest
      match rest with
      | ']' :: ']' :: rest => some (.item path name, rest)
      | _ => none
  | '[' :: rest => do
      let ((path, name), rest) ← readKey partLimit rest
      match rest with
      | ']' :: rest => some (.table path name, rest)
      | _ => none
  | _ => do
      let ((path, name), rest) ← readKey partLimit cs
      match rest with
      | '=' :: rest =>
          let (value, rest) ← readValue (2 * rest.length + 2) nestingLimit
            (skipSpace rest)
          some (.pair path name value, rest)
      | _ => none

/-- What follows the rest of a line that holds at most blanks and a comment. -/
def readLineEnd (cs : List Char) : Option (List Char) := do
  let rest ←
    match skipSpace cs with
    | '#' :: rest => readComment rest
    | rest => some rest
  match rest with
  | [] => some []
  | rest => afterBreak rest

/-- The statements of a document in order. -/
def readStatements : Nat → List Char → Option (List Statement)
  | 0, _ => none
  | steps + 1, cs => do
      let cs ← skipTrivia (cs.length + 1) cs
      if cs.isEmpty then return []
      let (statement, rest) ← readStatement cs
      let rest ← readLineEnd rest
      return statement :: (← readStatements steps rest)

/-- Carries out statements; `place` is the table that the last header began. -/
def build (place : List String) (table : Table) : List Statement → Option Table
  | [] => some table
  | .pair path name value :: rest => do
      build place (← table.addPairAt place path name value) rest
  | .table path name :: rest => do
      build (path ++ [name]) (← table.beginTable path name) rest
  | .item path name :: rest => do
      build (path ++ [name]) (← table.beginItem path name) rest

/-- The members of the document that a text denotes. A mark of the byte order
at the front does not count. The document itself never stands for a moment. -/
def ofText? (s : String) : Option (List (String × Json)) := do
  let cs :=
    match s.toList with
    | '\ufeff' :: rest => rest
    | cs => cs
  let table ← build [] [] (← readStatements (cs.length + 1) cs)
  Value.membersToJson? (Entry.membersOf table)

end Prerender.Toml
