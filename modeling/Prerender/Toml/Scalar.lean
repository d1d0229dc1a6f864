/-
The values of TOML that are written without quotes or brackets: booleans,
numbers, dates and times. As data, what is written as infinite or undefined is
`null`. Reading settles which kind of value it is and that the spelling is
right as far as the kind tells; whether digits denote a number that data can
hold is left to `Toml/Value`.
-/
import Prerender.Number.Reading
import Prerender.Toml.Value

namespace Prerender.Toml

-- ========================================================= underscores

/-- Whether every underscore stands between two digits, given the character in
front. -/
def isGroupedAfter (isDigit : Char → Bool) (before : Char) : List Char → Bool
  | [] => true
  | c :: rest =>
      (c != '_' || (isDigit before && (rest.head?.map isDigit).getD false))
        && isGroupedAfter isDigit c rest

/-- Whether every underscore of a numeral without its sign stands between two
digits; none does at the front, where the character before is taken for an
underscore as well. -/
def isGrouped (isDigit : Char → Bool) (cs : List Char) : Bool :=
  isGroupedAfter isDigit '_' cs

/-- The numeral without its underscores. -/
def ungroup (cs : List Char) : List Char := cs.filter (· != '_')

-- ============================================================= numbers

/-- The value of a digit of any base up to sixteen. -/
def digitValue (c : Char) : Nat :=
  if c.isDigit then c.toNat - 48
  else if c.isLower then c.toNat - 87
  else c.toNat - 55

/-- Whether `c` is a digit of the base. -/
def isDigitOf (base : Nat) (c : Char) : Bool :=
  (c.isDigit || ('a' ≤ c && c ≤ 'f') || ('A' ≤ c && c ≤ 'F')) && decide
    (digitValue c < base)

/-- Whether `c` is a digit of some base up to sixteen. -/
def isAnyDigit (c : Char) : Bool := isDigitOf 16 c

/-- A whole number, which has to fit sixty-four bits with a sign. -/
def fit (n : Int) : Value :=
  if -(twoTo 63 : Int) ≤ n ∧ n < twoTo 63 then .data (.int n) else .noNumber

/-- A decimal number, which has to be nearest to a finite double. -/
def finite (d : Double) : Value :=
  if d.isFinite then .data (.double d) else .noNumber

/-- The whole number in a base that was named in front of it. That there are
digits at all is not asked before the value is. -/
def readBased (base : Nat) (cs : List Char) : Option Value :=
  let digits := ungroup cs
  if digits.all (isDigitOf base) && isGrouped isAnyDigit cs then
    if digits.isEmpty then some .noNumber
    else some (fit (digits.foldl (fun n c => base * n + digitValue c) 0 : Nat))
  else none

/-- The decimal whole number behind a sign, if there is one. It has no zeros
in front. What stands behind an underscore is not held against the digits
before the value is asked for. -/
def readWhole (sign : Option Bool) (cs : List Char) : Option Value :=
  if (cs.head? = some '0' ∧ cs ≠ ['0']) ∨ ¬isGrouped isAnyDigit cs then none
  else
    match Text.natOfDigits? (ungroup cs) with
    | some n => some (fit (if sign = some true then -(n : Int) else n))
    | none => some .noNumber

/-- The decimal number with a point or a power of ten behind a sign, if there
is one. It has no zeros in front, and digits on both sides of the point. -/
def readDecimal (sign : Option Bool) (cs : List Char) : Option Value :=
  let digits := ungroup cs
  let whole := digits.takeWhile Char.isDigit
  let placesMissing :=
    match digits.dropWhile Char.isDigit with
    | '.' :: rest => !(rest.head?.map Char.isDigit).getD false
    | _ => false
  if whole.isEmpty || placesMissing
    || (cs.head? == some '0' && decide (1 < whole.length))
      || !isGrouped Char.isDigit cs then none
  else (Double.readMagnitude (sign.getD false) digits).map finite

/-- Whether a point or the mark of a power of ten is among the characters. -/
def hasPoint (cs : List Char) : Bool :=
  cs.any fun c => c == '.' || c == 'e' || c == 'E'

/-- The number behind a sign, if there is one: `true` stands for a minus. The
first digits and what follows them decide which kind of number it is. -/
def readNumber (sign : Option Bool) (cs : List Char) : Option Value :=
  if cs = "inf".toList ∨ cs = "nan".toList then some (.data .null)
  else
    match cs.dropWhile Char.isDigit with
    | [] => if cs.isEmpty then none else readWhole sign cs
    | c :: rest =>
        if hasPoint (c :: rest) then readDecimal sign cs
        else if c = '_' then readWhole sign cs
        else none

/-- A number with or without a sign. -/
def readSigned : List Char → Option Value
  | '-' :: rest => readNumber (some true) rest
  | '+' :: rest => readNumber (some false) rest
  | cs => readNumber none cs

/-- The value that a text without quotes or brackets denotes. -/
def readScalar (cs : List Char) : Option Value :=
  match cs with
  | '0' :: 'x' :: rest => readBased 16 rest
  | '0' :: 'o' :: rest => readBased 8 rest
  | '0' :: 'b' :: rest => readBased 2 rest
  | _ =>
      if cs = "true".toList then some (.data (.bool true))
      else if cs = "false".toList then some (.data (.bool false))
      else
        match Moment.ofChars? cs with
        | some moment => some (.data moment.toJson)
        | none => readSigned cs

end Prerender.Toml
