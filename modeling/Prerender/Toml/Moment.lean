/-
Dates and times of TOML: how they are written, which of them exist, and the
one form in which they are written again. Seconds may be missing and count as
zero, but then there is no fraction either; of a fraction nine digits are
kept.
-/
import Prerender.Text.Blank
import Prerender.Text.Digits

namespace Prerender.Toml

/-- A day of a year. -/
structure Date where
  year : Nat
  month : Nat
  day : Nat
deriving DecidableEq

/-- A time of a day. -/
structure Time where
  hour : Nat
  minute : Nat
  second : Nat
  nanosecond : Nat
deriving DecidableEq

/-- The distance of a local time from universal time. -/
inductive Offset where
  | zulu
  | minutes (n : Int)
deriving DecidableEq

/-- A date, a time, or both, the latter perhaps with an offset. -/
inductive Moment where
  | date (d : Date)
  | time (t : Time)
  | dateTime (d : Date) (t : Time) (offset : Option Offset)
deriving DecidableEq

-- ============================================================= reading

/-- Exactly `count` digits and what follows them. -/
def readDigits (count : Nat) (cs : List Char) : Option (Nat × List Char) :=
  let digits := cs.takeWhile Char.isDigit
  if digits.length = count then
    some (Text.digitsValue digits, cs.dropWhile Char.isDigit)
  else none

/-- What follows `c` at the front. -/
def readChar (c : Char) : List Char → Option (List Char)
  | [] => none
  | d :: rest => if c = d then some rest else none

/-- The number of days of a month. -/
def daysOfMonth (year month : Nat) : Nat :=
  if month = 2 then
    if year % 4 = 0 ∧ (year % 100 ≠ 0 ∨ year % 400 = 0) then 29 else 28
  else if month = 4 ∨ month = 6 ∨ month = 9 ∨ month = 11 then 30
  else 31

/-- A date and what follows it. -/
def readDate (cs : List Char) : Option (Date × List Char) := do
  let (year, cs) ← readDigits 4 cs
  let cs ← readChar '-' cs
  let (month, cs) ← readDigits 2 cs
  let cs ← readChar '-' cs
  let (day, cs) ← readDigits 2 cs
  if 1 ≤ month ∧ month ≤ 12 ∧ 1 ≤ day ∧ day ≤ daysOfMonth year month then
    some (⟨year, month, day⟩, cs)
  else none

/-- The nanoseconds that the digits of a fraction denote; those beyond the
ninth are dropped. -/
def nanoseconds (digits : List Char) : Nat :=
  Text.digitsValue ((digits ++ List.replicate 9 '0').take 9)

/-- A fraction of a second, if there is one, and what follows it. -/
def readFraction : List Char → Option (Nat × List Char)
  | '.' :: rest =>
      let digits := rest.takeWhile Char.isDigit
      if digits.isEmpty then none else some
        (nanoseconds digits, rest.dropWhile Char.isDigit)
  | cs => some (0, cs)

/-- The seconds and nanoseconds of a time, if there are any, and what follows
them. -/
def readSecond : List Char → Option ((Nat × Nat) × List Char)
  | ':' :: rest => do
      let (second, rest) ← readDigits 2 rest
      let (nanosecond, rest) ← readFraction rest
      some ((second, nanosecond), rest)
  | cs => some ((0, 0), cs)

/-- A time and what follows it. A minute may have a leap second. -/
def readTime (cs : List Char) : Option (Time × List Char) := do
  let (hour, cs) ← readDigits 2 cs
  let cs ← readChar ':' cs
  let (minute, cs) ← readDigits 2 cs
  let ((second, nanosecond), cs) ← readSecond cs
  if hour ≤ 23 ∧ minute ≤ 59
    ∧ second ≤ 60 then some (⟨hour, minute, second, nanosecond⟩, cs)
  else none

/-- The offset behind a time, nothing more following. -/
def readOffset : List Char → Option (Option Offset)
  | [] => some none
  | [c] => if c = 'Z' ∨ c = 'z' then some (some .zulu) else none
  | sign :: cs => do
      let (hours, cs) ← readDigits 2 cs
      let cs ← readChar ':' cs
      let (minutes, cs) ← readDigits 2 cs
      if (sign = '+' ∨ sign = '-') ∧ hours ≤ 23 ∧ minutes ≤ 59 ∧ cs = [] then
        let distance : Int := hours * 60 + minutes
        some (some (.minutes (if sign = '-' then -distance else distance)))
      else none

/-- The moment that a text denotes. -/
def Moment.ofChars? (cs : List Char) : Option Moment :=
  match readDate cs with
  | some (day, []) => some (.date day)
  | some (day, separator :: rest) => do
      if separator = 'T' ∨ separator = 't' ∨ separator = ' ' then
        let (clock, rest) ← readTime rest
        return .dateTime day clock (← readOffset rest)
      else none
  | none =>
      match readTime cs with
      | some (clock, []) => some (.time clock)
      | _ => none

-- ============================================================= writing

/-- A number with at least `width` digits. -/
def padded (width n : Nat) : String :=
  let digits := Nat.toDigits 10 n
  String.ofList (List.replicate (width - digits.length) '0' ++ digits)

/-- The text of a day. -/
def Date.text (d : Date) : String :=
  padded 4 d.year ++ "-" ++ padded 2 d.month ++ "-" ++ padded 2 d.day

/-- The fraction of a second without zeros at its end, and nothing for a whole
second. -/
def fractionText (nanosecond : Nat) : String :=
  if nanosecond = 0 then ""
  else "." ++ String.ofList
    (Text.dropEndWhile (· == '0') (padded 9 nanosecond).toList)

/-- The text of a time of day, always with its seconds. -/
def Time.text (t : Time) : String :=
  padded 2 t.hour ++ ":" ++ padded 2 t.minute ++ ":" ++ padded 2 t.second
    ++ fractionText t.nanosecond

/-- The text of an offset; one of no minutes is written with a plus. -/
def Offset.text : Offset → String
  | .zulu => "Z"
  | .minutes n =>
      (if n < 0 then "-" else "+") ++ padded 2 (n.natAbs / 60) ++ ":"
        ++ padded 2 (n.natAbs % 60)

/-- The text of the moment. -/
def Moment.text : Moment → String
  | .date d => d.text
  | .time t => t.text
  | .dateTime d t offset => d.text ++ "T" ++ t.text
      ++ ((offset.map Offset.text).getD "")

end Prerender.Toml
