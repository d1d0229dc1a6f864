/-
The values of a TOML document, and the data that they are. Two things are
decided only when data is asked for: whether digits denote a number that fits,
and whether a table stands for a moment. A table does so if its first key is
the one under which data holds the text of a moment; what else is in the table
does not count then.
-/
import Prerender.Json.Basic
import Prerender.Toml.Moment

namespace Prerender.Toml

/-- A value of a document. -/
inductive Value where
  /-- A value that is data as it stands. -/
  | data (value : Json)
  /-- What is written as a number, but denotes none or none that data can
  hold. -/
  | noNumber
  | list (items : List Value)
  /-- A table, its keys in ascending order. -/
  | table (members : List (String × Value))

/-- The key under which data holds the text of a moment. -/
def momentKey : String := "$__toml_private_datetime"

/-- A moment as data. -/
def Moment.toJson (moment : Moment) : Json :=
  .obj [(momentKey, .str moment.text)]

namespace Value

/-- The moment that a text denotes; no other value denotes one. -/
def moment? : Value → Option Moment
  | data (.str s) => Moment.ofChars? s.toList
  | _ => none

mutual

/-- The data that a value is. -/
def toJson? : Value → Option Json
  | data value => some value
  | noNumber => none
  | list items => (itemsToJson? items).map .arr
  | table [] => some (.obj [])
  | table ((name, value) :: rest) =>
      if name = momentKey then value.moment?.map Moment.toJson
      else do
        let value ← value.toJson?
        let rest ← membersToJson? rest
        some (.obj ((name, value) :: rest))

/-- The data of the items of a list. -/
def itemsToJson? : List Value → Option (List Json)
  | [] => some []
  | item :: rest => do
      let item ← item.toJson?
      let rest ← itemsToJson? rest
      some (item :: rest)

/-- The data of the members of a table. -/
def membersToJson? : List (String × Value) → Option (List (String × Json))
  | [] => some []
  | (name, value) :: rest => do
      let value ← value.toJson?
      let rest ← membersToJson? rest
      some ((name, value) :: rest)

end

end Value
end Prerender.Toml
