/-
State cells: the values a page keeps in sync on the client, and references to
them.
-/
import Prerender.Json.Basic
import Prerender.Reactive.Group

namespace Prerender

/-- The number of a state cell within its page. -/
structure CellId where
  number : UInt32
deriving DecidableEq, Inhabited

/-- What a cell holds: data, or client code that only the client can run. -/
inductive CellValue where
  | literal (value : Json)
  | source (code : String)
deriving Inhabited

namespace CellValue

/-- Whether the value is client code. -/
def isSource : CellValue → Bool
  | literal _ => false
  | source _ => true

/-- The data, if the value is data. -/
def literal? : CellValue → Option Json
  | literal value => some value
  | source _ => none

/-- The value as data; client code becomes its text. -/
def toJson : CellValue → Json
  | literal value => value
  | source code => .str code

/-- Equality of values; data and code never are equal. -/
def sameValue : CellValue → CellValue → Bool
  | literal a, literal b => a == b
  | source a, source b => a == b
  | _, _ => false

end CellValue

/-- A reference to a cell, with the bind group that the cell belongs to. -/
structure CellRef where
  cell : CellId
  group : Option GroupKey
deriving DecidableEq, Inhabited

namespace CellRef

/-- The reference as data; the group is left out if there is none. -/
def toJson (ref : CellRef) : Json :=
  .obj <| ("id", .int ref.cell.number.toNat) ::
    match ref.group with
    | none => []
    | some key => [("bind", .str key.text)]

end CellRef

/-- A state cell of a page. -/
structure Cell where
  id : CellId
  value : CellValue
  group : Option GroupKey
  /-- The cells that a listener receives after its event, in argument order. -/
  dependencies : List CellRef
deriving Inhabited

end Prerender
