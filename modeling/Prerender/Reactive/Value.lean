/-
Reactive option values: the link to a state cell, the observer of cells, the
handle that registers an element. An observer's update is client code together
with an evaluator that gives the same value at build time; two updates are
compared by their code alone.
-/
import Prerender.OrderedMap
import Prerender.Reactive.Cell

namespace Prerender

/-- An option bound to a state cell, with the value that the cell had when the
link was made. -/
structure StateLink where
  cell : CellId
  value : CellValue
  group : Option GroupKey
deriving Inhabited

namespace StateLink

/-- The reference to the cell of the link. -/
def toRef (link : StateLink) : CellRef := ⟨link.cell, link.group⟩

/-- Equality of links: the same cell, value and group. -/
def sameValue (a b : StateLink) : Bool :=
  a.cell == b.cell && a.value.sameValue b.value && a.group == b.group

/-- The fields of the link as data. -/
def members (link : StateLink) : List (String × Json) :=
  ("id", .int link.cell.number.toNat) :: ("value", link.value.toJson) ::
    match link.group with
    | none => []
    | some key => [("bind", .str key.text)]

end StateLink

/-- The update of an observer: client code, and the same computation at build
time. -/
structure Update where
  source : String
  evaluate : List Json → Json

/-- An option computed from cells. -/
structure Observer where
  update : Update
  /-- The observed cells, in argument order. -/
  cells : List CellRef
  /-- The arguments of the first evaluation. -/
  arguments : List Json

namespace Observer

/-- The value that the page is first rendered with. -/
def firstValue (observer : Observer) : Json :=
  observer.update.evaluate observer.arguments

/-- Equality of observers, whose updates are the same if their code is. -/
def sameValue (a b : Observer) : Bool :=
  a.update.source == b.update.source && a.cells == b.cells
    && Json.sameItems a.arguments b.arguments

/-- The fields of the observer as data. -/
def members (observer : Observer) : List (String × Json) :=
  [("update", .str observer.update.source),
    ("refs", .arr (observer.cells.map CellRef.toJson)),
    ("initialValues", .arr observer.arguments)]

end Observer

/-- An option that registers its element under an opaque value. -/
structure Handle where
  value : Json

namespace Handle

/-- The fields of the handle as data. -/
def members (handle : Handle) : List (String × Json) :=
  [("value", handle.value)]

end Handle

/-- A reactive option value. -/
inductive Reactive where
  | state (link : StateLink)
  | observer (observer : Observer)
  | reference (handle : Handle)

namespace Reactive

/-- The name of the kind of value. -/
def kind : Reactive → String
  | .state _ => "state"
  | .observer _ => "observer"
  | .reference _ => "reference"

/-- The fields of the value as data, without its kind. -/
def members : Reactive → List (String × Json)
  | .state link => link.members
  | .observer o => o.members
  | .reference handle => handle.members

/-- The value as data, its kind first. -/
def toJson (value : Reactive) : Json :=
  .obj (("type", .str value.kind) :: value.members)

/-- Equality of reactive values; those of different kinds never are equal. -/
def sameValue : Reactive → Reactive → Bool
  | .state a, .state b => a.sameValue b
  | .observer a, .observer b => a.sameValue b
  | .reference a, .reference b => a.value == b.value
  | _, _ => false

end Reactive

/-- The value of an option: data, or reactive. -/
inductive OptionValue where
  | literal (value : Json)
  | reactive (value : Reactive)

namespace OptionValue

instance : Inhabited OptionValue := ⟨literal .null⟩

/-- Whether the value is an object rather than plain data: a reactive value,
or a JSON object, which names no kind. -/
def isObject : OptionValue → Bool
  | literal (.obj _) => true
  | literal _ => false
  | reactive _ => true

/-- The value as data. -/
def toJson : OptionValue → Json
  | literal value => value
  | reactive value => value.toJson

/-- Equality of values. -/
def sameValue : OptionValue → OptionValue → Bool
  | literal a, literal b => a == b
  | reactive a, reactive b => a.sameValue b
  | _, _ => false

end OptionValue

/-- The options of an element in the order in which they were written. -/
abbrev OptionMap := OrderedMap OptionValue

end Prerender
