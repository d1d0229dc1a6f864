/-
The scope that page code runs in. It numbers the state cells that the code
makes, keeps the hooks it registers, and hands out the reactive values that
the code puts on elements.
-/
import Prerender.Reactive.Value

namespace Prerender

/-- Client code that runs when the page becomes active. -/
structure LoadHook where
  source : String
  group : Option GroupKey
  /-- The cells that the hook receives, in argument order. -/
  dependencies : List CellRef
deriving Inhabited

/-- The link that binds an option to the cell. -/
def Cell.link (cell : Cell) : StateLink := ⟨cell.id, cell.value, cell.group⟩

/-- The cells and hooks of one page, in the order of their making. -/
structure Scope where
  nextId : UInt32
  cells : List Cell
  hooks : List LoadHook

namespace Scope

/-- The scope before any page code has run. -/
def empty : Scope := ⟨0, [], []⟩

instance : Inhabited Scope := ⟨empty⟩

/-- The cell with the given number. -/
def cell? (scope : Scope) (id : CellId) : Option Cell :=
  scope.cells.find? fun cell => cell.id == id

/-- Makes a cell with the next number and returns the link to it. -/
def addCell (scope : Scope) (value : CellValue) (group : Option GroupKey)
    (dependencies : List CellRef) : StateLink × Scope :=
  let cell : Cell := ⟨⟨scope.nextId⟩, value, group, dependencies⟩
  (cell.link, { scope with nextId := scope.nextId + 1, cells :=
    scope.cells ++ [cell] })

/-- Makes a cell that holds data. -/
def addState (scope : Scope) (value : Json) (group : Option GroupKey) :
    StateLink × Scope :=
  scope.addCell (.literal value) group []

/-- Makes a cell that holds an event listener, which receives the given cells
after its event. -/
def addListener (scope : Scope) (source : String)
    (dependencies : List CellRef) :
    StateLink × Scope :=
  scope.addCell (.source source) none dependencies

/-- The argument that a referenced cell gives to a first evaluation: its data,
and `null` where there is none. -/
def argument (scope : Scope) (ref : CellRef) : Json :=
  ((scope.cell? ref.cell).bind fun cell => cell.value.literal?).getD .null

/-- The observer of the given cells, which are read as they are now. -/
def observe (scope : Scope) (cells : List CellRef) (update : Update) :
    Observer :=
  ⟨update, cells, cells.map scope.argument⟩

/-- Registers a hook that receives the given cells. -/
def addHook (scope : Scope) (source : String) (dependencies : List CellRef) :
    Scope :=
  { scope with hooks := scope.hooks ++ [⟨source, none, dependencies⟩] }

/-- Registers a hook of a bind group, which receives no cells. -/
def addGroupHook (scope : Scope) (source : String) (key : GroupKey) : Scope :=
  { scope with hooks := scope.hooks ++ [⟨source, some key, []⟩] }

end Scope
end Prerender
