/-
The hydration payload of a page: what the client needs to bring the static
document to life. Cells are listed once, those of a bind group under its key;
each record ties an element key and an attribute to the cell or the update
that the attribute follows.
-/
import Prerender.Reactive.Scope
import Prerender.Resolve.Pass

namespace Prerender

/-- An attribute that follows a state cell. -/
structure StateRecord where
  key : ElementKey
  attributeName : String
  link : StateLink

/-- An attribute that an observer computes. -/
structure ObserverRecord where
  key : ElementKey
  attributeName : String
  observer : Observer

/-- The payload of a page. -/
structure Payload where
  url : String
  /-- The cells outside bind groups. -/
  cells : List Cell
  /-- The cells of each bind group, the groups in the order in which their
  keys first come. -/
  groups : List (GroupKey × List Cell)
  states : List StateRecord
  observers : List ObserverRecord
  hooks : List LoadHook

/-- The record of a binding to a state cell. -/
def Binding.stateRecord? (binding : Binding) : Option StateRecord :=
  match binding.source with
  | .state link => some ⟨binding.key, binding.attributeName, link⟩
  | _ => none

/-- The record of a binding to an observer. -/
def Binding.observerRecord? (binding : Binding) : Option ObserverRecord :=
  match binding.source with
  | .observer observer => some ⟨binding.key, binding.attributeName, observer⟩
  | _ => none

namespace Payload

/-- The groups with a cell added to the one of its key, which comes last if it
is new. -/
def addToGroup (key : GroupKey) (cell : Cell) :
    List (GroupKey × List Cell) → List (GroupKey × List Cell)
  | [] => [(key, [cell])]
  | (k, cells) :: rest =>
      if k = key then (k, cells ++ [cell]) :: rest else (k, cells)
        :: addToGroup key cell rest

/-- The cells of bind groups, by group. -/
def groupCells (cells : List Cell) : List (GroupKey × List Cell) :=
  cells.foldl
    (fun groups cell =>
      match cell.group with
      | none => groups
      | some key => addToGroup key cell groups)
    []

/-- The payload of the page at `url`. Handles have no record: the client finds
them by the attribute that the document shows. -/
def ofPage (url : String) (cells : List Cell) (bindings : List Binding)
    (hooks : List LoadHook) :
    Payload where
  url := url
  cells := cells.filter fun cell => cell.group.isNone
  groups := groupCells cells
  states := bindings.filterMap Binding.stateRecord?
  observers := bindings.filterMap Binding.observerRecord?
  hooks := hooks

/-- Whether clients that show the page have to load it anew. They never have
to: a payload is put in place of an earlier one. -/
def needsReload (_payload : Payload) : Bool := false

end Payload
end Prerender
