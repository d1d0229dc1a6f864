/-
Resolving a page tree: every element outside fragments gets plain options, a
child in the place of the options moves to the front of the children, and the
reactive values become bindings of the pass. Elements are worked off before
their children and children in order, so keys number the elements in document
order.

What an option puts into the content comes from data and holds no element;
such nodes resolve to themselves and are not visited.
-/
import Prerender.Resolve.Host

namespace Prerender

/-- What an options slot turns out to hold. -/
inductive SlotContent where
  | options (map : OptionMap)
  /-- A child that belongs in front of the children. -/
  | misplaced (node : Node)

/-- Whether a node in the options slot counts as a child there. An element
that lacks a part cannot be told from an object without a kind. -/
def Node.isMisplaced : Node → Bool
  | .element e => e.isComplete
  | _ => true

/-- The error of an options slot that holds neither options nor a child. -/
def OptionError.ofSlot (tag : String) : OptionError := .untyped tag "options"

/-- What the options slot of an element with the given tag holds. -/
def Slot.parse (tag : String) : Slot → Except OptionError SlotContent
  | .options map => .ok (.options map)
  | .child node => if node.isMisplaced then .ok (.misplaced node) else .error
      (.ofSlot tag)

mutual

/-- Resolves a node. Only elements change. -/
def Node.resolve : Node → Resolve Node
  | .text s => return .text s
  | .markup s => return .markup s
  | .number d => return .number d
  | .bool b => return .bool b
  | .fragment items => return .fragment items
  | .element e => do
      let e ← e.resolve
      return .element e

/-- Resolves an element. -/
def Element.resolve : Element → Resolve Element
  | ⟨tag, .child node, children⟩ =>
      if node.isMisplaced then do
        let first ← node.resolve
        let rest ← Node.resolveChildren children
        return ⟨tag, .options .empty, some (first :: rest)⟩
      else throw (.ofSlot tag)
  | ⟨tag, .options map, children⟩ => do
      let host ← Host.applyOptions ⟨tag, map, .ofChildren children⟩ map.entries
      match host.content with
      | .absent => return ⟨tag, .options host.options, none⟩
      | .list lead false => return ⟨tag, .options host.options, some lead⟩
      | .list lead true =>
          let rest ← Node.resolveChildren children
          return ⟨tag, .options host.options, some (lead ++ rest)⟩

/-- Resolves the written children; a list that is not there has none. -/
def Node.resolveChildren : Option (List Node) → Resolve (List Node)
  | none => return []
  | some children => Node.resolveAll children

/-- Resolves the nodes of a list in order. -/
def Node.resolveAll : List Node → Resolve (List Node)
  | [] => return []
  | node :: rest => do
      let node ← node.resolve
      let rest ← Node.resolveAll rest
      return node :: rest

end

end Prerender
