/-
The page tree. Page code builds it from nodes; an element has a tag, an
options slot and perhaps a list of children. Until the tree is resolved, the
slot may hold a child that was written in the place of the options.
-/
import Prerender.Json.Printer
import Prerender.Reactive.Value

namespace Prerender

mutual

/-- A node of the page tree. -/
inductive Node where
  | text (s : String)
  /-- Text that is written to the document as it is. -/
  | markup (s : String)
  | number (d : Double)
  | bool (b : Bool)
  /-- Nodes in a row without an element around them. -/
  | fragment (items : List Node)
  | element (e : Element)

/-- The options slot of an element. -/
inductive Slot where
  | options (map : OptionMap)
  | child (node : Node)

/-- An element. Without a list of children it cannot hold content. -/
structure Element where
  tag : String
  slot : Slot
  children : Option (List Node)

end

instance : Inhabited Node := ⟨.fragment []⟩

/-- Options that are not there are an empty map. -/
instance : Inhabited Slot := ⟨.options .empty⟩

instance : Inhabited Element := ⟨⟨"", default, none⟩⟩

namespace Node

/-- Whether a condition of page code takes the node for true. -/
def isTruthy : Node → Bool
  | .text s | .markup s => !s.isEmpty
  | .number d => !d.isZero && !d.isNaN
  | .bool b => b
  | .fragment _ | .element _ => true

/-- Whether the node is an element. -/
def isElement : Node → Bool
  | .element _ => true
  | _ => false

mutual

/-- The node that a data value turns into as content. Nothing becomes an empty
row, a list a row, and an object its text. -/
def ofJson : Json → Node
  | .null => .fragment []
  | .bool b => .bool b
  | .int n => .number (Double.ofInt n)
  | .double d => .number d
  | .str s => .text s
  | .arr items => .fragment (ofJsonItems items)
  | .obj members => .text (Json.obj members).compact

/-- The nodes that the items of a list turn into. -/
def ofJsonItems : List Json → List Node
  | [] => []
  | item :: rest => ofJson item :: ofJsonItems rest

end

/-- The node that a data value turns into where markup is expected: text is
markup there, and everything else content as usual. -/
def ofMarkup : Json → Node
  | .str s => .markup s
  | value => ofJson value

end Node

namespace Slot

/-- Whether a condition of page code takes the slot for true; it does for any
options. -/
def isTruthy : Slot → Bool
  | .options _ => true
  | .child node => node.isTruthy

/-- The options, or none at all where a child stands in their place. -/
def optionsOrEmpty : Slot → OptionMap
  | .options map => map
  | .child _ => .empty

end Slot

namespace Element

/-- The options of the element, if its slot holds options. -/
def options? (e : Element) : Option OptionMap :=
  match e.slot with
  | .options map => some map
  | .child _ => none

/-- Whether the element has everything an element is made of: a tag, a true
slot and a list of children. -/
def isComplete (e : Element) : Bool :=
  !e.tag.isEmpty && e.slot.isTruthy && e.children.isSome

end Element

-- ================================================================ data

/-- The options as data, in their order. -/
def OptionMap.toJson (options : OptionMap) : Json :=
  .obj (options.entries.map fun (name, value) => (name, value.toJson))

mutual

/-- The tree as data. Markup is plain text there. -/
def Node.toJson : Node → Json
  | .text s | .markup s => .str s
  | .number d => .double d
  | .bool b => .bool b
  | .fragment items => .arr (Node.itemsToJson items)
  | .element e => e.toJson

/-- The options slot as data. -/
def Slot.toJson : Slot → Json
  | .options map => map.toJson
  | .child node => node.toJson

/-- The element as data: tag, options and children in this order. -/
def Element.toJson : Element → Json
  | ⟨tag, slot, children⟩ =>
      .obj [("tag", .str tag), ("options", slot.toJson),
        ("children", Node.childrenToJson children)]

/-- The list of children as data, and `null` where there is none. -/
def Node.childrenToJson : Option (List Node) → Json
  | none => .null
  | some children => .arr (Node.itemsToJson children)

/-- The nodes of a row as data. -/
def Node.itemsToJson : List Node → List Json
  | [] => []
  | node :: rest => node.toJson :: Node.itemsToJson rest

end

end Prerender
