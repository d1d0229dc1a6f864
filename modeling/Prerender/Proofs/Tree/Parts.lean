/-
All nodes of a tree.

The walk goes in document order, into fragments and into options slots,
and to the children of every element. It is the widest of the walks over
a tree: resolving stays out of fragments, and the document shows nothing
of an options slot. What is asked of a tree as a whole, such as that its
text holds no control characters, is asked of these nodes.
-/
import Prerender.Tree.Node

namespace Prerender

mutual

/-- The node itself and all nodes below it. -/
def Node.parts : Node → List Node
  | .text s => [.text s]
  | .markup s => [.markup s]
  | .number d => [.number d]
  | .bool b => [.bool b]
  | .fragment items => .fragment items :: Node.rowParts items
  | .element e => .element e :: e.parts

/-- The nodes in the options slot of an element, then those among its
children. -/
def Element.parts : Element → List Node
  | ⟨_, slot, children⟩ => slot.parts ++ Node.childParts children

/-- The nodes in an options slot. -/
def Slot.parts : Slot → List Node
  | .options _ => []
  | .child node => node.parts

/-- The nodes in a list of children, if there is one. -/
def Node.childParts : Option (List Node) → List Node
  | none => []
  | some children => Node.rowParts children

/-- The nodes in a row and below. -/
def Node.rowParts : List Node → List Node
  | [] => []
  | node :: rest => node.parts ++ Node.rowParts rest

end

/-- The nodes of rows one behind the other. -/
theorem Node.rowParts_append (front back : List Node) :
    Node.rowParts (front ++ back) = Node.rowParts front
      ++ Node.rowParts back := by
  induction front with
  | nil => rfl
  | cons node rest ih =>
      rw [List.cons_append, Node.rowParts, Node.rowParts, ih, List.append_assoc]

end Prerender
