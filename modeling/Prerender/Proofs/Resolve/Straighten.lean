/-
Children that are written in the place of the options.

Resolving moves such a child in front of the written children, so an
author may as well put it there: `Node.straighten` does that to a whole
tree beforehand, and the two trees resolve alike
(`Node.straighten_resolves_alike`), in every pass, with the same tree or
the same error, the same bindings and the same keys. A straightened tree
has no such child left (`Node.IsStraight`), so that nothing is lost by
treating the other form as a way of writing.

The move is made from the root downwards. Whether a child counts as
misplaced is asked of the child as written: emptying its slot first
would make an element look complete that is not.

Resolving alike is an equation of steps, by one case for each
constructor (`Node.resolve_straighten`). An element without options
resolves like its children (`Element.resolve_bare`), which is all that
the moved child has to be compared with.
-/
import Prerender.Proofs.Resolve.Step
import Prerender.Resolve.Tree

namespace Prerender

mutual

/-- The tree with every misplaced child in front of the children, fragments
apart. -/
def Node.straighten : Node → Node
  | .text s => .text s
  | .markup s => .markup s
  | .number d => .number d
  | .bool b => .bool b
  | .fragment items => .fragment items
  | .element e => .element e.straighten

/-- The element with a misplaced child moved out of its slot, its children
straightened too. Any other slot stays as it is. -/
def Element.straighten : Element → Element
  | ⟨tag, .child node, children⟩ =>
      if node.isMisplaced then
        ⟨tag, .options .empty,
          some (node.straighten :: (Node.straightenChildren children).getD [])⟩
      else ⟨tag, .child node, Node.straightenChildren children⟩
  | ⟨tag, .options map, children⟩ =>
      ⟨tag, .options map, Node.straightenChildren children⟩

/-- The written children straightened, if there is a list of them. -/
def Node.straightenChildren : Option (List Node) → Option (List Node)
  | none => none
  | some children => some (Node.straightenAll children)

/-- The nodes of a list straightened. -/
def Node.straightenAll : List Node → List Node
  | [] => []
  | node :: rest => node.straighten :: Node.straightenAll rest

end

mutual

/-- Whether no child of a tree is misplaced. -/
def Node.IsStraight : Node → Prop
  | .text _ | .markup _ | .number _ | .bool _ | .fragment _ => True
  | .element e => e.IsStraight

/-- Whether neither the element has a misplaced child nor those in its list of
children have. -/
def Element.IsStraight : Element → Prop
  | ⟨_, .child node, children⟩ =>
      node.isMisplaced = false ∧ Node.ChildrenStraight children
  | ⟨_, .options _, children⟩ => Node.ChildrenStraight children

/-- Whether no child in a list has a misplaced one, if there is a list. -/
def Node.ChildrenStraight : Option (List Node) → Prop
  | none => True
  | some children => Node.AllStraight children

/-- Whether no node of a list has a misplaced child. -/
def Node.AllStraight : List Node → Prop
  | [] => True
  | node :: rest => node.IsStraight ∧ Node.AllStraight rest

end

-- ==================================================== a straightened tree

mutual

/-- No child of a straightened tree is misplaced. -/
theorem Node.isStraight_straighten : ∀ node : Node, node.straighten.IsStraight
  | .text _ | .markup _ | .number _ | .bool _ | .fragment _ => trivial
  | .element e => e.isStraight_straighten

/-- Nor of a straightened element, as the one in the slot was moved. -/
theorem Element.isStraight_straighten : ∀ e : Element, e.straighten.IsStraight
  | ⟨tag, .child node, children⟩ => by
      have hchildren := Node.childrenStraight_straighten children
      rw [Element.straighten]
      cases hplace : node.isMisplaced with
      | false => exact ⟨hplace, hchildren⟩
      | true =>
          refine ⟨node.isStraight_straighten, ?_⟩
          cases children with
          | none => trivial
          | some row => exact hchildren
  | ⟨tag, .options map, children⟩ => Node.childrenStraight_straighten children

theorem Node.childrenStraight_straighten : ∀ children : Option (List Node),
    Node.ChildrenStraight (Node.straightenChildren children)
  | none => trivial
  | some children => Node.allStraight_straighten children

theorem Node.allStraight_straighten : ∀ row : List Node,
    Node.AllStraight (Node.straightenAll row)
  | [] => trivial
  | node :: rest =>
      ⟨node.isStraight_straighten, Node.allStraight_straighten rest⟩

end

-- ========================================================== same results

/-- A list that is not there resolves like an empty one. -/
theorem Node.resolveAll_getD (children : Option (List Node)) :
    Node.resolveAll (children.getD []) = Node.resolveChildren children := by
  cases children with
  | none => rfl
  | some children => rw [Option.getD_some, Node.resolveChildren]

/-- Straightening makes no list of children and takes none away. -/
theorem Content.ofChildren_straighten (children : Option (List Node)) :
    Content.ofChildren (Node.straightenChildren children)
      = Content.ofChildren children := by
  cases children with
  | none => rfl
  | some children => rfl

/-- An element without options resolves like its children. -/
theorem Element.resolve_bare (tag : String) (first : Node) (rest : List Node) :
    Element.resolve ⟨tag, .options .empty, some (first :: rest)⟩ = do
      let first ← first.resolve
      let rest ← Node.resolveAll rest
      return ⟨tag, .options .empty, some (first :: rest)⟩ := by
  rw [Element.resolve]
  show (Node.resolveChildren (some (first :: rest)) >>= fun rest =>
    pure (⟨tag, .options .empty, some ([] ++ rest)⟩ : Element)) = _
  rw [Node.resolveChildren, Node.resolveAll]
  simp only [bind_assoc, pure_bind, List.nil_append]

mutual

/-- A tree resolves as the straightened one does. -/
theorem Node.resolve_straighten : ∀ node : Node,
    node.straighten.resolve = node.resolve
  | .text _ | .markup _ | .number _ | .bool _ | .fragment _ => rfl
  | .element e => by
    rw [Node.straighten, Node.resolve, Node.resolve, e.resolve_straighten]

/-- An element with a misplaced child resolves like one with this child in
front. -/
theorem Element.resolve_straighten : ∀ e : Element,
    e.straighten.resolve = e.resolve
  | ⟨tag, .child node, children⟩ => by
      rw [Element.straighten]
      cases hplace : node.isMisplaced with
      | false =>
          rw [if_neg Bool.false_ne_true, Element.resolve,
            Element.resolve, hplace]
          rfl
      | true =>
          rw [if_pos rfl, Element.resolve_bare, Node.resolveAll_getD,
            node.resolve_straighten, Node.resolveChildren_straighten children,
            Element.resolve, hplace, if_pos rfl]
  | ⟨tag, .options map, children⟩ => by
      rw [Element.straighten, Element.resolve, Element.resolve,
        Content.ofChildren_straighten, Node.resolveChildren_straighten children]

theorem Node.resolveChildren_straighten : ∀ children : Option (List Node),
    Node.resolveChildren (Node.straightenChildren children)
      = Node.resolveChildren children
  | none => rfl
  | some children => by
      rw [Node.straightenChildren, Node.resolveChildren, Node.resolveChildren,
        Node.resolveAll_straighten children]

theorem Node.resolveAll_straighten : ∀ row : List Node,
    Node.resolveAll (Node.straightenAll row) = Node.resolveAll row
  | [] => rfl
  | node :: rest => by
      rw [Node.straightenAll, Node.resolveAll, Node.resolveAll,
        node.resolve_straighten, Node.resolveAll_straighten rest]

end

/-- Writing a child in the place of the options is writing it first among the
children: straightening leaves no misplaced child in a tree, and the tree
resolves as before, in every pass: to the same tree or the same error, with
the same bindings and keys. -/
theorem Node.straighten_resolves_alike (node : Node) :
    node.straighten.IsStraight
      ∧ ∀ pass, node.straighten.resolve pass = node.resolve pass :=
  ⟨node.isStraight_straighten, fun pass =>
    congrFun node.resolve_straighten pass⟩

/-- A child that is misplaced on a misplaced child moves with it. -/
example (s : String) :
    (Node.element ⟨"ul", .child (.element ⟨"li", .child (.bool true), some []⟩),
        some [.text s]⟩).straighten
      = .element ⟨"ul", .options .empty,
          some [.element ⟨"li", .options .empty, some [.bool true]⟩,
            .text s]⟩ := rfl

end Prerender
