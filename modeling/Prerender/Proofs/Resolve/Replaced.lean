/-
Children that options take the place of.

They are discarded unseen: what their element resolves to, the error
that it fails with, the bindings and the keys are the same whatever they
are (`Element.resolve_replaced`), for the options ask no more of the
children than whether there is a list. That one of the options replaces
them is read off the options alone (`OptionMap.replacesContent`), and is
tied to what the run of the options does by
`Host.replacesContent_of_ok`.

`Node.prune` empties every such list in a tree, and what it leaves is
what resolving comes by: the elements of the pruned tree are the visited
ones of the tree (`Node.elements_prune`), and both resolve alike
(`Node.resolve_prune`). So two trees with the same pruned tree resolve
alike, in every pass (`Node.resolve_eq_of_prune_eq`), which carries the
statement about one element to replaced children at any depth.

Pruning keeps that there is a list. An element without one is another
matter: plain text finds no place there.
-/
import Prerender.Proofs.Resolve.Walk

namespace Prerender

-- ============================================================ one element

/-- Where an option takes the place of the children, nothing is resolved after
the options. -/
theorem Element.resolve_of_replaces {map : OptionMap}
    (replaces : map.replacesContent = true)
    (tag : String) (children : Option (List Node)) (pass : Pass) :
    Element.resolve ⟨tag, .options map, children⟩ pass
      = (do
          let host ← Host.applyOptions
            ⟨tag, map, .ofChildren children⟩ map.entries
          return ⟨tag, .options host.options, some host.content.lead⟩ :
            Resolve Element) pass := by
  rw [Element.resolve]
  refine Resolve.bind_congr fun host mid hrun => ?_
  have hkeeps := Host.replacesContent_of_ok hrun
  rw [replaces] at hkeeps
  cases hcontent : host.content with
  | absent =>
      rw [hcontent] at hkeeps
      cases hkeeps
  | list lead keeps =>
      rw [hcontent] at hkeeps
      cases keeps with
      | true => cases hkeeps
      | false => rfl

/-- Children that an option takes the place of leave no trace. Whatever they
are, their element comes to the same tree or the same error, with the same
bindings and the same next key. -/
theorem Element.resolve_replaced {map : OptionMap}
    (replaces : ∃ option ∈ map.entries,
      option.2.replacesContent option.1 = true) (tag : String)
    (written other : List Node) (pass : Pass) :
    Element.resolve ⟨tag, .options map, some written⟩ pass
      = Element.resolve ⟨tag, .options map, some other⟩ pass := by
  have hreplaces : map.replacesContent = true := List.any_eq_true.2 replaces
  rw [resolve_of_replaces hreplaces, resolve_of_replaces hreplaces]
  rfl

/-- Options of which the second takes the place of the children and of the
text before it. -/
def OptionMap.sampleReplacing : OptionMap :=
  .ofList [("innerText", .literal (.str "a")),
    ("innerHtml", .reactive (.state ⟨⟨0⟩, .literal (.str "<b>c</b>"), none⟩)),
    ("innertext", .literal (.int 1))]

/-- They take the place of a child that could not be resolved and of one that
would take a key. -/
theorem OptionMap.sampleReplacing_resolve :
    let broken : List Node :=
    [.element ⟨"b", .options (.ofList [("a", .literal (.obj []))]), none⟩]
    let bound : List Node :=
      [.element ⟨"b",
        .options (.ofList [("a", .reactive (.reference ⟨.null⟩))]), none⟩]
    (∃ e, Node.resolveChildren (some broken) .fresh = .error e .fresh)
      ∧ (∃ rest b, Node.resolveChildren (some bound) .fresh = .ok rest ⟨1, [b]⟩)
      ∧ Element.resolve ⟨"p", .options sampleReplacing, some broken⟩ .fresh
        = Element.resolve ⟨"p", .options sampleReplacing, some bound⟩ .fresh :=
  ⟨⟨_, rfl⟩, ⟨_, _, rfl⟩, Element.resolve_replaced (by decide) ..⟩

-- ============================================================ whole trees

mutual

/-- The tree with every list of children emptied that options take the place
of, fragments apart. -/
def Node.prune : Node → Node
  | .text s => .text s
  | .markup s => .markup s
  | .number d => .number d
  | .bool b => .bool b
  | .fragment items => .fragment items
  | .element e => .element e.prune

/-- The element pruned. That there is a list of children is left as it is. -/
def Element.prune : Element → Element
  | ⟨tag, .child node, children⟩ =>
      ⟨tag, .child node.prune, Node.pruneChildren children⟩
  | ⟨tag, .options map, children⟩ =>
      ⟨tag, .options map,
        if map.replacesContent then children.map fun _ => []
        else Node.pruneChildren children⟩

/-- The written children pruned, if there is a list of them. -/
def Node.pruneChildren : Option (List Node) → Option (List Node)
  | none => none
  | some children => some (Node.pruneAll children)

/-- The nodes of a list pruned. -/
def Node.pruneAll : List Node → List Node
  | [] => []
  | node :: rest => node.prune :: Node.pruneAll rest

end

/-- Pruning makes no list of children and takes none away. -/
theorem Node.isSome_pruneChildren (children : Option (List Node)) :
    (Node.pruneChildren children).isSome = children.isSome := by
  cases children with
  | none => rfl
  | some children => rfl

/-- Before the options, content is told by whether there is a list. -/
theorem Content.ofChildren_congr {children other : Option (List Node)}
    (h : children.isSome = other.isSome) :
    ofChildren children = ofChildren other := by
  rw [ofChildren, ofChildren, h]

/-- Pruning makes no element complete and none incomplete. -/
theorem Node.isMisplaced_prune (node : Node) :
    node.prune.isMisplaced = node.isMisplaced := by
  cases node with
  | element e =>
      obtain ⟨tag, slot, children⟩ := e
      rw [Node.prune]
      cases slot with
      | child node =>
          rw [Element.prune]
          have hslot : (Slot.child node.prune).isTruthy
              = (Slot.child node).isTruthy := by
            cases node <;> rfl
          -- complete is what has a tag, a slot and a list, and none of the
          -- three changes
          show (_ && Slot.isTruthy _ && Option.isSome _) = _
          rw [hslot, Node.isSome_pruneChildren]
          rfl
      | options map =>
          rw [Element.prune]
          show (_ && Slot.isTruthy _ && Option.isSome _) = _
          split
          · rw [Option.isSome_map]
            rfl
          · rw [Node.isSome_pruneChildren]
            rfl
  | _ => rfl

mutual

/-- What pruning leaves of a tree is what resolving comes by. -/
theorem Node.elements_prune : ∀ node : Node,
    node.prune.elements = node.visited.map Element.prune
  | .text _ | .markup _ | .number _ | .bool _ | .fragment _ => by
      unfold Node.prune Node.elements Node.visited
      rfl
  | .element e => by
      rw [Node.prune, Node.elements, Node.visited]
      exact e.elements_prune

/-- So it is for an element: what is emptied is what is not visited. -/
theorem Element.elements_prune : ∀ e : Element,
    e.prune.elements = e.visited.map Element.prune
  | ⟨tag, .child node, children⟩ => by
      rw [Element.visited, List.map_cons, List.map_append,
        ← node.elements_prune, ← Node.childElements_prune children,
        Element.prune, Element.elements, Slot.elements]
  | ⟨tag, .options map, children⟩ => by
      rw [Element.visited, List.map_cons, Element.prune, Element.elements,
        Slot.elements, List.nil_append]
      cases map.replacesContent with
      | true =>
          rw [if_pos rfl, if_pos rfl]
          cases children with
          | none => rfl
          | some children => rfl
      | false =>
          rw [if_neg Bool.false_ne_true, if_neg Bool.false_ne_true,
            Node.childElements_prune children]

/-- For a list of children, if there is one. -/
theorem Node.childElements_prune : ∀ children : Option (List Node),
    Node.childElements (Node.pruneChildren children)
      = (Node.childVisited children).map Element.prune
  | none => by
      unfold Node.pruneChildren Node.childElements Node.childVisited
      rfl
  | some children => by
      rw [Node.pruneChildren, Node.childElements, Node.childVisited]
      exact Node.rowElements_prune children

theorem Node.rowElements_prune : ∀ row : List Node,
    Node.rowElements (Node.pruneAll row)
      = (Node.rowVisited row).map Element.prune
  | [] => by
      unfold Node.pruneAll Node.rowElements Node.rowVisited
      rfl
  | node :: rest => by
      rw [Node.pruneAll, Node.rowElements, Node.rowVisited, List.map_append,
        node.elements_prune, Node.rowElements_prune rest]

end

mutual

/-- A tree and the pruned one resolve alike. -/
theorem Node.resolve_prune : ∀ node : Node, node.prune.resolve = node.resolve
  | .text _ | .markup _ | .number _ | .bool _ | .fragment _ => rfl
  | .element e => by
    rw [Node.prune, Node.resolve, Node.resolve, e.resolve_prune]

/-- An element resolves as the pruned one does: lists that are emptied leave
no trace. -/
theorem Element.resolve_prune : ∀ e : Element, e.prune.resolve = e.resolve
  | ⟨tag, .child node, children⟩ => by
      rw [Element.prune, Element.resolve, Element.resolve,
        node.isMisplaced_prune, node.resolve_prune,
        Node.resolveChildren_prune children]
  | ⟨tag, .options map, children⟩ => by
      rw [Element.prune]
      cases hreplaces : map.replacesContent with
      | true =>
          funext pass
          rw [if_pos rfl, Element.resolve_of_replaces hreplaces,
            Element.resolve_of_replaces hreplaces,
            Content.ofChildren_congr Option.isSome_map]
      | false =>
          rw [if_neg Bool.false_ne_true, Element.resolve, Element.resolve,
            Node.resolveChildren_prune children,
            Content.ofChildren_congr (Node.isSome_pruneChildren children)]

theorem Node.resolveChildren_prune : ∀ children : Option (List Node),
    Node.resolveChildren (Node.pruneChildren children)
      = Node.resolveChildren children
  | none => rfl
  | some children => by
      rw [Node.pruneChildren, Node.resolveChildren, Node.resolveChildren,
        Node.resolveAll_prune children]

theorem Node.resolveAll_prune : ∀ row : List Node,
    Node.resolveAll (Node.pruneAll row) = Node.resolveAll row
  | [] => rfl
  | node :: rest => by
      rw [Node.pruneAll, Node.resolveAll, Node.resolveAll, node.resolve_prune,
        Node.resolveAll_prune rest]

end

/-- Trees that differ in nothing but replaced children, at any depth, resolve
alike in every pass. -/
theorem Node.resolve_eq_of_prune_eq {node other : Node}
    (same : node.prune = other.prune)
    (pass : Pass) : node.resolve pass = other.resolve pass := by
  rw [← node.resolve_prune, same, other.resolve_prune]

end Prerender
