/-
The elements that resolving a tree comes by, in order, and what becomes
of each.

Two walks go in document order and stay out of fragments: `elements`
over every element of a tree, a child in the place of the options before
the written children, and `visited`, which leaves out the children that
an option replaces. Resolving works off the options of the visited
elements one after the other and of no others, and the elements of the
result are what is left of them.

This is the bridge from trees to rows, and it is built once
(`Node.resolve_workedOff`), by one case for each constructor with a
lemma of `Success` behind each:

- one element is worked off (`Element.WorkedOff`): its options, from the
  pass as it stands to the pass as it is then, and what is left of it;
- a row is worked off element by element, each from the pass that the
  one before leaves (`Element.WorkedOffAll`).

Whatever is claimed of all elements of a resolved tree, of their keys or
of their bindings, is from here on an induction over a list. The tree
comes back only where elements are found in it, and there
`Node.visited_sublist` says that a visited element is one of the tree.

Of the children of an element the chain says only what the options alone
decide: if they replaced them, what stands in their place. The rest of
the children is resolved after the element, and its elements are further
on in the row.
-/
import Prerender.Proofs.Resolve.KeyCourse
import Prerender.Proofs.Resolve.Success

namespace Prerender

-- ============================================================= the walks

mutual

/-- The elements of a node outside fragments, in document order. -/
def Node.elements : Node → List Element
  | .text _ | .markup _ | .number _ | .bool _ | .fragment _ => []
  | .element e => e.elements

/-- The element itself, then what is in its options slot, then its children. -/
def Element.elements : Element → List Element
  | ⟨tag, slot, children⟩ =>
      ⟨tag, slot, children⟩ :: (slot.elements ++ Node.childElements children)

/-- The elements in an options slot. -/
def Slot.elements : Slot → List Element
  | .options _ => []
  | .child node => node.elements

/-- The elements in a list of children, if there is one. -/
def Node.childElements : Option (List Node) → List Element
  | none => []
  | some children => Node.rowElements children

/-- The elements in a row of nodes. -/
def Node.rowElements : List Node → List Element
  | [] => []
  | node :: rest => node.elements ++ Node.rowElements rest

end

mutual

/-- The elements of a node that resolving comes by. -/
def Node.visited : Node → List Element
  | .text _ | .markup _ | .number _ | .bool _ | .fragment _ => []
  | .element e => e.visited

/-- The element itself and, unless its options replace them, its children; a
child in the place of the options comes first among these. -/
def Element.visited : Element → List Element
  | ⟨tag, .child node, children⟩ =>
      ⟨tag, .child node, children⟩
        :: (node.visited ++ Node.childVisited children)
  | ⟨tag, .options map, children⟩ =>
      ⟨tag, .options map, children⟩ ::
        if map.replacesContent then [] else Node.childVisited children

/-- The visited elements in a list of children, if there is one. -/
def Node.childVisited : Option (List Node) → List Element
  | none => []
  | some children => Node.rowVisited children

/-- The visited elements in a row of nodes. -/
def Node.rowVisited : List Node → List Element
  | [] => []
  | node :: rest => node.visited ++ Node.rowVisited rest

end

mutual

/-- Resolving comes by elements of the tree, in the order in which they stand
there. -/
theorem Node.visited_sublist : ∀ node : Node, node.visited.Sublist node.elements
  | .text _ | .markup _ | .number _ | .bool _ | .fragment _ => by
      unfold Node.visited Node.elements
      exact .slnil
  | .element e => by
      rw [Node.visited, Node.elements]
      exact e.visited_sublist

/-- So it is for an element: children that are replaced are left out. -/
theorem Element.visited_sublist : ∀ e : Element, e.visited.Sublist e.elements
  | ⟨tag, .child node, children⟩ => by
      rw [Element.visited, Element.elements, Slot.elements]
      exact (node.visited_sublist.append
        (Node.childVisited_sublist children)).cons_cons _
  | ⟨tag, .options map, children⟩ => by
      rw [Element.visited, Element.elements, Slot.elements, List.nil_append]
      refine List.Sublist.cons_cons _ ?_
      split
      · exact List.nil_sublist _
      · exact Node.childVisited_sublist children

/-- For a list of children, if there is one. -/
theorem Node.childVisited_sublist : ∀ children : Option (List Node),
    (Node.childVisited children).Sublist (Node.childElements children)
  | none => by
      unfold Node.childVisited Node.childElements
      exact .slnil
  | some children => by
      rw [Node.childVisited, Node.childElements]
      exact Node.rowVisited_sublist children

theorem Node.rowVisited_sublist : ∀ row : List Node,
    (Node.rowVisited row).Sublist (Node.rowElements row)
  | [] => by
      unfold Node.rowVisited Node.rowElements
      exact .slnil
  | node :: rest => by
      rw [Node.rowVisited, Node.rowElements]
      exact node.visited_sublist.append (Node.rowVisited_sublist rest)

end

-- ================================================= what options put in

theorem Node.rowElements_append (front back : List Node) :
    Node.rowElements (front ++ back)
      = Node.rowElements front ++ Node.rowElements back := by
  induction front with
  | nil => rfl
  | cons node rest ih =>
      rw [List.cons_append, Node.rowElements, Node.rowElements, ih,
        List.append_assoc]

/-- Data turns into no element outside fragments. -/
theorem Node.elements_ofJson (data : Json) :
    (Node.ofJson data).elements = [] := by
  cases data <;> rfl

theorem Node.elements_ofMarkup (data : Json) :
    (Node.ofMarkup data).elements = [] := by
  cases data <;> rfl

/-- A row of nodes without elements has none. -/
theorem Node.rowElements_eq_nil {row : List Node}
    (h : ∀ node ∈ row, node.elements = []) :
    Node.rowElements row = [] := by
  induction row with
  | nil => rfl
  | cons node rest ih =>
      obtain ⟨hnode, hrest⟩ := List.forall_mem_cons.1 h
      rw [Node.rowElements, hnode, ih hrest, List.append_nil]

/-- What the options of an element put into its content holds no element. -/
theorem Host.rowElements_lead {tag : String} {map : OptionMap}
    {children : Option (List Node)}
    {host : Host} {options : List (String × OptionValue)} {pass pass' : Pass}
    (h : Host.applyOptions ⟨tag, map, .ofChildren children⟩ options pass
      = .ok host pass') :
    Node.rowElements host.content.lead = [] :=
  Node.rowElements_eq_nil
    (Host.applyOptions_lead Node.elements_ofJson Node.elements_ofMarkup h)

-- ============================================================ the chain

/-- The options of `e` are worked off in `pass`, which leaves `o` of it and
the pass as `pass'`. Of the children of `o` this says what the options alone
decide. -/
def Element.WorkedOff (pass : Pass) (e o : Element) (pass' : Pass) : Prop :=
  ∃ host, (Host.ofElement e).applyOptions e.written pass = .ok host pass'
    ∧ o.tag = e.tag ∧ o.slot = .options host.options
    ∧ ∀ lead, host.content = .list lead false → o.children = some lead

/-- What working off the options of an element leaves is where its key's
course ends. -/
theorem Element.WorkedOff.course {pass pass' : Pass} {e o : Element}
    (h : e.WorkedOff pass o pass') :
    o.keyOption? = (e.course pass.nextKey).entry
      ∧ pass'.nextKey = (e.course pass.nextKey).next
      ∧ pass'.bindings = pass.bindings ++ (e.course pass.nextKey).noted := by
  obtain ⟨host, hrun, -, hslot, -⟩ := h
  obtain ⟨new, hbindings, hcourse⟩ := Host.applyOptions_course hrun []
  have hend : e.course pass.nextKey = host.keyCourse pass'.nextKey new :=
    hcourse
  rw [hend, Element.keyOption?, hslot]
  exact ⟨rfl, rfl, hbindings⟩

/-- The elements of a row are worked off one after the other. -/
inductive Element.WorkedOffAll :
    Pass → List Element → List Element → Pass → Prop
  | nil {pass : Pass} : WorkedOffAll pass [] [] pass
  | cons {pass mid pass' : Pass} {e o : Element} {es os : List Element}
      (first : e.WorkedOff pass o mid) (rest : WorkedOffAll mid es os pass') :
      WorkedOffAll pass (e :: es) (o :: os) pass'

/-- Rows are worked off one after the other. -/
theorem Element.WorkedOffAll.append {pass mid pass' : Pass}
    {es os es' os' : List Element}
    (front : WorkedOffAll pass es os mid)
    (back : WorkedOffAll mid es' os' pass') :
    WorkedOffAll pass (es ++ es') (os ++ os') pass' := by
  induction front with
  | nil => exact back
  | cons first _ ih => exact .cons first (ih back)

mutual

/-- Resolving a node works off the options of the elements that it comes by,
one after the other, and the elements of the result are what is left of them. -/
theorem Node.resolve_workedOff : ∀ {node out : Node} {pass pass' : Pass},
    node.resolve pass = .ok out pass' →
      Element.WorkedOffAll pass node.visited out.elements pass'
  | .text _, _, _, _, h | .markup _, _, _, _, h | .number _, _, _, _,
      h | .bool _, _, _, _, h
  | .fragment _, _, _, _, h => by
      cases h
      exact .nil
  | .element e, out, pass, pass', h => by
      obtain ⟨o, hresolve, rfl⟩ := Node.resolve_element_ok.1 h
      rw [Node.visited, Node.elements]
      exact e.resolve_workedOff hresolve

/-- So it is for an element, in each of the ways that it can come to an end.
-/
theorem Element.resolve_workedOff :
    ∀ (e : Element) {o : Element} {pass pass' : Pass},
      e.resolve pass = .ok o pass' →
      Element.WorkedOffAll pass e.visited o.elements pass'
  | ⟨tag, .child node, children⟩, o, pass, pass', h => by
      obtain ⟨-, first, mid, rest, hfirst, hrest, rfl⟩ :=
        Element.resolve_child_ok.1 h
      rw [Element.visited, Element.elements, Slot.elements, List.nil_append,
        Node.childElements, Node.rowElements]
      refine .cons ⟨_, rfl, rfl, rfl, ?_⟩
        ((Node.resolve_workedOff hfirst).append
          (Node.resolveChildren_workedOff hrest))
      -- a child in the slot leaves the content to the written children
      cases children <;> nofun
  | ⟨tag, .options map, children⟩, o, pass, pass', h => by
      obtain ⟨host, mid, hoptions, hends⟩ := Element.resolve_options_ok h
      have hlead := Host.rowElements_lead hoptions
      rw [Element.visited]
      rcases hends with ⟨rfl, hcontent, hreplaces, rfl, rfl⟩
        | ⟨lead, hcontent, hreplaces, rfl, rfl⟩
        | ⟨lead, rest, hcontent, hreplaces, hrest, rfl⟩
      · -- without a list of children there is nothing more to visit
        rw [hreplaces]
        exact .cons ⟨host, hoptions, rfl, rfl, by rw [hcontent]; nofun⟩ .nil
      · -- replaced children are not visited, and what replaces them has no
        -- element
        rw [hcontent] at hlead
        rw [hreplaces, if_pos rfl, Element.elements, Slot.elements,
          List.nil_append, Node.childElements,
          show Node.rowElements lead = [] from hlead]
        refine .cons ⟨host, hoptions, rfl, rfl, ?_⟩ .nil
        rw [hcontent]
        intro _ hlead
        cases hlead
        rfl
      · -- kept children are resolved after the element
        rw [hcontent] at hlead
        rw [hreplaces, if_neg Bool.false_ne_true, Element.elements,
          Slot.elements, List.nil_append, Node.childElements,
          Node.rowElements_append, show Node.rowElements lead = [] from hlead,
          List.nil_append]
        refine .cons ⟨host, hoptions, rfl, rfl, ?_⟩
          (Node.resolveChildren_workedOff hrest)
        rw [hcontent]
        nofun

/-- For a list of children, if there is one. -/
theorem Node.resolveChildren_workedOff :
    ∀ {children : Option (List Node)} {nodes : List Node} {pass pass' : Pass},
      Node.resolveChildren children pass = .ok nodes pass' →
      Element.WorkedOffAll pass (Node.childVisited children)
        (Node.rowElements nodes) pass'
  | none, _, _, _, h => by
      cases h
      exact .nil
  | some children, _, _, _, h => by
      rw [Node.resolveChildren] at h
      rw [Node.childVisited]
      exact Node.resolveAll_workedOff h

theorem Node.resolveAll_workedOff :
    ∀ {row nodes : List Node} {pass pass' : Pass},
      Node.resolveAll row pass = .ok nodes pass' →
      Element.WorkedOffAll pass (Node.rowVisited row)
        (Node.rowElements nodes) pass'
  | [], _, _, _, h => by
      cases h
      exact .nil
  | node :: rest, nodes, pass, pass', h => by
      obtain ⟨first, mid, others, hfirst, hothers, rfl⟩ :=
        Node.resolveAll_cons_ok.1 h
      rw [Node.rowVisited, Node.rowElements]
      exact (Node.resolve_workedOff hfirst).append
        (Node.resolveAll_workedOff hothers)

end

end Prerender
