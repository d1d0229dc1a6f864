/-
The elements of a document.

A reader comes by one start tag for each element that the renderer
writes, in order and with the attributes of its options
(`Html.filterMap_events`). Which elements are these? Not those of the
tree as resolving goes through it (`Node.elements`). The document also
shows what is in fragments, into which resolving does not go, and it
shows nothing of what is in an element that never has content.

As far as keys go the two agree (`Node.filter_shown_resolve`). What a
resolved tree holds in fragments was not resolved, and has no key unless
the author wrote one. An element that never has content holds no
element, unless it was written with children or with a child in the
place of its options. Both are excluded by `Node.LosesNoKey`, which is
asked of every node of the tree before it is resolved, and can be
decided.

So the keys in a document may be counted on the tree: a tag shows a key
if the element has it as an option in its final form
(`Html.showsKey_of_keyOption?_eq_some`).
-/
import Prerender.Proofs.Html.Events
import Prerender.Proofs.Number.Digits
import Prerender.Proofs.Resolve.Numbering

namespace Prerender

mutual

/-- The elements that are written for a node, in document order: also those in
fragments, and none in an element that closes itself. -/
def Node.shown : Node → List Element
  | .text _ | .markup _ | .number _ | .bool _ => []
  | .fragment items => Node.rowShown items
  | .element e => e.shown

/-- The element itself and, unless it closes itself, those among its
children. -/
def Element.shown : Element → List Element
  | ⟨tag, slot, none⟩ => [⟨tag, slot, none⟩]
  | ⟨tag, slot, some children⟩ =>
      ⟨tag, slot, some children⟩ ::
        if Html.voidTags.contains tag then [] else Node.rowShown children

/-- The elements that are written for a row of nodes. -/
def Node.rowShown : List Node → List Element
  | [] => []
  | node :: rest => node.shown ++ Node.rowShown rest

end

theorem Node.rowShown_append (front back : List Node) :
    Node.rowShown (front ++ back) = Node.rowShown front
      ++ Node.rowShown back := by
  induction front with
  | nil => rfl
  | cons node rest ih =>
      rw [List.cons_append, Node.rowShown, Node.rowShown, ih, List.append_assoc]

-- ========================================================== start tags

namespace Html

/-- The attributes of the tag of an element, if the event is one. -/
def Event.attributes? : Event → Option (List (String × Option String))
  | .opening _ attributes | .selfClosed _ attributes => some attributes
  | .text _ | .closing _ => none

theorem filterMap_textEvent (cs : List Char) :
    (textEvent cs).filterMap Event.attributes? = [] := by
  unfold textEvent
  split <;> rfl

/-- Going through events with a text in hand leaves the tags as they are. -/
theorem filterMap_settle (pending : List Char) (all : List Event) :
    (settle pending all).1.filterMap Event.attributes?
      = all.filterMap Event.attributes? := by
  induction all generalizing pending with
  | nil => rfl
  | cons event rest ih =>
      cases event with
      | text s => exact ih _
      | opening tag attributes | closing tag | selfClosed tag attributes =>
          simp only [settle, List.filterMap_append, filterMap_textEvent,
            List.nil_append, List.filterMap_cons, ih]

/-- Merging texts leaves the tags as they are. -/
theorem filterMap_mergeTexts (all : List Event) :
    (mergeTexts all).filterMap Event.attributes?
      = all.filterMap Event.attributes? := by
  rw [mergeTexts, List.filterMap_append, filterMap_textEvent, filterMap_settle,
    List.append_nil]

mutual

/-- The start tags of a tree are those of the elements that are written. -/
theorem filterMap_events : ∀ node : Node,
    (events node).filterMap Event.attributes?
      = node.shown.map fun e => readAttributes e.slot
  | .text _ | .markup _ | .number _ | .bool _ => rfl
  | .fragment items => by
      rw [events, Node.shown]
      exact filterMap_rowEvents items
  | .element e => by
      rw [events, Node.shown]
      exact filterMap_elementEvents e

/-- The first of them is that of the element itself. -/
theorem filterMap_elementEvents : ∀ e : Element,
    (elementEvents e).filterMap Event.attributes?
      = e.shown.map fun e => readAttributes e.slot
  | ⟨_, _, none⟩ => rfl
  | ⟨tag, slot, some children⟩ => by
      rw [elementEvents, Element.shown]
      cases voidTags.contains tag with
      | true => rfl
      | false =>
          show readAttributes slot
            :: ((rowEvents children ++ [Event.closing tag]).filterMap _) = _
          rw [List.filterMap_append, filterMap_rowEvents children]
          exact congrArg (readAttributes slot :: ·) (List.append_nil _)

/-- Those of a row are those of its nodes. -/
theorem filterMap_rowEvents : ∀ row : List Node,
    (rowEvents row).filterMap Event.attributes?
      = (Node.rowShown row).map fun e => readAttributes e.slot
  | [] => rfl
  | node :: rest => by
      rw [rowEvents, Node.rowShown, List.filterMap_append, List.map_append,
        filterMap_events node, filterMap_rowEvents rest]

end

-- ================================================================ keys

/-- The attributes of an element that has the key. -/
def keyAttribute (key : ElementKey) : String × Option String :=
  (OptionName.key, some (toString key.number.toNat))

/-- The number of tags with the key. -/
def keyCount (key : ElementKey) (all : List Event) : Nat :=
  (all.filterMap Event.attributes?).countP fun shown =>
    shown.contains (keyAttribute key)

/-- Whether the document shows the key on the element. -/
def showsKey (key : ElementKey) (e : Element) : Bool :=
  (readAttributes e.slot).contains (keyAttribute key)

/-- Tags with a key are counted on the tree. -/
theorem keyCount_events (key : ElementKey) (node : Node) :
    keyCount key (mergeTexts (events node))
      = node.shown.countP (showsKey key) := by
  rw [keyCount, filterMap_mergeTexts, filterMap_events, List.countP_map]
  rfl

/-- An attribute is shown exactly if the option of its name shows its value. -/
theorem mem_readAttributes {slot : Slot} {name : String}
    {shown : Option String} :
    (name, shown) ∈ readAttributes slot
      ↔ ∃ value, slot.optionsOrEmpty.get? name = some value
          ∧ readValue? name value = some shown := by
  cases slot with
  | child node => exact ⟨nofun, fun h => nomatch h⟩
  | options map =>
      simp only [readAttributes, List.mem_filterMap, Option.map_eq_some_iff,
        Prod.mk.injEq]
      constructor
      · intro h
        obtain ⟨⟨k, value⟩, hmem, _, hread, rfl, rfl⟩ := h
        exact ⟨value, OrderedMap.get?_eq_some_iff.2 hmem, hread⟩
      · intro h
        obtain ⟨value, hget, hread⟩ := h
        exact ⟨(name, value), OrderedMap.get?_eq_some_iff.1 hget, shown,
          hread, rfl, rfl⟩

theorem showsKey_of_keyOption?_eq_none {e : Element} (h : e.keyOption? = none)
    (key : ElementKey) :
    showsKey key e = false := by
  refine Bool.eq_false_iff.2 fun hshows => ?_
  obtain ⟨value, hvalue, -⟩ :=
    mem_readAttributes.1 (List.contains_iff_mem.1 hshows)
  rw [show e.slot.optionsOrEmpty.get? OptionName.key = none from h] at hvalue
  cases hvalue

/-- An element with a key shows it, and no other. -/
theorem showsKey_of_keyOption?_eq_some {e : Element} {own : ElementKey}
    (h : e.keyOption? = some own.toOption) (key : ElementKey) :
    showsKey key e = decide (own = key) := by
  rw [Bool.eq_iff_iff, decide_eq_true_iff, showsKey, List.contains_iff_mem]
  have hget : e.slot.optionsOrEmpty.get? OptionName.key = some own.toOption := h
  have hread :
      readValue? OptionName.key own.toOption
        = some (some (toString own.number.toNat)) := rfl
  rw [keyAttribute, mem_readAttributes, hget]
  constructor
  · intro hshown
    obtain ⟨_, hvalue, hshown⟩ := hshown
    cases hvalue
    rw [hread, Option.some.injEq, Option.some.injEq, Text.toString_nat_inj]
      at hshown
    exact congrArg ElementKey.mk (UInt32.toNat_inj.1 hshown)
  · rintro rfl
    exact ⟨_, rfl, hread⟩

end Html

-- ======================================================== resolved trees

namespace Node

mutual

/-- Every element that is written is part of the tree. -/
theorem mem_parts_of_mem_shown : ∀ {node : Node} {e : Element},
    e ∈ node.shown → .element e ∈ node.parts
  | .fragment items, e, h => by
      rw [parts]
      exact List.mem_cons_of_mem _ (mem_rowParts_of_mem_rowShown h)
  | .element ⟨tag, slot, none⟩, e, h => by
      rw [parts, List.mem_singleton.1 h]
      exact List.mem_cons_self
  | .element ⟨tag, slot, some children⟩, e, h => by
      rw [shown, Element.shown, List.mem_cons] at h
      rw [parts]
      rcases h with rfl | h
      · exact List.mem_cons_self
      · split at h
        · cases h
        · refine List.mem_cons_of_mem _ (List.mem_append_right _ ?_)
          exact mem_rowParts_of_mem_rowShown h

theorem mem_rowParts_of_mem_rowShown : ∀ {row : List Node} {e : Element},
    e ∈ rowShown row → .element e ∈ rowParts row
  | node :: rest, e, h => by
      rw [rowShown, List.mem_append] at h
      rw [rowParts, List.mem_append]
      exact h.imp mem_parts_of_mem_shown mem_rowParts_of_mem_rowShown

end

mutual

/-- Resolving comes by parts of the tree. -/
theorem mem_parts_of_mem_visited : ∀ {node : Node} {e : Element},
    e ∈ node.visited → .element e ∈ node.parts
  | .element ⟨tag, .child node, children⟩, e, h => by
      rw [visited, Element.visited, List.mem_cons] at h
      rw [parts]
      rcases h with rfl | h
      · exact List.mem_cons_self
      · refine List.mem_cons_of_mem _ (List.mem_append.2 ?_)
        exact (List.mem_append.1 h).imp mem_parts_of_mem_visited
          mem_childParts_of_mem_childVisited
  | .element ⟨tag, .options map, children⟩, e, h => by
      rw [visited, Element.visited, List.mem_cons] at h
      rw [parts]
      rcases h with rfl | h
      · exact List.mem_cons_self
      · split at h
        · cases h
        · refine List.mem_cons_of_mem _ (List.mem_append_right _ ?_)
          exact mem_childParts_of_mem_childVisited h

theorem mem_childParts_of_mem_childVisited :
    ∀ {children : Option (List Node)} {e : Element}, e ∈ childVisited children →
      .element e ∈ childParts children
  | some children, e, h => by
      rw [childVisited] at h
      rw [childParts]
      exact mem_rowParts_of_mem_rowVisited h

theorem mem_rowParts_of_mem_rowVisited : ∀ {row : List Node} {e : Element},
    e ∈ rowVisited row → .element e ∈ rowParts row
  | node :: rest, e, h => by
      rw [rowVisited, List.mem_append] at h
      rw [rowParts, List.mem_append]
      exact h.imp mem_parts_of_mem_visited mem_rowParts_of_mem_rowVisited

end

mutual

/-- Data turns into no element, in fragments neither. -/
theorem shown_ofJson : ∀ data : Json, (ofJson data).shown = []
  | .null | .bool _ | .int _ | .double _ | .str _ | .obj _ => rfl
  | .arr items => by
      rw [ofJson, shown, rowShown_ofJsonItems]

theorem rowShown_ofJsonItems : ∀ items : List Json,
    rowShown (ofJsonItems items) = []
  | [] => rfl
  | item :: rest => by
      rw [ofJsonItems, rowShown, shown_ofJson, rowShown_ofJsonItems]
      rfl

end

theorem shown_ofMarkup (data : Json) : (ofMarkup data).shown = [] := by
  cases data with
  | str s => rfl
  | _ => exact shown_ofJson _

/-- Nodes without elements make a row without elements. -/
theorem rowShown_eq_nil {row : List Node} (h : ∀ node ∈ row, node.shown = []) :
    rowShown row = [] := by
  induction row with
  | nil => rfl
  | cons node rest ih =>
      obtain ⟨hnode, hrest⟩ := List.forall_mem_cons.1 h
      rw [rowShown, hnode, ih hrest, List.append_nil]

/-- Whether the document loses no key of the node: an element has no option
named `key`, and one that never has content has no list of children and no
element in the place of its options. -/
def LosesNoKey : Node → Prop
  | .element e => e.AvoidsKey
      ∧ (Html.voidTags.contains e.tag = true → e.children = none
        ∧ e.slot.elements = [])
  | _ => True

end Node

instance : DecidablePred Node.LosesNoKey
  | .text _ | .markup _ | .number _ | .bool _ | .fragment _ => isTrue trivial
  | .element e =>
      have : Decidable (e.children = none ∧ e.slot.elements = []) :=
        decidable_of_iff
          (e.children.isNone = true ∧ e.slot.elements.isEmpty = true)
          (by rw [Option.isNone_iff_eq_none, List.isEmpty_iff])
      inferInstanceAs (Decidable (_ ∧ (_ → _)))

/-- Whether the element has a key. -/
def Element.isKeyed (e : Element) : Bool := e.keyOption?.isSome

/-- Where no element has an option named `key`, none that is written has a
key. -/
theorem Node.filter_rowShown_of_avoids {row : List Node}
    (h : ∀ part ∈ Node.rowParts row, part.LosesNoKey) :
    (Node.rowShown row).filter Element.isKeyed = [] := by
  refine List.filter_eq_nil_iff.2 fun e he hkeyed => ?_
  have havoids := (h _ (Node.mem_rowParts_of_mem_rowShown he)).1
  rw [Element.isKeyed, havoids.keyOption?] at hkeyed
  cases hkeyed

/-- What holds no element holds none when it is resolved. -/
theorem Node.elements_resolve_eq_nil {node out : Node} {pass pass' : Pass}
    (h : node.resolve pass = .ok out pass') (none : node.elements = []) :
    out.elements = [] := by
  have hrun := Node.resolve_workedOff h
  have hvisited : node.visited = [] :=
    List.sublist_nil.1 (none ▸ node.visited_sublist)
  rw [hvisited] at hrun
  generalize out.elements = os at hrun
  cases hrun
  rfl

/-- One element more in front of two rows. -/
theorem filter_cons_congr {α : Type} {p : α → Bool} {a : α}
    {front back : List α}
    (h : front.filter p = back.filter p) :
    (a :: front).filter p = (a :: back).filter p := by
  rw [List.filter_cons, List.filter_cons, h]

mutual

/-- The elements with a key that are written for a resolved tree are those of
the tree. -/
theorem Node.filter_shown_resolve : ∀ {node out : Node} {pass pass' : Pass},
    (∀ part ∈ node.parts, part.LosesNoKey) → node.resolve pass = .ok out pass' →
      out.shown.filter Element.isKeyed = out.elements.filter Element.isKeyed
  | .text _, _, _, _, _, h | .markup _, _, _, _, _, h | .number _, _, _, _, _, h
  | .bool _, _, _, _, _, h => by
      cases h
      rfl
  | .fragment items, _, _, _, loses, h => by
      cases h
      rw [Node.parts, List.forall_mem_cons] at loses
      exact Node.filter_rowShown_of_avoids loses.2
  | .element e, out, pass, pass', loses, h => by
      obtain ⟨o, hresolve, rfl⟩ := Node.resolve_element_ok.1 h
      rw [Node.parts, List.forall_mem_cons] at loses
      exact e.filter_shown_resolve loses.1.2 loses.2 hresolve

/-- An element shows its own key first, and then those of its content. -/
theorem Element.filter_shown_resolve :
    ∀ (e : Element) {o : Element} {pass pass' : Pass},
    (Html.voidTags.contains e.tag = true → e.children = none
      ∧ e.slot.elements = []) →
    (∀ part ∈ e.parts, part.LosesNoKey) → e.resolve pass = .ok o pass' →
      o.shown.filter Element.isKeyed = o.elements.filter Element.isKeyed
  | ⟨tag, .child node, children⟩, o, pass, pass', void, loses, h => by
      rw [Element.parts, Slot.parts, List.forall_mem_append] at loses
      obtain ⟨-, first, mid, rest, hfirst, hrest, rfl⟩ :=
        Element.resolve_child_ok.1 h
      rw [Element.shown, Element.elements, Slot.elements, Node.childElements,
        Node.rowShown, Node.rowElements, List.nil_append]
      -- an element that never has content has none to lose; any other shows
      -- all
      cases hvoid : Html.voidTags.contains tag with
      | true =>
          obtain ⟨hchildren, hnode⟩ := void hvoid
          cases hchildren
          cases hrest
          rw [Node.elements_resolve_eq_nil hfirst hnode]
          rfl
      | false =>
          have hnode := Node.filter_shown_resolve loses.1 hfirst
          have hrow := Node.filter_rowShown_resolveChildren loses.2 hrest
          refine filter_cons_congr ?_
          rw [if_neg Bool.false_ne_true, List.filter_append, List.filter_append,
            hnode, hrow]
  | ⟨tag, .options map, children⟩, o, pass, pass', void, loses, h => by
      rw [Element.parts, Slot.parts, List.nil_append] at loses
      obtain ⟨host, mid, hoptions, hends⟩ := Element.resolve_options_ok h
      have hshown := Node.rowShown_eq_nil
        (Host.applyOptions_lead Node.shown_ofJson Node.shown_ofMarkup hoptions)
      have helements := Host.rowElements_lead hoptions
      -- no children at all, those of an option, or the written ones behind
      -- what options put in front
      rcases hends with ⟨-, -, -, rfl, -⟩ | ⟨lead, hcontent, -, rfl, -⟩
        | ⟨lead, rest, hcontent, -, hrest, rfl⟩
      · rfl
      · rw [hcontent] at hshown helements
        rw [Element.shown, Element.elements, Slot.elements, Node.childElements,
          show Node.rowShown lead = [] from hshown,
          show Node.rowElements lead = [] from helements, ite_self]
        rfl
      · rw [hcontent] at hshown helements
        rw [Element.shown, Element.elements, Slot.elements, Node.childElements,
          Node.rowShown_append, show Node.rowShown lead = [] from hshown,
          Node.rowElements_append,
          show Node.rowElements lead = [] from helements, List.nil_append,
          List.nil_append, List.nil_append]
        have hrow := Node.filter_rowShown_resolveChildren loses hrest
        cases hvoid : Html.voidTags.contains tag with
        | true =>
            cases (void hvoid).1
            cases hrest
            rfl
        | false => exact filter_cons_congr hrow

/-- The same for children. -/
theorem Node.filter_rowShown_resolveChildren : ∀ {children : Option (List Node)}
    {nodes : List Node} {pass pass' : Pass},
    (∀ part ∈ Node.childParts children, part.LosesNoKey) →
    Node.resolveChildren children pass = .ok nodes pass' →
      (Node.rowShown nodes).filter Element.isKeyed
        = (Node.rowElements nodes).filter Element.isKeyed
  | none, _, _, _, _, h => by
      cases h
      rfl
  | some children, _, _, _, loses, h => by
      rw [Node.resolveChildren] at h
      rw [Node.childParts] at loses
      exact Node.filter_rowShown_resolveAll loses h

/-- The same for nodes in a row. -/
theorem Node.filter_rowShown_resolveAll :
    ∀ {row nodes : List Node} {pass pass' : Pass},
    (∀ part ∈ Node.rowParts row, part.LosesNoKey) →
    Node.resolveAll row pass = .ok nodes pass' →
      (Node.rowShown nodes).filter Element.isKeyed
        = (Node.rowElements nodes).filter Element.isKeyed
  | [], _, _, _, _, h => by
      cases h
      rfl
  | node :: rest, nodes, pass, pass', loses, h => by
      rw [Node.rowParts, List.forall_mem_append] at loses
      obtain ⟨first, mid, others, hfirst, hothers, rfl⟩ :=
        Node.resolveAll_cons_ok.1 h
      rw [Node.rowShown, Node.rowElements, List.filter_append,
        List.filter_append, Node.filter_shown_resolve loses.1 hfirst,
        Node.filter_rowShown_resolveAll loses.2 hothers]

end

end Prerender
