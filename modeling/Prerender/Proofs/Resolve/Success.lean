/-
Resolving that gave a result, taken apart.

There is one lemma for each way a tree is built, naming what was
resolved on the way and in which order. An element whose options have
been worked off comes to one of three ends:

1. it had no list of children and was brought none;
2. its options took the place of the children, which are not looked at;
3. the children were resolved and stand behind what the options put in
   front.

Which of the three it is can be told from the options alone, and
`Element.resolve_options_ok` says this along with each. Inductions over
resolved trees split these cases and never open the definition.

`Element.resolve_parse` is the same decision as the first thing that
resolving does: what the slot holds is settled by `Slot.parse`, and
resolving goes on from its answer.
-/
import Prerender.Proofs.Resolve.Content
import Prerender.Resolve.Tree

namespace Prerender

variable {pass pass' : Pass}

namespace Host

variable {tag : String} {map : OptionMap} {children : Option (List Node)}
  {host : Host}

/-- The written children count in the end exactly if no option replaces them. -/
theorem replacesContent_of_ok
    (h : Host.applyOptions ⟨tag, map, .ofChildren children⟩ map.entries pass
      = .ok host pass') :
    map.replacesContent = !host.content.keepsWritten := by
  have hkeeps := applyOptions_keepsWritten h
  have hstart : (Content.ofChildren children).keepsWritten = true := by
    cases children <;> rfl
  rw [hstart, Bool.true_and] at hkeeps
  rw [hkeeps, Bool.not_not]
  rfl

/-- A list of children that is not there in the end was never there. -/
theorem children_eq_none_of_ok {options : List (String × OptionValue)}
    (h : Host.applyOptions ⟨tag, map, .ofChildren children⟩ options pass
      = .ok host pass')
    (absent : host.content = .absent) : children = none := by
  cases children with
  | none => rfl
  | some written => exact absurd absent (applyOptions_ne_absent h nofun)

end Host

/-- Resolving an element starts from what its slot turns out to hold. If
that is neither options nor a child, it fails; a child is put in front of
the children; and options are worked off. -/
theorem Element.resolve_parse (tag : String) (slot : Slot)
    (children : Option (List Node)) :
    Element.resolve ⟨tag, slot, children⟩ = match slot.parse tag with
      | .error stop => throw stop
      | .ok (.misplaced node) => do
          let first ← node.resolve
          let rest ← Node.resolveChildren children
          return ⟨tag, .options .empty, some (first :: rest)⟩
      | .ok (.options map) =>
          Element.resolve ⟨tag, .options map, children⟩ := by
  cases slot with
  | options map => rfl
  | child node =>
      rw [Element.resolve, Slot.parse]
      cases node.isMisplaced <;> rfl

/-- A tree that is an element resolves to an element. -/
theorem Node.resolve_element_ok {e : Element} {out : Node} :
    (Node.element e).resolve pass = .ok out pass'
      ↔ ∃ o, e.resolve pass = .ok o pass' ∧ out = .element o := by
  rw [Node.resolve, Resolve.bind_eq_ok]
  constructor
  · rintro ⟨o, mid, hresolve, h⟩
    cases h
    exact ⟨o, hresolve, rfl⟩
  · rintro ⟨o, hresolve, rfl⟩
    exact ⟨o, pass', hresolve, rfl⟩

/-- A row is resolved from its first node on. -/
theorem Node.resolveAll_cons_ok {node : Node} {rest nodes : List Node} :
    Node.resolveAll (node :: rest) pass = .ok nodes pass'
      ↔ ∃ first mid others, node.resolve pass = .ok first mid
          ∧ Node.resolveAll rest mid = .ok others pass'
          ∧ nodes = first :: others := by
  rw [Node.resolveAll, Resolve.bind_eq_ok]
  simp only [Resolve.bind_eq_ok]
  constructor
  · rintro ⟨first, mid, hfirst, others, last, hothers, h⟩
    cases h
    exact ⟨first, mid, others, hfirst, hothers, rfl⟩
  · rintro ⟨first, mid, others, hfirst, hothers, rfl⟩
    exact ⟨first, mid, hfirst, others, pass', hothers, rfl⟩

namespace Element

variable {tag : String} {children : Option (List Node)} {o : Element}

/-- An element with a child in the place of its options keeps it in front of
its children. -/
theorem resolve_child_ok {node : Node} :
    Element.resolve ⟨tag, .child node, children⟩ pass = .ok o pass'
      ↔ node.isMisplaced = true
        ∧ ∃ first mid rest, node.resolve pass = .ok first mid
          ∧ Node.resolveChildren children mid = .ok rest pass'
          ∧ o = ⟨tag, .options .empty, some (first :: rest)⟩ := by
  rw [Element.resolve]
  cases node.isMisplaced with
  | false =>
      rw [if_neg Bool.false_ne_true]
      refine ⟨fun h => ?_, fun h => absurd h.1 Bool.false_ne_true⟩
      cases h
  | true =>
      rw [if_pos rfl, Resolve.bind_eq_ok]
      simp only [Resolve.bind_eq_ok]
      constructor
      · rintro ⟨first, mid, hfirst, rest, last, hrest, h⟩
        cases h
        exact ⟨trivial, first, mid, rest, hfirst, hrest, rfl⟩
      · rintro ⟨-, first, mid, rest, hfirst, hrest, rfl⟩
        exact ⟨first, mid, hfirst, rest, pass', hrest, rfl⟩

/-- An element with options has had them worked off, and comes to one of its
three ends. -/
theorem resolve_options_ok {map : OptionMap}
    (h : Element.resolve ⟨tag, .options map, children⟩ pass = .ok o pass') :
    ∃ host mid,
      Host.applyOptions ⟨tag, map, .ofChildren children⟩ map.entries pass
        = .ok host mid
      ∧ ((children = none ∧ host.content = .absent ∧ map.replacesContent = false
            ∧ o = ⟨tag, .options host.options, none⟩ ∧ mid = pass')
        ∨ (∃ lead, host.content = .list lead false ∧ map.replacesContent = true
            ∧ o = ⟨tag, .options host.options, some lead⟩ ∧ mid = pass')
        ∨ ∃ lead rest, host.content = .list lead true
          ∧ map.replacesContent = false
            ∧ Node.resolveChildren children mid = .ok rest pass'
            ∧ o = ⟨tag, .options host.options, some (lead ++ rest)⟩) := by
  rw [Element.resolve, Resolve.bind_eq_ok] at h
  obtain ⟨host, mid, hoptions, h⟩ := h
  have hreplaces := Host.replacesContent_of_ok hoptions
  refine ⟨host, mid, hoptions, ?_⟩
  cases hcontent : host.content with
  | absent =>
      rw [hcontent] at h hreplaces
      cases h
      exact Or.inl ⟨Host.children_eq_none_of_ok hoptions hcontent, rfl,
        hreplaces, rfl, rfl⟩
  | list lead keeps =>
      rw [hcontent] at h hreplaces
      cases keeps with
      | false =>
          cases h
          exact Or.inr (Or.inl ⟨lead, rfl, hreplaces, rfl, rfl⟩)
      | true =>
          rw [Resolve.bind_eq_ok] at h
          obtain ⟨rest, last, hrest, h⟩ := h
          cases h
          exact Or.inr (Or.inr ⟨lead, rest, rfl, hreplaces, hrest, rfl⟩)

end Element

end Prerender
