/-
Which trees cannot be resolved, and with which error.

The places at which resolving can stop are listed in document order: an
element before its children, its options as they were written, a child
in the place of the options before the other children, and nothing of
children that an option replaces. Of each place `Stop.error?` tells the
error, from what the author wrote on that element and no more; resolving
fails exactly with the first one (`Node.resolve_fails_iff`).

`Failure` has the same walk with a flag in it that is carried from
option to option. Here the flag is gone: whether an element has a list
of children by the time of an option is read off the options before it.
The two are not the same in general, as plain markup sets the flag and
yet brings no list of children to an element that has none. But plain
markup on such an element is an offence itself
(`OptionValue.holds_of_offence?_eq_none`), so the two agree up to the
first offence, which is all that matters. The statements go up from
there:

1. options of an element, by induction with the options before as the
   invariant (`Offence.inOptions?_error`);
2. one element, and elements in a row (`Element.firstOffence?_error`);
3. trees, through `Element.workAll_offence`.

There is no hypothesis on the tree: the statement is about every tree
that can be written, and about every pass.
-/
import Prerender.Proofs.Resolve.Failure

namespace Prerender

-- ================================================================ stops

/-- Whether an option brings a list of children along, however many there
were: the literal value of a cell or of an observer that is content. -/
def OptionValue.bringsList (name : String) : OptionValue → Bool
  | .reactive (.state link) =>
      !link.value.isSource && (OptionName.content? name).isSome
  | .reactive (.observer _) => (OptionName.content? name).isSome
  | _ => false

/-- A place at which resolving can stop. -/
inductive Stop where
  /-- A child in the place of the options, on an element with the given tag. -/
  | slot (tag : String) (child : Node)
  /-- An option of an element with the given tag. `hasList` tells whether the
  author gave the element a list of children, and `before` holds the options
  in front of this one. -/
  | option (tag : String) (hasList : Bool)
      (before : List (String × OptionValue)) (name : String)
      (value : OptionValue)

namespace Stop

/-- The error that a place is, if it is one: an element in the slot that lacks
a part, an object that names no kind, and plain content for an element that
has no list of children and was brought none. -/
def error? : Stop → Option OptionError
  | .slot tag (.element e) =>
      if e.isComplete then none else some (.untyped tag "options")
  | .slot _ _ => none
  | .option tag _ _ name (.literal (.obj _)) => some (.untyped tag name)
  | .option tag hasList before name (.literal _) =>
      if (OptionName.content? name).isSome && !hasList
          && !before.any fun option => option.2.bringsList option.1 then
        some (.childless tag name)
      else none
  | .option _ _ _ _ (.reactive _) => none

/-- The places that the options of an element are, those in `before` apart. -/
def ofOptions (tag : String) (hasList : Bool)
    (before : List (String × OptionValue)) :
    List (String × OptionValue) → List Stop
  | [] => []
  | (name, value) :: rest =>
      .option tag hasList before name value
        :: ofOptions tag hasList (before ++ [(name, value)]) rest

end Stop

/-- The places of an element, its children apart. -/
def Element.stops : Element → List Stop
  | ⟨tag, .child node, _⟩ => [.slot tag node]
  | ⟨tag, .options map, children⟩ =>
      Stop.ofOptions tag children.isSome [] map.entries

/-- The places of a tree in document order. -/
def Node.stops (node : Node) : List Stop := node.visited.flatMap Element.stops

-- ================================================== reading the walk off

namespace OptionValue

/-- An option takes the place of the children if it brings a list along, or is
plain markup. -/
theorem replacesContent_eq (name : String) (value : OptionValue) :
    value.replacesContent name
      = (value.bringsList name
        || !value.isReactive && decide
            (OptionName.content? name = some .markup)) := by
  unfold replacesContent bringsList
  cases value with
  | literal data =>
      cases hkind : OptionName.content? name <;>
        simp [content?, hkind, isReactive]
  | reactive value =>
      cases value with
      | state link =>
          obtain ⟨cell, held, group⟩ := link
          cases held <;> cases hkind : OptionName.content? name <;>
            simp [content?, hkind, isReactive, data?, CellValue.literal?,
            CellValue.isSource]
      | observer o =>
          cases hkind : OptionName.content? name <;>
            simp [content?, hkind, isReactive, data?]
      | reference handle => rfl

/-- The flag that tells whether there is a list of children says what the
options before say. -/
theorem offence?_eq (tag name : String) (hasList : Bool)
    (before : List (String × OptionValue)) (value : OptionValue) :
    value.offence? tag name
        (hasList || before.any fun option => option.2.bringsList option.1)
      = (Stop.option tag hasList before name value).error? := by
  unfold offence?
  cases value with
  | reactive value => simp [isUntyped, isReactive, Stop.error?]
  | literal data =>
      cases data with
      | obj members => rfl
      | _ =>
          simp only [isUntyped, isReactive, Stop.error?, content?, Bool.not_or,
            Bool.not_false, Bool.and_true, Bool.false_eq_true, if_false]
          rw [Bool.and_comm, ← Bool.and_assoc]

/-- Where an option is no offence, the flag changes by what the option brings
along alone. -/
theorem holds_of_offence?_eq_none {tag name : String} {holds : Bool}
    {value : OptionValue} (h : value.offence? tag name holds = none) :
    (holds || value.replacesContent name)
      = (holds || value.bringsList name) := by
  rw [replacesContent_eq]
  cases holds with
  | true => rfl
  | false =>
      -- plain markup on an element without a list would be an offence
      have hmarkup :
        (!value.isReactive && decide (OptionName.content? name = some .markup))
          = false := by
        cases value with
        | reactive value => rfl
        | literal data =>
            by_cases hname : OptionName.content? name = some .markup
            · unfold offence? at h
              cases data <;> simp [isUntyped, isReactive, content?, hname] at h
            · simp [hname]
      rw [hmarkup, Bool.or_false]

end OptionValue

/-- The first offence among the options of an element is the error of the
first of their places that has one. -/
theorem Offence.inOptions?_error (tag : String) (hasList : Bool)
    (before options : List (String × OptionValue)) :
    (Offence.inOptions? tag
      (hasList || before.any fun option => option.2.bringsList option.1)
        options).map Offence.error
      = (Stop.ofOptions tag hasList before options).findSome? Stop.error? := by
  induction options generalizing before with
  | nil => rfl
  | cons option rest ih =>
      obtain ⟨name, value⟩ := option
      rw [Offence.inOptions?, Stop.ofOptions, List.findSome?_cons,
        ← OptionValue.offence?_eq]
      cases hoffence : value.offence? tag name
          (hasList || before.any fun option =>
            option.2.bringsList option.1) with
      | some error => rfl
      | none =>
          -- for the rest of the row, this option is one of those before
          have hrest := ih (before ++ [(name, value)])
          rw [List.any_append, List.any_cons, List.any_nil, Bool.or_false,
            ← Bool.or_assoc] at hrest
          rw [OptionValue.holds_of_offence?_eq_none hoffence, ← hrest,
            Option.map_map]
          rfl

namespace Element

/-- The first offence of an element is the error of its first place that has
one. -/
theorem offence?_error (e : Element) :
    e.offence?.map Offence.error = e.stops.findSome? Stop.error? := by
  obtain ⟨tag, slot, children⟩ := e
  cases slot with
  | child node =>
      rw [offence?, stops, List.findSome?_cons, List.findSome?_nil]
      cases node with
      | element e =>
          rw [Node.isMisplaced, Stop.error?]
          cases e.isComplete <;> rfl
      | _ => rfl
  | options map =>
      have h := Offence.inOptions?_error tag children.isSome [] map.entries
      rw [List.any_nil, Bool.or_false] at h
      exact h

theorem firstOffence?_error (row : List Element) :
    (firstOffence? row).map Offence.error
      = (row.flatMap stops).findSome? Stop.error? := by
  induction row with
  | nil => rfl
  | cons e rest ih =>
      rw [firstOffence?, List.flatMap_cons, List.findSome?_append,
        ← offence?_error, ← ih]
      cases e.offence? with
      | some offence => rfl
      | none =>
          rw [Option.map_none, Option.none_or, Option.map_map]
          rfl

end Element

-- ============================================================== failures

/-- Resolving gives a result exactly where there is no offence, and else the
error of the first. -/
theorem Node.resolve_offence (node : Node) (pass : Pass) :
    match node.resolve pass with
    | .ok _ _ => node.offence? = none
    | .error e _ => node.offence?.map Offence.error = some e := by
  have hwalk := @Element.workAll_offence node.visited pass
  rw [← node.forget_resolve] at hwalk
  cases hrun : node.resolve pass with
  | ok out pass' =>
      have hforget : node.resolve.forget pass = .ok ⟨⟩ pass' :=
        Resolve.bind_of_ok hrun
      rw [hforget] at hwalk
      exact hwalk.1
  | error e pass' =>
      have hforget : node.resolve.forget pass = .error e pass' :=
        Resolve.bind_eq_error.2 (Or.inl hrun)
      rw [hforget] at hwalk
      obtain ⟨met, -, hoffence⟩ := hwalk
      show node.offence?.map Offence.error = some e
      rw [Node.offence?, hoffence]
      rfl

/-- Resolving fails with an error exactly if it is the error of the first
place, in document order, that has one; so it fails exactly if some place has
one. -/
theorem Node.resolve_fails_iff (node : Node) (pass : Pass) :
    (∀ e, (∃ pass', node.resolve pass = .error e pass') ↔
        ∃ before stop after, node.stops = before ++ stop :: after
          ∧ stop.error? = some e
          ∧ ∀ earlier ∈ before, earlier.error? = none)
      ∧ ((∃ e pass', node.resolve pass = .error e pass') ↔
        ∃ stop ∈ node.stops, stop.error?.isSome) := by
  have hfirst : node.stops.findSome? Stop.error?
    = node.offence?.map Offence.error :=
    (Element.firstOffence?_error node.visited).symm
  have hfails : ∀ e, (∃ pass', node.resolve pass = .error e pass')
      ↔ node.stops.findSome? Stop.error? = some e := by
    intro e
    -- a pass does not matter for the error, which is why it is quantified
    -- away
    have hrun := node.resolve_offence pass
    rw [hfirst]
    cases hresolve : node.resolve pass with
    | ok out pass' =>
        rw [hresolve] at hrun
        simp [show node.offence? = none from hrun]
    | error error pass' =>
        rw [hresolve] at hrun
        simp [show node.offence?.map Offence.error = some error from hrun]
  refine ⟨fun e => (hfails e).trans ?_, ?_⟩
  · exact List.findSome?_eq_some_iff
  · rw [← List.findSome?_isSome_iff, Option.isSome_iff_exists]
    exact exists_congr hfails

/-- On an element without children, plain text is fine behind an observer that
brings some, and an offence in front of it. -/
example :
    let observed : OptionValue :=
      .reactive (.observer ⟨⟨"", fun _ => .null⟩, [], []⟩)
    let lively : String × OptionValue := ("innerHTML", observed)
    let still : String × OptionValue := ("innerText", .literal (.str "a"))
    (Stop.ofOptions "input" false [] [lively, still]).findSome? Stop.error?
      = none
      ∧ (Stop.ofOptions "input" false [] [still, lively]).findSome? Stop.error?
        = some (.childless "input" "innerText") := by decide

end Prerender
