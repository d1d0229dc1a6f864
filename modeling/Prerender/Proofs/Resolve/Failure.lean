/-
Trees that cannot be resolved.

A walk over the elements that resolving comes by finds the first
offence: an option that cannot be worked off, or a slot that holds
neither options nor a child. The walk does without a pass, and it is
where resolving stops (`Element.workAll_offence`).

What was noted by then stays noted. A pass after an error therefore
holds one binding for each option met before the offence that leaves one
(`Pass.Notes`), and is as it was only if none of these does. The sample
trees at the end show that options do leave bindings behind when a later
one fails.

That resolving and the walk agree is an equation of steps,
`Node.forget_resolve`: resolving a tree, its result forgotten, is
working off the visited elements one after the other. It is proved by
one case for each constructor, and from there on the tree is gone and
every induction is over a row:

1. one option fails exactly on an offence, and leaves the pass alone
   then (`Host.applyOption_eq_error_iff`);
2. the options of an element stop at the first offence among them
   (`Host.applyOptions_offence`), where a flag tells whether there is a
   list of children by the time of an option;
3. elements in a row stop at the first of them that has an offence
   (`Element.workAll_offence`).

`FirstOffence` reads the same walk off the tree without the flag.
-/
import Prerender.Proofs.Resolve.WrittenKeys

namespace Prerender

-- ============================================================== offences

/-- Why an option written as `name` cannot be worked off, if it cannot;
`holds` tells whether its element has a list of children by then. -/
def OptionValue.offence? (tag name : String) (holds : Bool)
    (value : OptionValue) :
    Option OptionError :=
  if value.isUntyped then some (.untyped tag name)
  else if !holds && !value.isReactive && (value.content? name).isSome then
    some (.childless tag name)
  else none

/-- Where resolving cannot go on: the options met before, in document order,
and the error. -/
structure Offence where
  met : List (String × OptionValue)
  error : OptionError

namespace Offence

/-- The offence with further options met before. -/
def after (options : List (String × OptionValue)) (offence : Offence) :
    Offence :=
  { offence with met := options ++ offence.met }

/-- The first offence among the options of an element. A reactive value that
goes into the content brings the list of children along. -/
def inOptions? (tag : String) :
    Bool → List (String × OptionValue) → Option Offence
  | _, [] => none
  | holds, (name, value) :: rest =>
      match value.offence? tag name holds with
      | some error => some ⟨[], error⟩
      | none =>
          (inOptions? tag (holds || value.replacesContent name) rest).map
            (after [(name, value)])

end Offence

namespace Element

/-- The first offence of an element, its children apart. -/
def offence? : Element → Option Offence
  | ⟨tag, .child node, _⟩ =>
      if node.isMisplaced then none else some ⟨[], .ofSlot tag⟩
  | ⟨tag, .options map, children⟩ =>
      Offence.inOptions? tag children.isSome map.entries

/-- The first offence in a row of elements. -/
def firstOffence? : List Element → Option Offence
  | [] => none
  | e :: rest =>
      match e.offence? with
      | some offence => some offence
      | none => (firstOffence? rest).map (Offence.after e.written)

end Element

/-- The first offence among the elements that resolving comes by. -/
def Node.offence? (node : Node) : Option Offence :=
  Element.firstOffence? node.visited

-- ==================================================== one element's options

/-- What options leave in a pass: one binding for each that leaves one, in
their order. -/
def Pass.Notes (pass : Pass) (options : List (String × OptionValue))
    (pass' : Pass) : Prop :=
  ∃ new, pass'.bindings = pass.bindings ++ new
    ∧ List.Forall₂ (fun option b => option.2.binding? option.1 b.key = some b)
        (options.filter fun option => option.2.leavesBinding) new

namespace Pass.Notes

variable {pass mid pass' : Pass} {options later : List (String × OptionValue)}

theorem nil : pass.Notes [] pass := ⟨[], (List.append_nil _).symm, .nil⟩

/-- Options in a row leave what each part of the row leaves. -/
theorem append (first : pass.Notes options mid)
    (second : mid.Notes later pass') :
    pass.Notes (options ++ later) pass' := by
  obtain ⟨new, hnew, hleft⟩ := first
  obtain ⟨more, hmore, hleft'⟩ := second
  refine ⟨new ++ more, by rw [hmore, hnew, List.append_assoc], ?_⟩
  rw [List.filter_append]
  exact List.rel_append hleft hleft'

/-- A binding that was not there before is the one of an option. -/
theorem exists_of_mem (h : pass.Notes options pass') {b : Binding}
    (hb : b ∈ pass'.bindings) :
    b ∈ pass.bindings
      ∨ ∃ option ∈ options, option.2.binding? option.1 b.key = some b := by
  obtain ⟨new, hnew, hleft⟩ := h
  rw [hnew, List.mem_append] at hb
  refine hb.imp_right fun hb => ?_
  obtain ⟨i, hi, rfl⟩ := List.getElem_of_mem hb
  have hlength := hleft.length_eq
  exact ⟨_, List.mem_of_mem_filter (List.getElem_mem (hlength ▸ hi)),
    hleft.get (hlength ▸ hi) hi⟩

/-- Nothing is left exactly by options that leave no binding. -/
theorem bindings_eq_iff (h : pass.Notes options pass') :
    pass'.bindings = pass.bindings
      ↔ ∀ option ∈ options, option.2.leavesBinding = false := by
  obtain ⟨new, hnew, hleft⟩ := h
  rw [hnew, List.append_right_eq_self]
  have hempty : new = []
    ↔ (options.filter fun option => option.2.leavesBinding) = [] := by
    rw [← List.length_eq_zero_iff, ← List.length_eq_zero_iff, hleft.length_eq]
  rw [hempty, List.filter_eq_nil_iff]
  simp only [Bool.not_eq_true]

end Pass.Notes

namespace Host

/-- One option leaves its binding, if it leaves one. -/
theorem applyOption_notes {host host' : Host} {option : String × OptionValue}
    {pass pass' : Pass}
    (h : host.applyOption option pass = .ok host' pass') :
    pass.Notes [option] pass' := by
  obtain ⟨name, value⟩ := option
  obtain ⟨-, -, -, rfl⟩ := applyOption_ok h
  refine ⟨(value.binding? name (host.keyWith pass.nextKey)).toList, rfl, ?_⟩
  cases hbinding : value.binding? name (host.keyWith pass.nextKey) with
  | none =>
      have hsilent : value.leavesBinding = false := by
        rw [← value.isSome_binding? name, hbinding]
        rfl
      rw [List.filter_cons_of_neg (by simp [hsilent])]
      exact .nil
  | some b =>
      have hleaves : value.leavesBinding = true := by
        rw [← value.isSome_binding? name, hbinding]
        rfl
      rw [List.filter_cons_of_pos (by exact hleaves)]
      refine .cons ?_ .nil
      rw [OptionValue.key_of_binding? hbinding]
      exact hbinding

/-- A row of options leaves its bindings. -/
theorem applyOptions_notes {host host' : Host}
    {options : List (String × OptionValue)}
    {pass pass' : Pass} (h : host.applyOptions options pass = .ok host' pass') :
    pass.Notes options pass' := by
  induction options generalizing host pass with
  | nil =>
      cases h
      exact .nil
  | cons option rest ih =>
      obtain ⟨mid, midPass, hfirst, hrest⟩ := applyOptions_cons_ok.1 h
      exact (applyOption_notes hfirst).append (ih hrest)

/-- Working off one option fails exactly on an offence, and leaves the pass
alone then. -/
theorem applyOption_eq_error_iff {host : Host} {name : String}
    {value : OptionValue} {pass pass' : Pass} {e : OptionError} :
    host.applyOption (name, value) pass = .error e pass'
      ↔ value.offence? host.tag name host.content.isPresent = some e
        ∧ pass' = pass := by
  rw [applyOption_eq, OptionValue.offence?]
  cases huntyped : value.isUntyped with
  | true => simp [eq_comm]
  | false =>
      simp only [Bool.false_eq_true, if_false]
      cases htake : host.content.take? name value with
      | none =>
          obtain ⟨habsent, hplain, hcontent⟩ :=
            Content.take?_eq_none_iff.1 htake
          simp [habsent, hplain, hcontent, eq_comm]
      | some content =>
          have hne : ¬ (host.content.isPresent = false
            ∧ value.isReactive = false
              ∧ (value.content? name).isSome = true) := by
            rw [← Content.take?_eq_none_iff, htake]
            exact Option.some_ne_none content
          rw [if_neg (by simpa [and_assoc] using hne)]
          simp

/-- When a row of options is worked off, none of them is an offence; when it
is not, the first offence among them is what stopped it, and what comes before
was worked off. -/
theorem applyOptions_offence {host : Host}
    {options : List (String × OptionValue)} {pass : Pass} :
    match host.applyOptions options pass with
    | .ok _ _ =>
        Offence.inOptions? host.tag host.content.isPresent options = none
    | .error e pass' => ∃ met, pass.Notes met pass'
        ∧ Offence.inOptions? host.tag host.content.isPresent options
          = some ⟨met, e⟩ := by
  induction options generalizing host pass with
  | nil => rfl
  | cons option rest ih =>
      obtain ⟨name, value⟩ := option
      rw [applyOptions]
      cases hfirst : host.applyOption (name, value) pass with
      | error e pass' =>
          have hrun :
              (host.applyOption (name, value)
                >>= fun host => host.applyOptions rest) pass
              = .error e pass' := Resolve.bind_eq_error.2 (Or.inl hfirst)
          -- the first option stops the run: nothing was met before it
          obtain ⟨hoffence, rfl⟩ := applyOption_eq_error_iff.1 hfirst
          rw [hrun]
          refine ⟨[], .nil, ?_⟩
          rw [Offence.inOptions?, hoffence]
      | ok mid midPass =>
          rw [Resolve.bind_of_ok hfirst]
          have hfine : value.offence? host.tag name host.content.isPresent
            = none := by
            cases hoffence :
              value.offence? host.tag name host.content.isPresent with
            | none => rfl
            | some e =>
                rw [applyOption_eq_error_iff.2 ⟨hoffence, rfl⟩] at hfirst
                cases hfirst
          -- the flag for the rest of the row is what the option leaves of the
          -- content
          have hpresent := Content.isPresent_take? (applyOption_ok hfirst).2.2.1
          have hrest := @ih mid midPass
          rw [(applyOption_ok hfirst).1, hpresent] at hrest
          rw [Offence.inOptions?, hfine]
          cases hrun : mid.applyOptions rest midPass with
          | ok host' pass' =>
              rw [hrun] at hrest
              exact Option.map_eq_none_iff.2 hrest
          | error e pass' =>
              rw [hrun] at hrest
              obtain ⟨met, hnotes, hoffence⟩ := hrest
              refine ⟨(name, value) :: met,
                (applyOption_notes hfirst).append hnotes, ?_⟩
              rw [hoffence]
              rfl

end Host

-- ============================================================== whole trees

namespace Element

/-- Works off the options of an element and leaves nothing of it. -/
def work : Element → Resolve PUnit
  | ⟨tag, .child node, _⟩ =>
      if node.isMisplaced then return ⟨⟩ else throw (.ofSlot tag)
  | ⟨tag, .options map, children⟩ => do
      let _ ← Host.applyOptions ⟨tag, map, .ofChildren children⟩ map.entries
      return ⟨⟩

/-- Works off the options of a row of elements. -/
def workAll (row : List Element) : Resolve PUnit := row.forM work

end Element

/-- A step whose result does not matter. -/
def Resolve.forget {α : Type} (x : Resolve α) : Resolve PUnit := do
  let _ ← x
  return ⟨⟩

/-- Forgetting the result of a sequence is forgetting the last. -/
theorem Resolve.forget_bind {α β : Type} (x : Resolve α) (f : α → Resolve β) :
    (x >>= f).forget = x >>= fun a => (f a).forget := by
  rw [forget, bind_assoc]
  rfl

/-- A result that is not used may be forgotten. -/
theorem Resolve.forget_seq {α : Type} (x : Resolve α) (y : Resolve PUnit) :
    (x >>= fun _ => y) = x.forget >>= fun _ => y := by
  rw [forget, bind_assoc]
  rfl

/-- Rows are worked off one after the other. -/
theorem Element.workAll_append (front back : List Element) :
    Element.workAll (front ++ back)
      = Element.workAll front >>= fun _ => Element.workAll back :=
  List.forM_append

mutual

/-- Resolving a tree, its result forgotten, is working off the elements that
are visited. -/
theorem Node.forget_resolve : ∀ node : Node,
    node.resolve.forget = Element.workAll node.visited
  | .text _ | .markup _ | .number _ | .bool _ | .fragment _ => rfl
  | .element e => by
      rw [Node.resolve, Node.visited, Resolve.forget_bind, ← e.forget_resolve]
      rfl

/-- So it is for an element: itself, then its children unless they were
replaced. -/
theorem Element.forget_resolve : ∀ e : Element,
    e.resolve.forget = Element.workAll e.visited
  | ⟨tag, .child node, children⟩ => by
      rw [Element.resolve, Element.visited]
      show _ = Element.work _ >>= fun _ => Element.workAll _
      rw [Element.work]
      cases hplace : node.isMisplaced with
      | false => rfl
      | true =>
          rw [if_pos rfl, if_pos rfl, pure_bind, Element.workAll_append,
            ← node.forget_resolve, ← Node.forget_resolveChildren children,
            ← Resolve.forget_seq, Resolve.forget_bind]
          congr 1
          funext first
          rw [Resolve.forget_bind]
          rfl
  | ⟨tag, .options map, children⟩ => by
      rw [Element.resolve, Element.visited, Resolve.forget_bind]
      show _ = Element.work _ >>= fun _ => Element.workAll _
      rw [Element.work, bind_assoc]
      funext pass
      cases hrun : Host.applyOptions
        ⟨tag, map, .ofChildren children⟩ map.entries pass with
      | error e pass' =>
          rw [Resolve.bind_eq_error.2 (Or.inl hrun),
            Resolve.bind_eq_error.2 (Or.inl hrun)]
      | ok host mid =>
          rw [Resolve.bind_of_ok hrun, Resolve.bind_of_ok hrun, pure_bind]
          -- what is visited below depends on whether the options replaced the
          -- children
          rw [Host.replacesContent_of_ok hrun]
          cases hcontent : host.content with
          | absent =>
              -- no list of children: there is nothing below to visit either
              cases Host.children_eq_none_of_ok hrun hcontent
              rfl
          | list lead keeps =>
              cases keeps with
              | false => rfl
              | true =>
                  show Resolve.forget (_ >>= _) mid
                    = Element.workAll (Node.childVisited children) mid
                  rw [← Node.forget_resolveChildren children,
                    Resolve.forget_bind]
                  rfl

/-- For a list of children, if there is one. -/
theorem Node.forget_resolveChildren : ∀ children : Option (List Node),
    (Node.resolveChildren children).forget
      = Element.workAll (Node.childVisited children)
  | none => rfl
  | some children => by
      rw [Node.resolveChildren, Node.childVisited, Node.forget_resolveAll]

theorem Node.forget_resolveAll : ∀ row : List Node,
    (Node.resolveAll row).forget = Element.workAll (Node.rowVisited row)
  | [] => rfl
  | node :: rest => by
      rw [Node.resolveAll, Node.rowVisited, Element.workAll_append,
        ← node.forget_resolve, ← Node.forget_resolveAll rest,
        ← Resolve.forget_seq, Resolve.forget_bind]
      congr 1
      funext first
      rw [Resolve.forget_bind]
      rfl

end
namespace Element

/-- Working off one element comes to an offence exactly where the element has
one, and notes what the options met before it leave; without one it notes what
all of them leave. -/
theorem work_offence {e : Element} {pass : Pass} :
    match e.work pass with
    | .ok _ pass' => e.offence? = none ∧ pass.Notes e.written pass'
    | .error error pass' => ∃ met, pass.Notes met pass'
        ∧ e.offence? = some ⟨met, error⟩ := by
  obtain ⟨tag, slot, children⟩ := e
  cases slot with
  | child node =>
      rw [work, offence?]
      cases node.isMisplaced with
      | true => exact ⟨rfl, .nil⟩
      | false => exact ⟨[], .nil, rfl⟩
  | options map =>
      have hrun := @Host.applyOptions_offence
        ⟨tag, map, .ofChildren children⟩ map.entries pass
      rw [work, offence?]
      cases hresult : Host.applyOptions
        ⟨tag, map, .ofChildren children⟩ map.entries pass with
      | ok host pass' =>
          rw [hresult] at hrun
          rw [Resolve.bind_of_ok hresult]
          refine ⟨?_, Host.applyOptions_notes hresult⟩
          rw [← Content.isPresent_ofChildren]
          exact hrun
      | error error pass' =>
          rw [hresult] at hrun
          rw [Resolve.bind_eq_error.2 (Or.inl hresult),
            ← Content.isPresent_ofChildren]
          exact hrun

/-- Working off a row of elements comes to the first offence in the row, or to
the end. -/
theorem workAll_offence {row : List Element} {pass : Pass} :
    match workAll row pass with
    | .ok _ pass' => firstOffence? row = none
        ∧ pass.Notes (row.flatMap written) pass'
    | .error error pass' => ∃ met, pass.Notes met pass'
        ∧ firstOffence? row = some ⟨met, error⟩ := by
  induction row generalizing pass with
  | nil => exact ⟨rfl, .nil⟩
  | cons e rest ih =>
      have hfirst := @work_offence e pass
      rw [firstOffence?]
      show match (e.work >>= fun _ => workAll rest) pass with
        | .ok _ pass' => _
        | .error error pass' => _
      cases hwork : e.work pass with
      | error error pass' =>
          rw [hwork] at hfirst
          -- the run ends with this element
          obtain ⟨met, hnotes, hoffence⟩ := hfirst
          rw [Resolve.bind_eq_error.2 (Or.inl hwork)]
          exact ⟨met, hnotes, by rw [hoffence]⟩
      | ok _ mid =>
          rw [hwork] at hfirst
          -- all that this element has was met, and the run goes on
          obtain ⟨hfine, hnotes⟩ := hfirst
          rw [Resolve.bind_of_ok hwork, hfine]
          have hrest := @ih mid
          cases hrun : workAll rest mid with
          | ok _ pass' =>
              rw [hrun] at hrest
              obtain ⟨hnone, hmore⟩ := hrest
              exact ⟨by rw [hnone]; rfl, hnotes.append hmore⟩
          | error error pass' =>
              rw [hrun] at hrest
              obtain ⟨met, hmore, hoffence⟩ := hrest
              exact ⟨e.written ++ met,
                hnotes.append hmore, by rw [hoffence]; rfl⟩

end Element

/-- What a failed resolution leaves behind. It stops at the first offence, and
every option met before it that leaves a binding has left it: the bindings are
those of before exactly if no option met before the offence leaves one. -/
theorem Node.resolve_error_notes {node : Node} {pass pass' : Pass}
    {e : OptionError} (h : node.resolve pass = .error e pass') :
    ∃ met, node.offence? = some ⟨met, e⟩ ∧ pass.Notes met pass'
      ∧ (pass'.bindings = pass.bindings
        ↔ ∀ option ∈ met, option.2.leavesBinding = false) := by
  have hforget : Element.workAll node.visited pass = .error e pass' := by
    rw [← node.forget_resolve]
    exact Resolve.bind_eq_error.2 (Or.inl h)
  have hwalk := @Element.workAll_offence node.visited pass
  rw [hforget] at hwalk
  obtain ⟨met, hnotes, hoffence⟩ := hwalk
  exact ⟨met, hoffence, hnotes, hnotes.bindings_eq_iff⟩

/-- A form whose field has a text but cannot hold content. Before the text
come a title and a hint that follow a cell, and a listener. -/
def Node.sampleForm : Node :=
  let a : OptionValue := .reactive (.state ⟨⟨0⟩, .literal (.str "a"), none⟩)
  let tap : OptionValue := .reactive (.state ⟨⟨1⟩, .source "() => 0", none⟩)
  .element ⟨"form", .options (.ofList [("title", a)]), some [
    .element ⟨"label", .options (.ofList [("className", .literal (.str "b"))]),
      some []⟩,
    .element ⟨"input",
      .options (.ofList
        [("hint", a), ("onClick", tap), ("innerText", .literal (.str "c"))]),
      none⟩]⟩

/-- Of the four options that are met, title and hint leave a binding. -/
theorem Node.sampleForm_notes : ∃ met pass',
    Node.sampleForm.resolve .fresh
        = .error (.childless "input" "innerText") pass'
      ∧ Pass.fresh.Notes met pass'
      ∧ met.map Prod.fst = ["title", "className", "hint", "onClick"]
      ∧ pass'.bindings ≠ Pass.fresh.bindings := by
  have fails : Node.sampleForm.resolve .fresh
    = .error (.childless "input" "innerText") _ := rfl
  obtain ⟨met, hoffence, hnotes, hiff⟩ := Node.resolve_error_notes fails
  have hmet : Node.sampleForm.offence?
    = some ⟨_, .childless "input" "innerText"⟩ := rfl
  rw [hmet] at hoffence
  cases hoffence
  refine ⟨_, _, fails, hnotes, rfl, fun hsame => ?_⟩
  exact absurd (hiff.1 hsame _ (.head _)) (by decide)

/-- An entry with a title that follows a cell and, after it, a style that is
an object. -/
def Node.styledEntry : Node :=
  .element ⟨"li", .options (.ofList
    [("title", .reactive (.state ⟨⟨0⟩, .literal (.str "a"), none⟩)),
      ("style", .literal (.obj [("color", .str "red")]))]), some []⟩

/-- The entry fails, and the binding of its title is there all the same. -/
theorem Node.styledEntry_notes : ∃ pass',
    Node.styledEntry.resolve .fresh = .error (.untyped "li" "style") pass'
      ∧ pass'.bindings.length = 1 ∧ Pass.fresh.bindings = [] :=
  ⟨_, rfl, rfl, rfl⟩

end Prerender
