/-
References in a payload.

Entries name cells by number and group: the record of an attribute the
cell that it follows, an observer the cells that it is computed from,
cells and hooks the cells that their functions receive. Each of these
leads to one cell of the payload, in the place that the group tells
(`Session.Linked.payload_refs`). This is about the payload as a record;
that the entries of the record are those of the text that is written,
piece by piece, is `Payload.perm_refs_pieces`.

Page code can refer to a cell only by a link that it was given. So the
sessions that matter are those of code with a link to whatever it refers
to (`Session.Linked`), and three facts are put together:

1. what such a session refers to anywhere, it has given out a link to
   (`Session.Linked.links`), by one case for each operation;
2. links are true when they are given out and stay true
   (`Session.Reached.backs`), as no operation changes a cell that is
   there;
3. resolving notes nothing but what stood on the tree
   (`Node.resolve_comesFrom`), so that bindings refer to no more than
   the session does.

Serializing then sorts cells and bindings into entries and loses none of
the cells (`Payload.perm_listed`, `Payload.places_ofPage`). That a cell
is met just once needs a store that has not run out of numbers, which is
the only bound in the statement.
-/
import Mathlib.Data.List.Nodup
import Prerender.Proofs.Payload.Groups
import Prerender.Proofs.Resolve.Failure
import Prerender.Proofs.Resolve.FirstPaint

namespace Prerender

-- ======================================================= while code runs

/-- The cells that an operation refers to. -/
def Operation.refs : Operation → List CellRef
  | .addState _ _ | .reference _ | .addGroupHook _ _ => []
  | .addListener _ dependencies => dependencies
  | .observe cells _ => cells
  | .addHook _ dependencies => dependencies

/-- The cells that a reactive value refers to. -/
def Reactive.refs : Reactive → List CellRef
  | .state link => [link.toRef]
  | .observer o => o.cells
  | .reference _ => []

/-- The cells that the cells and hooks of a scope refer to. -/
def Scope.refs (scope : Scope) : List CellRef :=
  scope.cells.flatMap Cell.dependencies
    ++ scope.hooks.flatMap LoadHook.dependencies

namespace Session

/-- Whether the session has given out a link to the cell referred to. -/
def Links (session : Session) (ref : CellRef) : Prop :=
  ∃ link, Reactive.state link ∈ session.returned ∧ link.toRef = ref

/-- The cells referred to anywhere in a session. -/
def refs (session : Session) : List CellRef :=
  session.scope.refs ++ session.returned.flatMap Reactive.refs

/-- The sessions of page code that has a link to every cell that it refers
to. -/
inductive Linked : Session → Prop
  | fresh : Linked .fresh
  | step {session : Session} {op : Operation} (before : Linked session)
      (known : ∀ ref ∈ op.refs, session.Links ref) : Linked (session.perform op)

variable {session : Session} {op : Operation} {ref : CellRef}

theorem Links.perform (h : session.Links ref) (op : Operation) :
    (session.perform op).Links ref := by
  obtain ⟨link, hlink, rfl⟩ := h
  refine ⟨link, ?_, rfl⟩
  cases op with
  | addHook source dependencies => exact hlink
  | addGroupHook source key => exact hlink
  | _ => exact List.mem_append_left _ hlink

theorem links_withCell (session : Session) (made : StateLink × Scope) :
    (session.withCell made).Links made.1.toRef :=
  ⟨made.1, List.mem_append_right _ (.head _), rfl⟩

/-- With a new cell come the references of its function, and its link. -/
theorem mem_refs_withCell {value : CellValue} {group : Option GroupKey}
    {deps : List CellRef}
    (h : ref ∈ (session.withCell
      (session.scope.addCell value group deps)).refs) :
    ref ∈ session.refs ∨ ref ∈ deps
      ∨ (session.withCell (session.scope.addCell value group deps)).Links
        ref := by
  have hlinks := links_withCell session (session.scope.addCell value group deps)
  simp only [refs, withCell, Scope.refs, Scope.addCell, List.flatMap_append,
    List.flatMap_cons, List.flatMap_nil, List.append_nil, List.mem_append] at h
  simp only [refs, Scope.refs, List.mem_append]
  rcases h with ((h | h) | h) | h | h
  · exact Or.inl (Or.inl (Or.inl h))
  · exact Or.inr (Or.inl h)
  · exact Or.inl (Or.inl (Or.inr h))
  · exact Or.inl (Or.inr h)
  · rw [Reactive.refs, List.mem_singleton] at h
    rw [h]
    exact Or.inr (Or.inr hlinks)

/-- After an operation nothing is referred to but what was before, what the
operation refers to, and what is linked to by now. -/
theorem mem_refs_perform (h : ref ∈ (session.perform op).refs) :
    ref ∈ session.refs ∨ ref ∈ op.refs ∨ (session.perform op).Links ref := by
  cases op with
  | addState value group =>
      rcases mem_refs_withCell h with h | h | h
      · exact Or.inl h
      · cases h
      · exact Or.inr (Or.inr h)
  | addListener source dependencies => exact mem_refs_withCell h
  | observe cells update =>
      simp only [refs, perform, Scope.observe, List.flatMap_append,
        List.flatMap_cons, List.flatMap_nil, List.append_nil, List.mem_append,
        Reactive.refs] at h
      simp only [refs, List.mem_append, Operation.refs]
      rcases h with h | h | h
      · exact Or.inl (Or.inl h)
      · exact Or.inl (Or.inr h)
      · exact Or.inr (Or.inl h)
  | reference value =>
      simp only [refs, perform, List.flatMap_append, List.flatMap_cons,
        List.flatMap_nil, List.append_nil, Reactive.refs] at h
      exact Or.inl h
  | addHook source dependencies =>
      simp only [refs, perform, Scope.addHook, Scope.refs, List.flatMap_append,
        List.flatMap_cons, List.flatMap_nil, List.append_nil, List.mem_append]
        at h
      simp only [refs, Scope.refs, List.mem_append, Operation.refs]
      rcases h with (h | h | h) | h
      · exact Or.inl (Or.inl (Or.inl h))
      · exact Or.inl (Or.inl (Or.inr h))
      · exact Or.inr (Or.inl h)
      · exact Or.inl (Or.inr h)
  | addGroupHook source key =>
      simp only [refs, perform, Scope.addGroupHook, Scope.refs,
        List.flatMap_append, List.flatMap_cons, List.flatMap_nil,
        List.append_nil] at h
      exact Or.inl h

namespace Linked

/-- Such page code is page code: what it reaches can be reached. -/
theorem reached (linked : session.Linked) : session.Reached := by
  induction linked with
  | fresh => exact .fresh
  | @step session op before known ih =>
      refine .step ih ?_
      cases op with
      | observe cells update => exact known
      | _ => trivial

/-- Whatever a session refers to it has given out a link to. -/
theorem links (linked : session.Linked) :
    ∀ ref ∈ session.refs, session.Links ref := by
  induction linked with
  | fresh => nofun
  | @step session op before known ih =>
      intro ref hmem
      rcases mem_refs_perform hmem with hold | hasked | hlinks
      · -- links that were given out before, and what was asked for by them,
        -- last
        exact (ih ref hold).perform op
      · exact (known ref hasked).perform op
      · exact hlinks

/-- What is referred to is a cell of the scope, of the group that the
reference tells. -/
theorem exists_cell (linked : session.Linked) (h : ref ∈ session.refs) :
    ∃ cell ∈ session.scope.cells, cell.id = ref.cell
      ∧ cell.group = ref.group := by
  obtain ⟨link, hlink, rfl⟩ := linked.links ref h
  obtain ⟨cell, hcell, rfl⟩ := linked.reached.backs _ hlink
  exact ⟨cell, hcell, rfl, rfl⟩

end Linked
end Session

-- ============================================================= on the tree

/-- Whether what the binding follows is the scope's and no listener. -/
structure Binding.ComesFrom (session : Session) (b : Binding) : Prop where
  given : (OptionValue.reactive b.source).ComesFrom session
  data : ∀ link, b.source = .state link → link.value.isSource = false

/-- The binding that an option leaves follows its value, which is no
listener. -/
theorem OptionValue.source_of_binding? {name : String} {key : ElementKey}
    {value : OptionValue} {b : Binding} (h : value.binding? name key = some b) :
    value = .reactive b.source ∧ ∀ link, b.source = .state link →
    link.value.isSource = false := by
  cases value with
  | literal data => cases h
  | reactive value =>
      cases value with
      | state link =>
          rw [binding?] at h
          split at h
          · cases h
          · next hdata =>
            cases h
            refine ⟨rfl, fun _ heq => ?_⟩
            cases heq
            exact Bool.eq_false_iff.2 hdata
      | observer o =>
          cases h
          refine ⟨rfl, fun _ heq => ?_⟩
          cases heq
      | reference handle =>
          cases h
          refine ⟨rfl, fun _ heq => ?_⟩
          cases heq

/-- Resolving notes bindings to nothing but what the options of the tree
hold. -/
theorem Node.resolve_comesFrom {session : Session} {node out : Node}
    {pass pass' : Pass}
    (own : ∀ e ∈ node.elements, ∀ option ∈ e.written,
      option.2.ComesFrom session)
    (noted : ∀ b ∈ pass.bindings, b.ComesFrom session)
    (h : node.resolve pass = .ok out pass') :
    ∀ b ∈ pass'.bindings, b.ComesFrom session := by
  have hforget : Element.workAll node.visited pass = .ok ⟨⟩ pass' := by
    rw [← node.forget_resolve]
    exact Resolve.bind_of_ok h
  have hwalk := @Element.workAll_offence node.visited pass
  rw [hforget] at hwalk
  intro b hb
  rcases hwalk.2.exists_of_mem hb with hb | ⟨⟨name, value⟩, hmem, hbinding⟩
  · exact noted b hb
  · obtain ⟨rfl, hdata⟩ := OptionValue.source_of_binding? hbinding
    obtain ⟨e, he, hoption⟩ := List.mem_flatMap.1 hmem
    exact ⟨own e (node.visited_sublist.subset he) _ hoption, hdata⟩

-- =========================================================== in a payload

namespace Payload

/-- All cells of a payload, whether under a group or not. -/
def listed (payload : Payload) : List Cell :=
  payload.cells ++ payload.groups.flatMap Prod.snd

/-- The references that entries of a payload are written with: those of the
records, of the observed cells, and of the cells that the functions of cells
and hooks receive. -/
def refs (payload : Payload) : List CellRef :=
  payload.states.map (fun record => record.link.toRef)
    ++ payload.observers.flatMap (fun record => record.observer.cells)
    ++ (payload.listed.flatMap Cell.dependencies
      ++ payload.hooks.flatMap LoadHook.dependencies)

/-- Whether a payload has the cell in the place that the group of the
reference tells: under the key of the group, or among the cells without one. -/
def Places (payload : Payload) (ref : CellRef) (cell : Cell) : Prop :=
  match ref.group with
  | none => cell ∈ payload.cells
  | some key => ∃ held, (key, held) ∈ payload.groups ∧ cell ∈ held

variable {url : String} {cells : List Cell} {bindings : List Binding}
  {hooks : List LoadHook}

/-- The cells of a payload, under groups and outside, are those of the scope.
-/
theorem perm_listed : (ofPage url cells bindings hooks).listed.Perm cells :=
  ((perm_groupCells cells).append_left _).trans
    (List.filter_append_perm _ cells)

/-- A cell of the scope has the place that its group tells. -/
theorem places_ofPage {ref : CellRef} {cell : Cell} (h : cell ∈ cells)
    (group : cell.group = ref.group) :
    (ofPage url cells bindings hooks).Places ref cell := by
  unfold Places
  cases hgroup : ref.group with
  | none => exact List.mem_filter.2 ⟨h, by rw [group, hgroup]; rfl⟩
  | some key => exact exists_mem_groupCells h (group.trans hgroup)

/-- Behind the record of an attribute there is a binding to its cell. -/
theorem mem_states {record : StateRecord}
    (h : record ∈ (ofPage url cells bindings hooks).states) :
    ∃ b ∈ bindings, b.source = .state record.link := by
  obtain ⟨b, hb, hrecord⟩ := List.mem_filterMap.1 h
  refine ⟨b, hb, ?_⟩
  rw [Binding.stateRecord?] at hrecord
  split at hrecord
  · next hsource =>
    cases hrecord
    exact hsource
  · cases hrecord

/-- Behind the record of an observer there is a binding to it. -/
theorem mem_observers {record : ObserverRecord}
    (h : record ∈ (ofPage url cells bindings hooks).observers) :
    ∃ b ∈ bindings, b.source = .observer record.observer := by
  obtain ⟨b, hb, hrecord⟩ := List.mem_filterMap.1 h
  refine ⟨b, hb, ?_⟩
  rw [Binding.observerRecord?] at hrecord
  split at hrecord
  · next hsource =>
    cases hrecord
    exact hsource
  · cases hrecord

/-- The entries of a payload refer to nothing that its session does not. -/
theorem refs_subset {session : Session}
    (known : ∀ b ∈ bindings, b.ComesFrom session) :
    (ofPage url session.scope.cells bindings session.scope.hooks).refs
      ⊆ session.refs := by
  have hreturned : ∀ {value : Reactive}, value ∈ session.returned →
    value.refs ⊆ session.refs :=
    fun hvalue _ href => List.mem_append_right _
      (List.mem_flatMap.2 ⟨_, hvalue, href⟩)
  intro ref href
  rcases List.mem_append.1 href with href | href
  · rcases List.mem_append.1 href with href | href
    · -- records of attributes and of observers come of bindings
      obtain ⟨record, hrecord, rfl⟩ := List.mem_map.1 href
      obtain ⟨b, hb, hsource⟩ := mem_states hrecord
      have hgiven := (known b hb).given
      rw [hsource] at hgiven
      exact @hreturned (.state record.link) hgiven _ (List.mem_singleton.2 rfl)
    · obtain ⟨record, hrecord, href⟩ := List.mem_flatMap.1 href
      obtain ⟨b, hb, hsource⟩ := mem_observers hrecord
      have hgiven := (known b hb).given
      rw [hsource] at hgiven
      exact @hreturned (.observer record.observer) hgiven _ href
  · -- cells and hooks are the ones of the scope, in another order
    refine List.mem_append_left _ ?_
    rw [List.mem_append, (perm_listed.flatMap_right _).mem_iff] at href
    exact List.mem_append.2 href

end Payload

open Payload in
/-- Every reference of a payload leads to one cell of it. Let page code do
what it likes with a new scope, as long as it refers to cells by links that it
was given, and let a tree be made of what the scope gave out. Whatever number
an entry of the payload names a cell by, just one cell of the payload has it;
it stands under the group that the entry tells, or outside groups if the entry
tells none. The value in the record of an attribute is the data of the cell. -/
theorem Session.Linked.payload_refs {session : Session}
    (linked : session.Linked)
    (room : session.scope.cells.length < UInt32.size) {node out : Node}
    {pass pass' : Pass}
    (own : ∀ e ∈ node.elements, ∀ option ∈ e.written,
      option.2.ComesFrom session)
    (noted : ∀ b ∈ pass.bindings, b.ComesFrom session)
    (h : node.resolve pass = .ok out pass') (url : String) {payload : Payload}
    (made : payload = .ofPage url session.scope.cells pass'.bindings
      session.scope.hooks) :
    (∀ ref ∈ payload.refs, (payload.listed.map Cell.id).count ref.cell = 1
        ∧ ∃ cell, cell.id = ref.cell ∧ payload.Places ref cell)
      ∧ ∀ record ∈ payload.states, ∃ cell ∈ payload.listed, ∃ data,
        cell.id = record.link.cell ∧ cell.value = .literal data
          ∧ record.link.value = .literal data := by
  subst made
  have hbindings := Node.resolve_comesFrom own noted h
  have hdistinct := linked.reached.cells_distinct (Nat.le_of_lt room)
  refine ⟨fun ref href => ?_, fun record hrecord => ?_⟩
  · obtain ⟨cell, hcell, hid, hgroup⟩ :=
      linked.exists_cell (refs_subset hbindings href)
    refine ⟨?_, cell, hid, places_ofPage hcell hgroup⟩
    -- sorting cells into groups changes no count, and numbers of a store
    -- differ
    rw [(perm_listed.map Cell.id).count_eq, ← hid]
    exact List.count_eq_one_of_mem hdistinct (List.mem_map_of_mem hcell)
  · obtain ⟨b, hb, hsource⟩ := mem_states hrecord
    obtain ⟨hgiven, hdata⟩ := hbindings b hb
    rw [hsource] at hgiven
    obtain ⟨cell, hcell, hlink⟩ :=
      linked.reached.backs (.state record.link) hgiven
    have hliteral := hdata record.link hsource
    rw [← hlink] at hliteral ⊢
    refine ⟨cell, perm_listed.mem_iff.2 hcell, ?_⟩
    cases hvalue : cell.value with
    | literal data => exact ⟨data, rfl, rfl, hvalue⟩
    | source code =>
        rw [show cell.link.value = .source code from hvalue] at hliteral
        cases hliteral

/-- A cell, a cell of a group, a listener that receives the second, an
observer of both, and a hook that receives both. -/
def Session.linkedSample : Session :=
  let list : Option GroupKey := some ⟨"list"⟩
  fresh
    |>.perform (.addState (.str "a") none)
    |>.perform (.addState (.int 5) list)
    |>.perform (.addListener "(_, n) => n" [⟨⟨1⟩, list⟩])
    |>.perform (.observe [⟨⟨1⟩, list⟩, ⟨⟨0⟩, none⟩] ⟨"(n, a) => [n, a]", .arr⟩)
    |>.perform (.addHook "(a, n) => a" [⟨⟨0⟩, none⟩, ⟨⟨1⟩, list⟩])

/-- Each of its operations refers to cells whose links were given before. -/
theorem Session.linkedSample_linked : Session.linkedSample.Linked := by
  unfold Session.linkedSample
  refine .step
    (.step (.step (.step (.step .fresh (by nofun)) (by nofun)) ?_) ?_) ?_
  · exact List.forall_mem_singleton.2 ⟨_, .tail _ (.head _), rfl⟩
  · exact List.forall_mem_cons.2 ⟨⟨_, .tail _ (.head _), rfl⟩,
      List.forall_mem_singleton.2 ⟨_, .head _, rfl⟩⟩
  · exact List.forall_mem_cons.2 ⟨⟨_, .head _, rfl⟩,
      List.forall_mem_singleton.2 ⟨_, .tail _ (.head _), rfl⟩⟩

/-- A page made of the four values that the sample session gave out. -/
def Node.linkedPage : Node :=
  let given (i : Nat) : OptionValue :=
    .reactive (Session.linkedSample.returned.getD i (.reference ⟨.null⟩))
  .element ⟨"ul", .options (.ofList [("title", given 0), ("onClick", given 2)]),
    some [.element
      ⟨"li", .options
        (.ofList [("dataCount", given 1), ("innerText", given 3)]),
      some []⟩]⟩

/-- Its payload refers to cells seven times: in two records, from an observer,
a listener and a hook. -/
theorem Node.linkedPage_refs : ∃ out pass' payload,
    Node.linkedPage.resolve .fresh = .ok out pass'
      ∧ payload = Payload.ofPage "/" Session.linkedSample.scope.cells
        pass'.bindings Session.linkedSample.scope.hooks
      ∧ payload.refs.map (fun ref => ref.cell.number) = [0, 1, 1, 0, 1, 0, 1]
      ∧ ∀ ref ∈ payload.refs, (payload.listed.map Cell.id).count ref.cell = 1
        ∧ ∃ cell, cell.id = ref.cell ∧ payload.Places ref cell := by
  have own : ∀ e ∈ Node.linkedPage.elements, ∀ option ∈ e.written,
      option.2.ComesFrom Session.linkedSample := by
    refine List.forall_mem_cons.2 ⟨?_, List.forall_mem_cons.2 ⟨?_, nofun⟩⟩
    · exact List.forall_mem_cons.2 ⟨.head _, List.forall_mem_cons.2
        ⟨.tail _ (.tail _ (.head _)), nofun⟩⟩
    · exact List.forall_mem_cons.2 ⟨.tail _ (.head _), List.forall_mem_cons.2
        ⟨.tail _ (.tail _ (.tail _ (.head _))), nofun⟩⟩
  have resolves : Node.linkedPage.resolve .fresh = .ok _ _ := rfl
  obtain ⟨hrefs, -⟩ := Session.linkedSample_linked.payload_refs (by decide) own
    (by nofun) resolves "/" rfl
  exact ⟨_, _, _, resolves, rfl, rfl, hrefs⟩

end Prerender
