/-
The scope while page code runs.

Page code makes cells, has cells observed and registers hooks, in any
order and as often as it likes. What it can ask for are six operations;
a session is the scope after some of them, with the reactive values that
the code has been given by then. So whatever holds of every session
holds of every page, and is shown by induction over the operations
(`Session.Reached`).

Cells are only ever added, and they never change
(`Session.perform_cases`). So a value that was right when it was given
out stays right (`Scope.Backs.mono`): the link to a cell shows what the
scope lists for the cell at the end, and the arguments of an observer
are the values that its cells have at the end (`Session.Reached.backs`).

Page code is trusted in one point: the cells that it wants observed are
cells that it got a link to. A number made up by the code might belong
to no cell, or to one that is made later, and then an observer is given
`null` for it.

Cells are numbered as they are made, and numbers go round after `2 ^ 32`
of them (`Session.Reached.cells_numbered`). Until then no two cells have
the same one (`Session.Reached.cells_distinct`).
-/
import Mathlib.Data.List.Forall2
import Prerender.Reactive.Scope

namespace Prerender

-- =========================================================== operations

/-- What page code can ask of its scope. -/
inductive Operation where
  | addState (value : Json) (group : Option GroupKey)
  | addListener (source : String) (dependencies : List CellRef)
  | observe (cells : List CellRef) (update : Update)
  | reference (value : Json)
  | addHook (source : String) (dependencies : List CellRef)
  | addGroupHook (source : String) (key : GroupKey)

/-- A scope and the reactive values that it has given to the page code. -/
structure Session where
  scope : Scope
  returned : List Reactive

namespace Session

/-- The session before any operation. -/
def fresh : Session := ⟨.empty, []⟩

/-- The session with the link to a cell that was made. -/
def withCell (session : Session) (made : StateLink × Scope) : Session :=
  ⟨made.2, session.returned ++ [.state made.1]⟩

/-- The session after an operation. -/
def perform (session : Session) : Operation → Session
  | .addState value group =>
      session.withCell (session.scope.addState value group)
  | .addListener source dependencies =>
      session.withCell (session.scope.addListener source dependencies)
  | .observe cells update =>
      { session with
        returned := session.returned
          ++ [.observer (session.scope.observe cells update)] }
  | .reference value =>
      { session with returned := session.returned ++ [.reference ⟨value⟩] }
  | .addHook source dependencies =>
      { session with scope := session.scope.addHook source dependencies }
  | .addGroupHook source key =>
      { session with scope := session.scope.addGroupHook source key }

end Session

/-- Whether page code can ask for this: it has a link to every cell that it
wants observed. -/
def Operation.AllowedIn (session : Session) : Operation → Prop
  | .observe cells _ =>
      ∀ ref ∈ cells, ∃ link, Reactive.state link ∈ session.returned
        ∧ link.toRef = ref
  | _ => True

/-- The sessions that page code can bring about. -/
inductive Session.Reached : Session → Prop
  | fresh : Reached .fresh
  | step {session : Session} {op : Operation} (before : Reached session)
      (allowed : op.AllowedIn session) : Reached (session.perform op)

namespace Session

/-- What an operation does: it makes one cell, under the next number, and
gives out the link to it, or it leaves the cells and may give out an observer
or a handle. -/
theorem perform_cases (session : Session) (op : Operation) :
    (∃ cell : Cell, cell.id = ⟨session.scope.nextId⟩
        ∧ (session.perform op).scope.nextId = session.scope.nextId + 1
        ∧ (session.perform op).scope.cells = session.scope.cells ++ [cell]
        ∧ (session.perform op).returned = session.returned
          ++ [.state cell.link])
      ∨ (session.perform op).scope.nextId = session.scope.nextId
        ∧ (session.perform op).scope.cells = session.scope.cells
        ∧ ∃ given, (session.perform op).returned = session.returned ++ given
          ∧ ∀ value ∈ given, (∃ handle, value = .reference handle)
            ∨ ∃ cells update, op = .observe cells update
              ∧ value = .observer (session.scope.observe cells update) := by
  cases op with
  | addState value group =>
      exact Or.inl ⟨⟨⟨session.scope.nextId⟩, .literal value, group, []⟩, rfl,
        rfl, rfl, rfl⟩
  | addListener source dependencies =>
      exact Or.inl
        ⟨⟨⟨session.scope.nextId⟩, .source source, none, dependencies⟩, rfl,
          rfl, rfl, rfl⟩
  | observe cells update =>
      refine Or.inr
        ⟨rfl, rfl, [_], rfl, fun value hmem => Or.inr ⟨cells, update, rfl, ?_⟩⟩
      exact List.mem_singleton.1 hmem
  | reference value =>
      refine Or.inr ⟨rfl, rfl, [_], rfl, fun given hmem => Or.inl ⟨⟨value⟩, ?_⟩⟩
      exact List.mem_singleton.1 hmem
  | addHook source dependencies =>
      exact Or.inr ⟨rfl, rfl, [], (List.append_nil _).symm, nofun⟩
  | addGroupHook source key =>
      exact Or.inr ⟨rfl, rfl, [], (List.append_nil _).symm, nofun⟩

end Session

-- ======================================================= what stays right

/-- What the cell gives to a first evaluation: its data, and `null` where
there is none. -/
def Cell.argument (cell : Cell) : Json := cell.value.literal?.getD .null

namespace Scope

/-- Whether the cell is listed in the scope and is the one referred to. -/
def Lists (scope : Scope) (ref : CellRef) (cell : Cell) : Prop :=
  cell ∈ scope.cells ∧ cell.id = ref.cell

/-- Whether a value says what the cells of the scope say: a link shows a
listed cell, and the arguments of an observer are those of the cells that it
refers to, in order. -/
def Backs (scope : Scope) : Reactive → Prop
  | .state link => ∃ cell ∈ scope.cells, cell.link = link
  | .observer o => ∃ cells, List.Forall₂ scope.Lists o.cells cells
      ∧ o.arguments = cells.map Cell.argument
  | .reference _ => True

/-- Cells that are added make no value wrong. -/
theorem Backs.mono {scope later : Scope} (grows : scope.cells ⊆ later.cells)
    {value : Reactive} (h : scope.Backs value) : later.Backs value := by
  cases value with
  | state link =>
      obtain ⟨cell, hmem, hlink⟩ := h
      exact ⟨cell, grows hmem, hlink⟩
  | observer o =>
      obtain ⟨cells, hcells, harguments⟩ := h
      exact ⟨cells, hcells.imp fun ref cell hlists =>
        ⟨grows hlists.1, hlists.2⟩, harguments⟩
  | reference handle => trivial

/-- A reference to a listed cell gives the argument of a listed cell. -/
theorem exists_argument {scope : Scope} {ref : CellRef}
    (h : ∃ cell ∈ scope.cells, cell.id = ref.cell) :
    ∃ cell, scope.Lists ref cell ∧ scope.argument ref = cell.argument := by
  obtain ⟨cell, hmem, hid⟩ := h
  have hfound : (scope.cell? ref.cell).isSome := by
    rw [cell?, List.find?_isSome]
    exact ⟨cell, hmem, by simp [hid]⟩
  obtain ⟨found, hfound⟩ := Option.isSome_iff_exists.1 hfound
  refine ⟨found, ⟨List.mem_of_find?_eq_some hfound, ?_⟩, ?_⟩
  · have hsame := List.find?_some hfound
    exact eq_of_beq hsame
  · rw [argument, hfound, Option.bind_some, Cell.argument]

/-- An observer of listed cells is right when it is made. -/
theorem backs_observe {scope : Scope} {refs : List CellRef}
    (listed : ∀ ref ∈ refs, ∃ cell ∈ scope.cells, cell.id = ref.cell)
    (update : Update) :
    scope.Backs (.observer (scope.observe refs update)) := by
  show ∃ cells, List.Forall₂ scope.Lists refs cells
    ∧ refs.map scope.argument = _
  induction refs with
  | nil => exact ⟨[], .nil, rfl⟩
  | cons ref rest ih =>
      obtain ⟨cell, hlists, hargument⟩ :=
        exists_argument (listed ref List.mem_cons_self)
      obtain ⟨cells, hcells, harguments⟩ := ih fun r hr =>
        listed r (List.mem_cons_of_mem _ hr)
      refine ⟨cell :: cells, .cons hlists hcells, ?_⟩
      rw [List.map_cons, List.map_cons, hargument, harguments]

end Scope

namespace Session.Reached

variable {session : Session}

/-- Whatever page code has been given still says what the scope says. -/
theorem backs (reached : session.Reached) :
    ∀ value ∈ session.returned, session.scope.Backs value := by
  induction reached with
  | fresh => nofun
  | @step session op before allowed ih =>
      intro value hmem
      rcases session.perform_cases op with
        ⟨cell, -, -, hcells, hreturned⟩ | ⟨-, hcells, given, hreturned, hgiven⟩
      · -- a cell was made, and its link given out
        rw [hreturned, List.mem_append, List.mem_singleton] at hmem
        rcases hmem with hmem | rfl
        · refine (ih value hmem).mono ?_
          rw [hcells]
          exact List.subset_append_left _ _
        · refine ⟨cell, ?_, rfl⟩
          rw [hcells]
          exact List.mem_append_right _ List.mem_cons_self
      · -- the cells are the same; what was given out is a handle or an
        -- observer
        have hkept : session.scope.cells
          ⊆ (session.perform op).scope.cells := by
          rw [hcells]
          exact List.Subset.refl _
        rw [hreturned, List.mem_append] at hmem
        rcases hmem with hmem | hmem
        · exact (ih value hmem).mono hkept
        · rcases hgiven value hmem with
            ⟨handle, rfl⟩ | ⟨cells, update, rfl, rfl⟩
          · trivial
          · -- the observed cells are linked to, and what is linked to is listed
            refine (Scope.backs_observe (fun ref href => ?_) update).mono hkept
            obtain ⟨link, hlink, rfl⟩ := allowed ref href
            obtain ⟨cell, hcell, rfl⟩ := ih _ hlink
            exact ⟨cell, hcell, rfl⟩

/-- Cells are numbered in the order of their making. -/
theorem cells_numbered (reached : session.Reached) :
    session.scope.nextId = UInt32.ofNat session.scope.cells.length
      ∧ session.scope.cells.map Cell.id
        = (List.range session.scope.cells.length).map fun n =>
          ⟨UInt32.ofNat n⟩ := by
  induction reached with
  | fresh => exact ⟨rfl, rfl⟩
  | @step session op before allowed ih =>
      obtain ⟨hnext, hids⟩ := ih
      rcases session.perform_cases op with
        ⟨cell, hid, hnext', hcells, -⟩ | ⟨hnext', hcells, -⟩
      · rw [hcells, List.length_append, List.length_singleton]
        constructor
        · rw [hnext', hnext, UInt32.ofNat_add]
          rfl
        · rw [List.map_append, hids, List.range_succ, List.map_append,
            List.map_singleton, List.map_singleton, hid, hnext]
      · rw [hnext', hcells]
        exact ⟨hnext, hids⟩

/-- As long as the numbers do not run out, no two cells have the same one. -/
theorem cells_distinct (reached : session.Reached)
    (room : session.scope.cells.length ≤ UInt32.size) :
    (session.scope.cells.map Cell.id).Nodup := by
  rw [reached.cells_numbered.2]
  refine List.pairwise_map.2 (List.pairwise_lt_range.imp_of_mem ?_)
  intro a b ha hb hlt heq
  rw [List.mem_range] at ha hb
  have hnumber := congrArg (fun id : CellId => id.number.toNat) heq
  simp only [UInt32.toNat_ofNat_of_lt' (Nat.lt_of_lt_of_le ha room),
    UInt32.toNat_ofNat_of_lt' (Nat.lt_of_lt_of_le hb room)] at hnumber
  omega

end Session.Reached
end Prerender
