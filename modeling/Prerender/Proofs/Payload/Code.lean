/-
The payload is uniquely decodable.

Whatever is written into a payload can be told from its text, and this
is shown from the pieces (`Text.Tells`): from fields to entries, from
entries to sections, and from the sections to the whole. Three things
are peculiar to a payload.

1. Sections are left out when they are empty. But each begins with a
   name that no later one begins with, so a section tells its entries,
   be it there or not (`tells_listSection`).
2. Client code is taken as it is. Nothing in a text of code tells where
   it ends, unless something is known of the code; what has to be known
   of all sources of a page is `Legible`.
3. Some of a page does not get to the client: the evaluator of an
   observer and its first arguments, handles, and the order of bindings
   of different kinds. So not all of two pages is the same if their
   payloads are (`code_ofPage_inj`), but all that is written is.

A page is told from its payload because the cells of both kinds are put
back in order by their numbers (`Proofs/Payload/Groups`).
-/
import Prerender.Proofs.Payload.Entries
import Prerender.Proofs.Payload.Groups

namespace Prerender.Payload

open Json (quoted commaSeparated)
open Text (StartsWith BeginsWith Tells startsWith_append)

variable {sources : String → Prop}

-- ============================================================= sections

section
variable {name opening closing : String} {later : List String}

theorem listSection_of {entries : List String} (h : (!entries.isEmpty) = true) :
    listSection name opening closing entries
      = name ++ ":" ++ opening ++ commaSeparated entries ++ closing ++ "," := by
  rw [Bool.not_eq_true'] at h
  rw [listSection, if_neg (Bool.eq_false_iff.1 h)]

/-- A section begins with its name, or is not there. -/
theorem beginsWith_listSection (entries : List String) {u : String}
    (hu : BeginsWith later u) :
    BeginsWith (name :: later)
      (listSection name opening closing entries ++ u) := by
  cases h : !entries.isEmpty with
  | true =>
      rw [listSection_of h]
      simp only [String.append_assoc]
      exact ⟨name, .head _, _, rfl⟩
  | false =>
      obtain ⟨s, hs, rest, hrest⟩ := hu
      rw [Bool.not_eq_false'] at h
      rw [listSection, if_pos h, String.empty_append]
      exact ⟨s, .tail _ hs, rest, hrest⟩

variable {α β : Type} {valid : α → Prop} {write : α → String} {told : α → β}
  {close : Char → Bool}

/-- A section tells what its entries tell, if no later part begins with its
name. -/
theorem tells_listSection (closes : closing.toList.head?.any close = true)
    (comma : close ',' = false)
    (apart : ∀ s ∈ later, ¬ name.toList <+: s.toList
      ∧ ¬ s.toList <+: name.toList)
    (starts : ∀ a, valid a → StartsWith (fun c => !close c) (write a))
    {l : List α}
    (hl : ∀ a ∈ l, valid a
      ∧ Tells valid (StartsWith fun c => c == ',' || close c) write told a) :
    Tells (fun l => ∀ a ∈ l, valid a) (BeginsWith later)
      (fun l => listSection name opening closing (l.map write))
      (List.map told) l := by
  have hempty : ∀ l : List α, (l.map write).isEmpty = l.isEmpty := by
    intro l
    cases l <;> rfl
  -- what can follow a section does not begin with its name
  refine Text.tells_optional (fun l => !l.isEmpty) ?_ ?_ ?_ ?_
  · intro l habsent
    rw [Bool.not_eq_false', ← hempty] at habsent
    rw [listSection, if_pos habsent]
  · rintro l hpresent u ⟨s, hs, rest, hrest⟩
    rw [← hempty] at hpresent
    rw [listSection_of hpresent] at hrest
    simp only [String.append_assoc] at hrest
    exact Text.append_ne_append (apart s hs).1 (apart s hs).2 hrest
  · intro a b ha hb
    rw [Bool.not_eq_false', List.isEmpty_iff] at ha hb
    rw [ha, hb]
  · intro hpresent l' hl' u v hu hv heq
    rw [← hempty] at hpresent
    have hpresent' := hl'.2
    rw [← hempty] at hpresent'
    simp only [listSection_of hpresent, listSection_of hpresent'] at heq
    have hentries := (Text.tells_commaSeparated comma starts hl).behind
      (name ++ ":" ++ opening)
    have hclosing : Tells _ (fun _ => True) _ _ l :=
      hentries.upTo closing fun w _ => startsWith_append closing w closes
    exact (hclosing.upTo "," fun _ _ => trivial) hl'.1 hu hv heq

/-- A section of entries in braces. -/
theorem tells_arraySection (apart : ∀ s ∈ later, ¬ name.toList <+: s.toList
      ∧ ¬ s.toList <+: name.toList)
    (starts : ∀ a, StartsWith (fun c => c == '\x7b') (write a)) {l : List α}
    (hl : ∀ a ∈ l, valid a ∧ Tells valid (fun _ => True) write told a) :
    Tells (fun l => ∀ a ∈ l, valid a) (BeginsWith later)
      (fun l => listSection name "[" "]" (l.map write)) (List.map told) l := by
  have hstarts : ∀ a, valid a → StartsWith (fun c => !(c == ']'))
    (write a) := by
    refine fun a _ => (starts a).mono fun c hc => ?_
    rw [beq_iff_eq.1 hc]
    rfl
  exact tells_listSection rfl rfl apart hstarts fun a ha =>
    ⟨(hl a ha).1, (hl a ha).2.mono (fun _ => id) fun _ _ => trivial⟩

/-- The section of the bind groups. -/
theorem tells_groupSection (hsources : Legible sources)
    (apart : ∀ s ∈ later, ¬ name.toList <+: s.toList
      ∧ ¬ s.toList <+: name.toList)
    {groups : List (GroupKey × List Cell)}
    (h : ∀ group ∈ groups, ∀ cell ∈ group.2, cell.value.LiesIn sources) :
    Tells (fun groups =>
      ∀ group ∈ groups, ∀ cell ∈ group.2, cell.value.LiesIn sources)
      (BeginsWith later)
      (fun groups => listSection name "\x7b" "\x7d" (groups.map groupEntry))
      (List.map fun group => (group.1, group.2.map ungrouped)) groups := by
  have hstarts : ∀ group : GroupKey × List Cell,
    (∀ cell ∈ group.2, cell.value.LiesIn sources) →
      StartsWith (fun c => !(c == '\x7d')) (groupEntry group) := by
    refine fun group _ => startsWith_groupEntry rfl (fun c hc => ?_) group
    rw [Bool.not_eq_true', beq_eq_false_iff_ne]
    rintro rfl
    cases hc
  exact tells_listSection rfl rfl apart hstarts fun group hgroup =>
    ⟨h group hgroup, tells_groupEntry hsources (h group hgroup)⟩

end

-- ============================================================== payload

/-- Whether the payload has only the given sources as client code, data in the
records of cells, and hooks whose groups can be told. -/
structure IsWritable (sources : String → Prop) (payload : Payload) : Prop where
  cells : ∀ cell ∈ payload.cells, cell.value.LiesIn sources
  groups : ∀ group ∈ payload.groups, ∀ cell ∈ group.2, cell.value.LiesIn sources
  states : ∀ record ∈ payload.states, record.link.value.IsData
  observers : ∀ record ∈ payload.observers,
    sources record.observer.update.source
  hooks : ∀ hook ∈ payload.hooks, IsBound sources hook

/-- What the client gets of an observer: all but the evaluator and the first
arguments. -/
def written (record : ObserverRecord) :
    ElementKey × String × String × List CellRef :=
  (record.key, record.attributeName, record.observer.update.source,
    record.observer.cells)

/-- The statement that registers a payload tells it. -/
theorem tells_code (hsources : Legible sources) {payload : Payload}
    (h : IsWritable sources payload) :
    Tells (IsWritable sources) (fun _ => True) code
      (fun payload => (payload.url, payload.cells.map ungrouped,
        payload.groups.map fun group => (group.1, group.2.map ungrouped),
        payload.states, payload.observers.map written, payload.hooks))
        payload := by
  have hurl : Tells (IsWritable sources) (fun _ => True)
    (fun payload => quoted payload.url)
      Payload.url payload := fun _ _ _ _ _ _ heq => Json.eq_of_quoted_append heq
  have hhead : Tells _ (fun _ => True) _ _ payload :=
    (hurl.behind (dictionary ++ "[")).upTo "]=\x7b" fun _ _ => trivial
  -- Each section in front of those that may follow it.
  have hcells : Tells (IsWritable sources)
    (BeginsWith ["binds", "soa", "ooa", "lh", "\x7d;"])
      (fun payload => listSection "state" "[" "]" (payload.cells.map cellEntry))
      (fun payload => payload.cells.map ungrouped) payload :=
    Tells.on (f := Payload.cells)
      (tells_arraySection (by decide) startsWith_cellEntry
        fun cell hcell =>
        ⟨h.cells cell hcell, tells_cellEntry hsources (h.cells cell hcell)⟩)
      fun _ => IsWritable.cells
  have hgroups : Tells (IsWritable sources)
    (BeginsWith ["soa", "ooa", "lh", "\x7d;"])
      (fun payload => listSection "binds" "\x7b" "\x7d"
        (payload.groups.map groupEntry))
      (fun payload => payload.groups.map fun group =>
        (group.1, group.2.map ungrouped)) payload :=
    Tells.on (f := Payload.groups)
      (tells_groupSection hsources (by decide) h.groups)
      fun _ => IsWritable.groups
  have hstates : Tells (IsWritable sources) (BeginsWith ["ooa", "lh", "\x7d;"])
      (fun payload => listSection "soa" "[" "]" (payload.states.map stateEntry))
      (fun payload => payload.states.map id) payload :=
    Tells.on (f := Payload.states)
      (tells_arraySection (by decide) startsWith_stateEntry
        fun record hrecord =>
        ⟨h.states record hrecord, tells_stateEntry (h.states record hrecord)⟩)
      fun _ => IsWritable.states
  have hobservers : Tells (IsWritable sources) (BeginsWith ["lh", "\x7d;"])
      (fun payload => listSection "ooa" "[" "]"
        (payload.observers.map observerEntry))
      (fun payload => payload.observers.map written) payload :=
    Tells.on (f := Payload.observers)
      (tells_arraySection (by decide) startsWith_observerEntry
        fun record hrecord => ⟨h.observers record hrecord,
          tells_observerEntry hsources (h.observers record hrecord)⟩)
      fun _ => IsWritable.observers
  have hhooks : Tells (IsWritable sources) (BeginsWith ["\x7d;"])
      (fun payload => listSection "lh" "[" "]" (payload.hooks.map hookEntry))
      (fun payload => payload.hooks.map id) payload :=
    Tells.on (f := Payload.hooks)
      (tells_arraySection (by decide) startsWith_hookEntry
        fun hook hhook =>
        ⟨h.hooks hook hhook, tells_hookEntry hsources (h.hooks hook hhook)⟩)
      fun _ => IsWritable.hooks
  have hsections := ((((hhead.seq hcells h fun _ _ _ _ => trivial).seq hgroups h
    fun _ _ _ => beginsWith_listSection _).seq hstates h
      fun _ _ _ => beginsWith_listSection _).seq hobservers h
        fun _ _ _ => beginsWith_listSection _).seq hhooks h
          fun _ _ _ => beginsWith_listSection _
  refine (hsections.upTo "\x7d;" fun u _ => ⟨"\x7d;", .head _, u, rfl⟩).imp
    fun payload' _ htold => ?_
  simp only [Prod.mk.injEq, List.map_id_fun, id_eq] at htold ⊢
  obtain ⟨⟨⟨⟨⟨hurl, hcells⟩, hgroups⟩, hstates⟩, hobservers⟩, hhooks⟩ := htold
  exact ⟨hurl, hcells, hgroups, hstates, hobservers, hhooks⟩

-- ================================================================= pages

/-- Whether a page can be told from its payload: its client code is among the
given sources, its cells are numbered in their order, attributes follow cells
of data, and hooks have groups that can be told. -/
structure IsTellable (sources : String → Prop) (cells : List Cell)
    (bindings : List Binding) (hooks : List LoadHook) : Prop where
  numbered : Numbered cells
  cells : ∀ cell ∈ cells, cell.value.LiesIn sources
  states : ∀ binding ∈ bindings, ∀ link, binding.source = .state link →
    link.value.IsData
  observers : ∀ binding ∈ bindings, ∀ observer,
    binding.source = .observer observer →
    sources observer.update.source
  hooks : ∀ hook ∈ hooks, IsBound sources hook

section
variable {url url' : String} {cells cells' : List Cell}
  {bindings bindings' : List Binding} {hooks hooks' : List LoadHook}

/-- Such a page has a payload that is told. -/
theorem IsTellable.isWritable (h : IsTellable sources cells bindings hooks)
    (url : String) :
    IsWritable sources (ofPage url cells bindings hooks) where
  cells cell hcell := h.cells cell (List.mem_filter.1 hcell).1
  groups group hgroup cell hcell := by
    have hmem : cell ∈ (groupCells cells).flatMap Prod.snd :=
      List.mem_flatMap.2 ⟨group, hgroup, hcell⟩
    exact h.cells cell
      (List.mem_filter.1 ((perm_groupCells cells).mem_iff.1 hmem)).1
  states record hrecord := by
    obtain ⟨binding, hbinding, hsome⟩ := List.mem_filterMap.1 hrecord
    unfold Binding.stateRecord? at hsome
    split at hsome
    · next link hsource =>
      cases hsome
      exact h.states binding hbinding link hsource
    · cases hsome
  observers record hrecord := by
    obtain ⟨binding, hbinding, hsome⟩ := List.mem_filterMap.1 hrecord
    unfold Binding.observerRecord? at hsome
    split at hsome
    · next observer hsource =>
      cases hsome
      exact h.observers binding hbinding observer hsource
    · cases hsome
  hooks := h.hooks

/-- The cells in one place are told if their group is. -/
theorem eq_of_map_ungrouped {group : Option GroupKey} {cells cells' : List Cell}
    (h : ∀ cell ∈ cells, cell.group = group)
    (h' : ∀ cell ∈ cells', cell.group = group)
    (heq : cells.map ungrouped = cells'.map ungrouped) : cells = cells' := by
  have hback : ∀ cells : List Cell, (∀ cell ∈ cells, cell.group = group) →
      (cells.map ungrouped).map (fun cell => { cell with group :=
        group }) = cells := by
    intro cells hcells
    rw [List.map_map]
    refine (List.map_congr_left fun cell hcell => ?_).trans (List.map_id cells)
    show { cell with group := group } = cell
    rw [← hcells cell hcell]
  rw [← hback cells h, heq, hback cells' h']

/-- The groups are told with their cells. -/
theorem eq_of_map_groups {groups groups' : List (GroupKey × List Cell)}
    (h : Grouped groups) (h' : Grouped groups')
    (heq : (groups.map fun group => (group.1, group.2.map ungrouped))
      = groups'.map fun group => (group.1, group.2.map ungrouped)) :
    groups = groups' := by
  induction groups generalizing groups' with
  | nil =>
      cases groups' with
      | nil => rfl
      | cons group rest => cases heq
  | cons group rest ih =>
      cases groups' with
      | nil => cases heq
      | cons group' rest' =>
          obtain ⟨hgroup, hrest⟩ := List.forall_mem_cons.1 h
          obtain ⟨hgroup', hrest'⟩ := List.forall_mem_cons.1 h'
          rw [List.map_cons, List.map_cons, List.cons.injEq, Prod.mk.injEq]
            at heq
          obtain ⟨⟨hkey, hcells⟩, htail⟩ := heq
          rw [← hkey] at hgroup'
          rw [ih hrest hrest' htail,
            show group = group' from
              Prod.ext hkey (eq_of_map_ungrouped hgroup hgroup' hcells)]

/-- Two pages with one payload have the same address, cells and hooks, and
bindings of which the client gets the same. -/
theorem code_ofPage_inj (hsources : Legible sources)
    (h : IsTellable sources cells bindings hooks)
    (h' : IsTellable sources cells' bindings' hooks')
    (heq : (ofPage url cells bindings hooks).code
      = (ofPage url' cells' bindings' hooks').code) :
    url = url' ∧ cells = cells'
      ∧ bindings.filterMap Binding.stateRecord?
        = bindings'.filterMap Binding.stateRecord?
      ∧ (bindings.filterMap Binding.observerRecord?).map written
        = (bindings'.filterMap Binding.observerRecord?).map written
      ∧ hooks = hooks' := by
  have heq' : _ ++ "" = _ ++ "" := congrArg (· ++ "") heq
  obtain ⟨htold, -⟩ := tells_code hsources (h.isWritable url)
    (h'.isWritable url') trivial trivial heq'
  simp only [Prod.mk.injEq] at htold
  obtain ⟨hurl, hplain, hgroups, hstates, hobservers, hhooks⟩ := htold
  have hungrouped : ∀ cells : List Cell, ∀ cell ∈ cells.filter fun cell =>
    cell.group.isNone,
      cell.group = none :=
    fun _ _ hcell => Option.isNone_iff_eq_none.1 (List.mem_filter.1 hcell).2
  refine ⟨hurl, ?_, hstates, hobservers, hhooks⟩
  exact cells_eq h.numbered h'.numbered
    (eq_of_map_ungrouped (hungrouped cells) (hungrouped cells') hplain)
    (eq_of_map_groups (grouped_groupCells cells)
      (grouped_groupCells cells') hgroups)

end

/-- A single source is legible if it does not begin like data. -/
theorem legible_singleton {source : String}
    (h : StartsWith (fun c => Json.kindOf? c == none) source) :
    Legible (· = source) := by
  have hclash : ∀ value : Json, value.IsFinite → ∀ u v,
      (CellValue.literal value).storedCode ++ u ≠ source ++ v := by
    intro value hvalue u v heq
    rw [storedCode_literal] at heq
    refine ((Json.startsWith_compact
      (stored_isFinite hvalue)).append u).not_disjoint
      (heq ▸ h.append v) fun c hc => ?_
    rw [beq_iff_eq.1 hc]
    rfl
  refine ⟨fun value hvalue heq => hclash value hvalue "" ""
    (congrArg (· ++ "") heq), ?_⟩
  rintro s t (rfl | ⟨value, hvalue, rfl⟩)
    (rfl | ⟨value', hvalue', rfl⟩) u v hu hv heq
  · rfl
  · exact (hclash value' hvalue' v u heq.symm).elim
  · exact (hclash value hvalue u v heq).elim
  · rw [storedCode_literal, storedCode_literal] at heq ⊢
    exact congrArg Json.compact (Json.tells_compact (stored_isFinite hvalue)
      (stored_isFinite hvalue') (endsNumeral_of_endsValue hu)
      (endsNumeral_of_endsValue hv) heq).1

/-- Three cells: data, data in a bind group, and a listener. -/
def sampleCells : List Cell :=
  [⟨⟨0⟩, .literal (.str "hi"), none, []⟩,
    ⟨⟨1⟩, .literal (.int 3), some ⟨"list"⟩, []⟩,
    ⟨⟨2⟩, .source "() => 1", none, [⟨⟨1⟩, some ⟨"list"⟩⟩]⟩]

/-- A hook of the group. -/
def sampleHooks : List LoadHook := [⟨"() => 1", some ⟨"list"⟩, []⟩]

/-- An attribute that follows a cell. -/
def sampleState : Binding :=
  ⟨⟨0⟩, "title", .state ⟨⟨0⟩, .literal (.str "hi"), none⟩⟩

/-- An attribute that an observer computes, with the given evaluator at build
time. -/
def sampleObserver (evaluate : List Json → Json) : Binding :=
  ⟨⟨1⟩, "value", .observer ⟨⟨"() => 1", evaluate⟩, [⟨⟨1⟩, some ⟨"list"⟩⟩], []⟩⟩

/-- The page can be told, whatever the evaluator and the order of its
bindings. -/
theorem sample_isTellable {bindings : List Binding}
    (evaluate : List Json → Json)
    (h : bindings.Perm [sampleState, sampleObserver evaluate]) :
    IsTellable (· = "() => 1") sampleCells bindings sampleHooks where
  numbered := by
    unfold Numbered
    decide
  cells := by
    refine List.forall_mem_cons.2 ⟨Json.IsFinite.str _, ?_⟩
    exact List.forall_mem_cons.2
      ⟨Json.IsFinite.int _, List.forall_mem_singleton.2 rfl⟩
  states := by
    intro binding hbinding link hlink
    rcases List.mem_cons.1 (h.mem_iff.1 hbinding) with rfl | hbinding
    · cases hlink
      exact Json.IsFinite.str _
    · cases List.mem_singleton.1 hbinding
      cases hlink
  observers := by
    intro binding hbinding observer hobserver
    rcases List.mem_cons.1 (h.mem_iff.1 hbinding) with rfl | hbinding
    · cases hobserver
    · cases List.mem_singleton.1 hbinding
      cases hobserver
      rfl
  hooks := List.forall_mem_singleton.2 ⟨rfl, by decide⟩

/-- Two orders of bindings and two evaluators give one payload. -/
theorem sample_code_ofPage :
    Legible (· = "() => 1")
      ∧ IsTellable (· = "() => 1") sampleCells
        [sampleState, sampleObserver fun _ => .int 1] sampleHooks
      ∧ IsTellable (· = "() => 1") sampleCells
        [sampleObserver fun _ => .null, sampleState] sampleHooks
      ∧ (ofPage "/" sampleCells [sampleState, sampleObserver fun _ => .int 1]
        sampleHooks).code
        = (ofPage "/" sampleCells [sampleObserver fun _ => .null, sampleState]
          sampleHooks).code
      ∧ ([sampleState, sampleObserver fun _ => .int 1].filterMap
        Binding.observerRecord?).map written
        = ([sampleObserver fun _ => .null, sampleState].filterMap
          Binding.observerRecord?).map
            written := by
  have hsources : Legible (· = "() => 1") := legible_singleton rfl
  have h := sample_isTellable (fun _ => .int 1) (List.Perm.refl _)
  have h' := sample_isTellable (fun _ => .null)
    (List.Perm.swap sampleState _ [])
  have heq : (ofPage "/" sampleCells
    [sampleState, sampleObserver fun _ => .int 1] sampleHooks).code
      = (ofPage "/" sampleCells [sampleObserver fun _ => .null, sampleState]
        sampleHooks).code := by
    decide +kernel
  exact ⟨hsources, h, h', heq, (code_ofPage_inj hsources h h' heq).2.2.2.1⟩

end Prerender.Payload
