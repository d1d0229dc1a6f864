/-
The code of a payload in pieces. Client code is text, and a reference in
it is a few characters of that text: the number of a cell and perhaps
the key of a bind group. What holds of the references of a payload
(`Payload.refs`) therefore says something about the code only if each of
them is written once, and nothing else where the client expects one.

Here the code is cut at these places. A piece is

1. the head of the entry of a cell, by which the client gets the cell,
2. the key of a bind group, in front of the cells of the group,
3. the entry of a reference, in the list of a listener, an observer or a
   hook,
4. the part of the record of an attribute that names the cell that the
   attribute follows, and its value, or
5. text, which stands for itself: the names of the sections, brackets and
   commas, the keys and names of attributes, client code.

Pieces other than text are marks. `Payload.pieces` follows the printer
function by function, and beside each of its parts stand two facts: what
the part writes is what the printer prints (`write_`), and the marks in
it are those of the entry (`marks_`). Put together they say that the code
of a payload is its pieces, one after the other (`Payload.write_pieces`),
and that the marks in them are the cells, keys, records and references of
the payload in a fixed order (`Payload.marks_pieces`).

So whoever reads the code meets the cells in the places that the payload
has for them (`Payload.cells_pieces`), the data of its records
(`Payload.links_pieces`), and its references and no other ones
(`Payload.perm_refs_pieces`). What leads to a cell of the payload does so
in the text that is written.
-/
import Prerender.Payload.Script
import Prerender.Proofs.Payload.References

namespace Prerender.Payload

open Json (commaSeparated quoted)

-- =============================================================== pieces

/-- A piece of the code of a payload. -/
inductive Piece where
  | text (s : String)
  /-- The number and the value of a cell that the client gets. -/
  | cell (cell : Cell)
  /-- The key of the bind group that the next cells belong to. -/
  | group (key : GroupKey)
  /-- A reference to a cell. -/
  | ref (ref : CellRef)
  /-- The cell that an attribute follows. -/
  | record (link : StateLink)

namespace Piece

/-- The code of a piece. -/
def code : Piece → String
  | .text s => s
  | .cell held =>
      toString held.id.number.toNat ++ ",value:" ++ held.value.storedCode
  | .group key => key.label
  | .ref target => refEntry target
  | .record link =>
      toString link.cell.number.toNat ++ ",value:" ++ link.value.code
        ++ GroupKey.field link.group

/-- Whether the piece is more than text. -/
def isMark : Piece → Bool
  | .text _ => false
  | _ => true

/-- The cell that a piece hands to the client. -/
def cell? : Piece → Option Cell
  | .cell held => some held
  | _ => none

/-- The link of the record that a piece is part of. -/
def link? : Piece → Option StateLink
  | .record link => some link
  | _ => none

/-- The reference in a piece, be it an entry of its own or part of a
record. -/
def ref? : Piece → Option CellRef
  | .ref target => some target
  | .record link => some link.toRef
  | _ => none

end Piece

/-- The code of pieces that stand one after the other. -/
def write : List Piece → String
  | [] => ""
  | piece :: rest => piece.code ++ write rest

/-- The pieces that are more than text. -/
def marks (pieces : List Piece) : List Piece := pieces.filter Piece.isMark

theorem write_append (pieces rest : List Piece) :
    write (pieces ++ rest) = write pieces ++ write rest := by
  induction pieces with
  | nil => exact String.empty_append.symm
  | cons piece pieces ih =>
      rw [List.cons_append, write, write, ih, String.append_assoc]

@[simp] theorem marks_nil : marks [] = [] := rfl

@[simp] theorem marks_text (s : String) (rest : List Piece) :
    marks (.text s :: rest) = marks rest := rfl

/-- The marks of pieces in a row come in a row. -/
theorem marks_append (pieces rest : List Piece) :
    marks (pieces ++ rest) = marks pieces ++ marks rest :=
  List.filter_append _ _

/-- What is found in pieces is found in their marks, if text holds
nothing of it. -/
theorem filterMap_marks {α : Type} {f : Piece → Option α}
    (plain : ∀ s, f (.text s) = none) (pieces : List Piece) :
    (marks pieces).filterMap f = pieces.filterMap f := by
  rw [marks, List.filterMap_filter]
  refine List.filterMap_congr fun piece _ => ?_
  cases piece with
  | text s => exact (plain s).symm
  | _ => rfl

/-- The rows of pieces with a comma between each two. -/
def separated : List (List Piece) → List Piece
  | [] => []
  | [pieces] => pieces
  | pieces :: rest => pieces ++ .text "," :: separated rest

/-- Rows of pieces with commas between are written as entries with commas
between. -/
theorem write_separated (rows : List (List Piece)) :
    write (separated rows) = commaSeparated (rows.map write) := by
  induction rows with
  | nil => rfl
  | cons pieces rest ih =>
      cases rest with
      | nil => rfl
      | cons next rest =>
          rw [separated, write_append, write, ih, ← String.append_assoc]
          · rfl
          · nofun

/-- The commas are no marks, so only those of the rows are there. -/
theorem marks_separated (rows : List (List Piece)) :
    marks (separated rows) = rows.flatMap marks := by
  induction rows with
  | nil => rfl
  | cons pieces rest ih =>
      cases rest with
      | nil => exact (List.append_nil _).symm
      | cons next rest =>
          rw [separated, marks_append, marks_text, ih]
          · rfl
          · nofun

/-- Entries that are written in pieces, with commas between them. -/
theorem write_entries {α : Type} {entry : α → String}
    {pieces : α → List Piece} (h : ∀ a, write (pieces a) = entry a)
    (l : List α) :
    write (separated (l.map pieces)) = commaSeparated (l.map entry) := by
  rw [write_separated, List.map_map]
  exact congrArg commaSeparated (List.map_congr_left fun a _ => h a)

theorem marks_entries {α : Type} (pieces : α → List Piece) (l : List α) :
    marks (separated (l.map pieces)) = l.flatMap fun a => marks (pieces a) := by
  rw [marks_separated, List.flatMap_map]

-- ============================================================== entries

/-- The pieces of a list of references. -/
def refPieces (refs : List CellRef) : List Piece :=
  separated (refs.map fun ref => [.ref ref])

theorem write_refPieces (refs : List CellRef) :
    write (refPieces refs) = commaSeparated (refs.map refEntry) :=
  write_entries (fun _ => String.append_empty) refs

/-- A list of references is marked by each of them. -/
theorem marks_refPieces (refs : List CellRef) :
    marks (refPieces refs) = refs.map .ref := by
  rw [refPieces, marks_entries]
  exact List.flatMap_pure_eq_map _ _

/-- The pieces of the list of the cells that a function receives. -/
def dependencyPieces (refs : List CellRef) : List Piece :=
  if refs.isEmpty then []
  else .text ",deps:[" :: (refPieces refs ++ [.text "]"])

theorem write_dependencyPieces (refs : List CellRef) :
    write (dependencyPieces refs) = dependencyField refs := by
  rw [dependencyPieces, dependencyField]
  split
  · rfl
  · rw [write, write_append, write_refPieces, ← String.append_assoc]
    rfl

theorem marks_dependencyPieces (refs : List CellRef) :
    marks (dependencyPieces refs) = refs.map .ref := by
  cases refs with
  | nil => rfl
  | cons ref refs =>
      rw [dependencyPieces, if_neg nofun, marks_text, marks_append,
        marks_refPieces]
      exact List.append_nil _

/-- The pieces of the entry of a cell. -/
def cellPieces (cell : Cell) : List Piece :=
  .text "\x7bid:" :: .cell cell
    :: (dependencyPieces cell.dependencies ++ [.text "\x7d"])

/-- The pieces of a cell are written as the entry of the cell. -/
theorem write_cellPieces (cell : Cell) :
    write (cellPieces cell) = cellEntry cell := by
  rw [cellPieces, write, write, write_append, write_dependencyPieces,
    cellEntry]
  simp only [Piece.code, write, String.append_empty, String.append_assoc]

/-- The marks of the entry of a cell: the cell, and what its function
receives. -/
def cellMarks (cell : Cell) : List Piece :=
  .cell cell :: cell.dependencies.map .ref

/-- Their marks are the cell and what its function receives. -/
theorem marks_cellPieces (cell : Cell) :
    marks (cellPieces cell) = cellMarks cell := by
  show _ :: marks (dependencyPieces _ ++ _) = _
  rw [marks_append, marks_dependencyPieces]
  exact congrArg _ (List.append_nil _)

/-- The pieces of the entry of a bind group. -/
def groupPieces (group : GroupKey × List Cell) : List Piece :=
  .group group.1 :: .text ":["
    :: (separated (group.2.map cellPieces) ++ [.text "]"])

theorem write_groupPieces (group : GroupKey × List Cell) :
    write (groupPieces group) = groupEntry group := by
  rw [groupPieces, write, write, write_append,
    write_entries write_cellPieces, groupEntry]
  simp only [Piece.code, write, String.append_empty, String.append_assoc]

/-- The marks of a group are its key and those of its cells, without their
keys. -/
theorem marks_groupPieces (group : GroupKey × List Cell) :
    marks (groupPieces group) = .group group.1
      :: group.2.flatMap cellMarks := by
  show _ :: marks (separated _ ++ _) = _
  rw [marks_append, marks_entries, funext marks_cellPieces]
  exact congrArg _ (List.append_nil _)

/-- The pieces of the record of an attribute that follows a cell. -/
def statePieces (record : StateRecord) : List Piece :=
  [.text ("\x7bkey:" ++ toString record.key.number.toNat ++ ",attribute:"
      ++ quoted record.attributeName ++ ",id:"),
    .record record.link, .text "\x7d"]

theorem write_statePieces (record : StateRecord) :
    write (statePieces record) = stateEntry record := by
  rw [statePieces, write, write, write, stateEntry]
  simp only [Piece.code, write, String.append_empty, String.append_assoc]

/-- The pieces of the record of an attribute that an observer computes. -/
def observerPieces (record : ObserverRecord) : List Piece :=
  .text ("\x7bkey:" ++ toString record.key.number.toNat ++ ",attribute:"
      ++ quoted record.attributeName ++ ",update:"
      ++ record.observer.update.source ++ ",refs:[")
    :: (refPieces record.observer.cells ++ [.text "]\x7d"])

theorem write_observerPieces (record : ObserverRecord) :
    write (observerPieces record) = observerEntry record := by
  rw [observerPieces, write, write_append, write_refPieces, observerEntry]
  simp only [Piece.code, write, String.append_empty, String.append_assoc]

/-- The marks of an observer are the cells that it is computed from. -/
theorem marks_observerPieces (record : ObserverRecord) :
    marks (observerPieces record) = record.observer.cells.map .ref := by
  rw [observerPieces, marks_text, marks_append, marks_refPieces]
  exact List.append_nil _

/-- The pieces of the entry of a hook. -/
def hookPieces (hook : LoadHook) : List Piece :=
  .text ("\x7bfn:" ++ hook.source ++ ",bind:"
      ++ quoted ((hook.group.map GroupKey.text).getD ""))
    :: (dependencyPieces hook.dependencies ++ [.text "\x7d"])

theorem write_hookPieces (hook : LoadHook) :
    write (hookPieces hook) = hookEntry hook := by
  rw [hookPieces, write, write_append, write_dependencyPieces, hookEntry]
  simp only [Piece.code, write, String.append_empty, String.append_assoc]

/-- The marks of a hook are the cells that it receives. -/
theorem marks_hookPieces (hook : LoadHook) :
    marks (hookPieces hook) = hook.dependencies.map .ref := by
  rw [hookPieces, marks_text, marks_append, marks_dependencyPieces]
  exact List.append_nil _

-- ============================================================== payload

section
variable {α : Type} {entry : α → String} {pieces : α → List Piece}
  {name opening closing : String}

/-- The pieces of a section of a payload. -/
def sectionPieces (name opening closing : String)
    (entries : List (List Piece)) : List Piece :=
  if entries.isEmpty then []
  else .text (name ++ ":" ++ opening)
    :: (separated entries ++ [.text (closing ++ ",")])

/-- A section of pieces is written as the section of what they are written as.
-/
theorem write_sectionPieces (h : ∀ a, write (pieces a) = entry a)
    (l : List α) :
    write (sectionPieces name opening closing (l.map pieces))
      = listSection name opening closing (l.map entry) := by
  rw [sectionPieces, listSection, List.isEmpty_map, List.isEmpty_map]
  split
  · rfl
  · rw [write, write_append, write_entries h]
    simp only [Piece.code, write, String.append_empty, String.append_assoc]

/-- Its marks are those of its entries, whether it is there or not. -/
theorem marks_sectionPieces (l : List α) :
    marks (sectionPieces name opening closing (l.map pieces))
      = l.flatMap fun a => marks (pieces a) := by
  cases l with
  | nil => rfl
  | cons a l =>
      rw [sectionPieces, if_neg nofun, marks_text, marks_append,
        marks_entries]
      exact List.append_nil _

end

/-- The pieces of the code of a payload. -/
def pieces (payload : Payload) : List Piece :=
  .text (dictionary ++ "[" ++ quoted payload.url ++ "]=\x7b")
    :: (sectionPieces "state" "[" "]" (payload.cells.map cellPieces)
      ++ sectionPieces "binds" "\x7b" "\x7d" (payload.groups.map groupPieces)
      ++ sectionPieces "soa" "[" "]" (payload.states.map statePieces)
      ++ sectionPieces "ooa" "[" "]" (payload.observers.map observerPieces)
      ++ sectionPieces "lh" "[" "]" (payload.hooks.map hookPieces)
      ++ [.text "\x7d;"])

/-- The code of a payload is its pieces. -/
theorem write_pieces (payload : Payload) :
    write payload.pieces = payload.code := by
  rw [pieces, write]
  simp only [write_append, write_sectionPieces write_cellPieces,
    write_sectionPieces write_groupPieces,
    write_sectionPieces write_statePieces,
    write_sectionPieces write_observerPieces,
    write_sectionPieces write_hookPieces]
  simp only [code, Piece.code, write, String.append_empty,
    String.append_assoc]

/-- The marks in the code of a payload are its cells outside groups, its
groups with their cells, the records and then the references of observers
and hooks; those of a function stand behind its cell. -/
theorem marks_pieces (payload : Payload) :
    marks payload.pieces = payload.cells.flatMap cellMarks
      ++ payload.groups.flatMap
        (fun group => .group group.1 :: group.2.flatMap cellMarks)
      ++ payload.states.map (fun record => .record record.link)
      ++ payload.observers.flatMap
        (fun record => record.observer.cells.map .ref)
      ++ payload.hooks.flatMap (fun hook => hook.dependencies.map .ref) := by
  rw [pieces, marks_text]
  simp only [marks_append, marks_sectionPieces, marks_cellPieces,
    marks_groupPieces, marks_observerPieces, marks_hookPieces]
  rw [← List.flatMap_pure_eq_map]
  exact List.append_nil _

-- ============================================================== reading

section
variable {α : Type} {f : Piece → Option α}

/-- What a reader finds in the entry of a cell. -/
theorem filterMap_cellMarks (cell : Cell) : (cellMarks cell).filterMap f
    = (f (.cell cell)).toList
      ++ cell.dependencies.filterMap fun ref => f (.ref ref) := by
  rw [cellMarks, List.filterMap_cons, List.filterMap_map]
  cases f (.cell cell) <;> rfl

/-- What a reader finds in the code, if it passes over text and the keys
of groups. -/
theorem filterMap_pieces (plain : ∀ s, f (.text s) = none)
    (unkeyed : ∀ key, f (.group key) = none) (payload : Payload) :
    payload.pieces.filterMap f
      = payload.listed.flatMap (fun cell => (cellMarks cell).filterMap f)
        ++ payload.states.filterMap (fun record => f (.record record.link))
        ++ (payload.observers.flatMap (fun record => record.observer.cells)
          ++ payload.hooks.flatMap LoadHook.dependencies).filterMap
            fun ref => f (.ref ref) := by
  have hgroup : ∀ group : GroupKey × List Cell,
      (.group group.1 :: group.2.flatMap cellMarks).filterMap f
        = group.2.flatMap fun cell => (cellMarks cell).filterMap f :=
    fun group => by
      rw [List.filterMap_cons_none (unkeyed _), List.filterMap_flatMap]
  rw [← filterMap_marks plain, marks_pieces, listed]
  simp only [List.filterMap_append, List.filterMap_flatMap, List.flatMap_append,
    List.flatMap_assoc, List.filterMap_map, hgroup, List.append_assoc]
  rfl

end

/-- The code hands the cells of the payload to the client, in their
order. -/
theorem cells_pieces (payload : Payload) :
    payload.pieces.filterMap Piece.cell? = payload.listed := by
  rw [filterMap_pieces (fun _ => rfl) fun _ => rfl]
  simp only [filterMap_cellMarks, Piece.cell?, List.filterMap_none,
    List.append_nil]
  exact List.flatMap_singleton' _

/-- The values in the code that belong to attributes are those of the
records. -/
theorem links_pieces (payload : Payload) :
    payload.pieces.filterMap Piece.link?
      = payload.states.map StateRecord.link := by
  rw [filterMap_pieces (fun _ => rfl) fun _ => rfl]
  have hnone : payload.listed.flatMap
      (fun cell => (cellMarks cell).filterMap Piece.link?) = [] :=
    List.flatMap_eq_nil_iff.2 fun cell _ => by
      simp only [filterMap_cellMarks, Piece.link?, List.filterMap_none]
      rfl
  rw [hnone, List.nil_append]
  simp only [Piece.link?, List.filterMap_none, List.append_nil,
    List.filterMap_eq_map']

/-- The code names cells as often as the payload refers to them, and
nowhere else. -/
theorem perm_refs_pieces (payload : Payload) :
    (payload.pieces.filterMap Piece.ref?).Perm payload.refs := by
  rw [filterMap_pieces (fun _ => rfl) fun _ => rfl, refs]
  simp only [filterMap_cellMarks, Piece.ref?, List.filterMap_some,
    List.filterMap_eq_map', Option.toList_none, List.nil_append]
  -- The code has what functions receive with the cells, in front of the
  -- records.
  refine (List.perm_append_comm.append_right _).trans ?_
  rw [List.append_assoc, List.append_assoc]
  exact (List.perm_append_comm_assoc _ _ _).append_left _

end Prerender.Payload
