/-
Tables of a TOML document while it is read. What may still be added to a table
depends on how it came to be: by its own header, along the way to another
table, or by a dotted key. A value that is written out, an inline table among
them, is closed.
-/
import Prerender.Toml.Value

namespace Prerender.Toml

/-- How a table came to be. -/
inductive Origin where
  /-- It stands on the way to a table with a header. -/
  | implied
  /-- A dotted key made it. -/
  | dotted
  /-- It has a header of its own, or it is the document. -/
  | header
deriving DecidableEq

/-- What a key of a table holds. -/
inductive Entry where
  | value (value : Value)
  | table (origin : Origin) (entries : List (String × Entry))
  /-- A list of tables, each begun by a header. Only the last one is open. -/
  | tables (earlier : List Value) (entries : List (String × Entry))

/-- A table under way, its keys in ascending order. -/
abbrev Table := List (String × Entry)

mutual

/-- The finished value of an entry. -/
def Entry.toValue : Entry → Value
  | .value v => v
  | .table _ entries => .table (Entry.membersOf entries)
  | .tables earlier entries =>
      .list (earlier ++ [.table (Entry.membersOf entries)])

/-- The finished members of a table. -/
def Entry.membersOf : List (String × Entry) → List (String × Value)
  | [] => []
  | (name, entry) :: rest => (name, entry.toValue) :: Entry.membersOf rest

end

namespace Table

/-- The table as a value. -/
def toValue (table : Table) : Value := .table (Entry.membersOf table)

/-- Changes the table at the end of a path. Tables that are missing on the way
are made, with the given origin; lists of tables are entered at the last one.
A dotted key does not enter a table with a header, and nothing enters a
value. -/
def modifyAt (making : Origin) (change : Origin → Table → Option Table) :
    List String → Origin → Table → Option Table
  | [], origin, table => change origin table
  | name :: path, _, table =>
      match table.lookup name with
      | none => do
          let entries ← modifyAt making change path making []
          some (Sorted.insert name (.table making entries) table)
      | some (.table origin entries) =>
          if making = .dotted ∧ origin = .header then none
          else do
            let entries ← modifyAt making change path origin entries
            some (Sorted.insert name (.table origin entries) table)
      | some (.tables earlier entries) => do
          let entries ← modifyAt making change path .header entries
          some (Sorted.insert name (.tables earlier entries) table)
      | some (.value _) => none

/-- Adds a value under a key that is not there yet. Where the key is dotted,
its table must be one that dotted keys make. -/
def addPair (path : List String) (name : String) (value : Value)
    (table : Table) : Option Table :=
  modifyAt .dotted
    (fun origin table =>
      if (path ≠ [] ∧ origin ≠ .dotted) ∨ (table.lookup name).isSome then none
      else some (Sorted.insert name (.value value) table))
    path .header table

/-- Adds a value under a key of the table that the last header, `place`,
began. -/
def addPairAt (place path : List String) (name : String) (value : Value)
    (table : Table) :
    Option Table :=
  modifyAt .implied (fun _ table => addPair path name value table) place
    .header table

/-- Begins the table of a header. A table that was so far only implied becomes
its own. -/
def beginTable (path : List String) (name : String) (table : Table) :
    Option Table :=
  modifyAt .implied
    (fun _ table =>
      match table.lookup name with
      | none => some (Sorted.insert name (.table .header []) table)
      | some (.table .implied entries) =>
          some (Sorted.insert name (.table .header entries) table)
      | some _ => none)
    path .header table

/-- Begins the next table of a list of tables. -/
def beginItem (path : List String) (name : String) (table : Table) :
    Option Table :=
  modifyAt .implied
    (fun _ table =>
      match table.lookup name with
      | none => some (Sorted.insert name (.tables [] []) table)
      | some (.tables earlier entries) =>
          some (Sorted.insert name
            (.tables (earlier ++ [toValue entries]) []) table)
      | some _ => none)
    path .header table

end Table
end Prerender.Toml
