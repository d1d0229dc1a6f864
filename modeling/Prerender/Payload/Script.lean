/-
The payload as client code: one statement that puts it into the client's
dictionary of pages. Data is written as JSON and functions as their source;
sections without entries are left out.
-/
import Prerender.Json.Printer
import Prerender.Payload.Basic

namespace Prerender

/-- The group part of an entry. -/
def GroupKey.field : Option GroupKey → String
  | none => ""
  | some key => ",bind:" ++ key.label

namespace CellValue

/-- The value as client code that stands for it. -/
def code : CellValue → String
  | .literal value => value.compact
  | .source code => code

/-- The value of a cell as the client reads it: the client parses text a
second time, so text is quoted twice. -/
def storedCode : CellValue → String
  | .literal (.str s) => Json.quoted (Json.quoted s)
  | .literal value => value.compact
  | .source code => code

end CellValue

namespace Payload

open Json (commaSeparated quoted)

/-- The name of the dictionary of pages on the client. -/
def dictionary : String := "pd"

/-- The entry of a reference to a cell. -/
def refEntry (ref : CellRef) : String :=
  "\x7bid:" ++ toString ref.cell.number.toNat
    ++ GroupKey.field ref.group ++ "\x7d"

/-- The part of an entry that lists the cells its function receives. -/
def dependencyField (refs : List CellRef) : String :=
  if refs.isEmpty then "" else ",deps:[" ++ commaSeparated (refs.map refEntry)
    ++ "]"

/-- The entry of a cell. -/
def cellEntry (cell : Cell) : String :=
  "\x7bid:" ++ toString cell.id.number.toNat ++ ",value:"
    ++ cell.value.storedCode
    ++ dependencyField cell.dependencies ++ "\x7d"

/-- The entry of a bind group. -/
def groupEntry (group : GroupKey × List Cell) : String :=
  group.1.label ++ ":[" ++ commaSeparated (group.2.map cellEntry) ++ "]"

/-- The entry of an attribute that follows a cell. -/
def stateEntry (record : StateRecord) : String :=
  "\x7bkey:" ++ toString record.key.number.toNat ++ ",attribute:"
    ++ quoted record.attributeName
    ++ ",id:" ++ toString record.link.cell.number.toNat ++ ",value:"
      ++ record.link.value.code
    ++ GroupKey.field record.link.group ++ "\x7d"

/-- The entry of an attribute that an observer computes. -/
def observerEntry (record : ObserverRecord) : String :=
  "\x7bkey:" ++ toString record.key.number.toNat ++ ",attribute:"
    ++ quoted record.attributeName
    ++ ",update:" ++ record.observer.update.source ++ ",refs:["
    ++ commaSeparated (record.observer.cells.map refEntry) ++ "]\x7d"

/-- The entry of a hook. Without a bind group its key is empty. -/
def hookEntry (hook : LoadHook) : String :=
  "\x7bfn:" ++ hook.source ++ ",bind:"
    ++ quoted ((hook.group.map GroupKey.text).getD "")
    ++ dependencyField hook.dependencies ++ "\x7d"

/-- A section of the payload, which is left out without entries. -/
def listSection (name opening closing : String) (entries : List String) :
    String :=
  if entries.isEmpty then ""
  else name ++ ":" ++ opening ++ commaSeparated entries ++ closing ++ ","

/-- The statement that registers the payload. -/
def code (payload : Payload) : String :=
  dictionary ++ "[" ++ quoted payload.url ++ "]=\x7b"
    ++ listSection "state" "[" "]" (payload.cells.map cellEntry)
    ++ listSection "binds" "\x7b" "\x7d" (payload.groups.map groupEntry)
    ++ listSection "soa" "[" "]" (payload.states.map stateEntry)
    ++ listSection "ooa" "[" "]" (payload.observers.map observerEntry)
    ++ listSection "lh" "[" "]" (payload.hooks.map hookEntry)
    ++ "\x7d;"

end Payload
end Prerender
