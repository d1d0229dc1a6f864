/-
Reading settings from data. Members are read in the order of the object, the
first one that does not fit is the error, and unknown ones do not count. A
record may also be written as the list of its values in the order of their
declaration.
-/
import Prerender.Json.Printer
import Prerender.Settings.Basic
import Prerender.Text.Debug

namespace Prerender

/-- Why data does not fit. -/
inductive DecodeError where
  /-- A value of another type than expected. -/
  | wrongType (found : Json) (expected : String)
  /-- An object in the place of a name that has not exactly one member. -/
  | notSingle
  /-- A name that is none of those expected. -/
  | unknownName (name : String) (expected : List String)
  /-- A member that is not there. -/
  | missing (name : String)
  /-- A list of a length that does not fit. -/
  | wrongLength (length : Nat) (expected : String)

namespace DecodeError

/-- What was found, as an error names it. -/
def describe : Json → String
  | .null => "null"
  | .bool true => "boolean `true`"
  | .bool false => "boolean `false`"
  | .int n => "integer `" ++ toString n ++ "`"
  | .double d => "floating point `" ++ Json.doubleText d ++ "`"
  | .str s => "string " ++ Text.debugQuoted s
  | .arr _ => "sequence"
  | .obj _ => "map"

/-- The names that were expected, as an error lists them. -/
def alternatives : List String → String
  | [a] => "`" ++ a ++ "`"
  | [a, b] => "`" ++ a ++ "` or `" ++ b ++ "`"
  | names => "one of "
      ++ ", ".intercalate (names.map fun name => "`" ++ name ++ "`")

/-- The text of the error. -/
def message : DecodeError → String
  | .wrongType found expected => "invalid type: " ++ describe found
      ++ ", expected " ++ expected
  | .notSingle => "invalid value: map, expected map with a single key"
  | .unknownName name expected =>
      "unknown variant `" ++ name ++ "`, expected " ++ alternatives expected
  | .missing name => "missing field `" ++ name ++ "`"
  | .wrongLength length expected =>
      "invalid length " ++ toString length ++ ", expected " ++ expected

end DecodeError

/-- A value read from data, or why the data does not fit. -/
abbrev Decoded (α : Type) := Except DecodeError α

namespace Decode

-- ============================================================= scalars

/-- A boolean. -/
def bool : Json → Decoded Bool
  | .bool b => .ok b
  | found => .error (.wrongType found "a boolean")

/-- A text. -/
def string : Json → Decoded String
  | .str s => .ok s
  | found => .error (.wrongType found "a string")

/-- A path, which any text is. -/
def path : Json → Decoded OsText
  | .str s => .ok s
  | found => .error (.wrongType found "path string")

/-- A list of texts. -/
def strings : Json → Decoded (List String)
  | .arr items => items.mapM string
  | found => .error (.wrongType found "a sequence")

/-- The value that a name stands for. -/
def named {α : Type} (name : α → String) (values : List α) (written : String) :
    Decoded α :=
  match values.find? fun value => name value == written with
  | some value => .ok value
  | none => .error (.unknownName written (values.map name))

/-- One of several named values: its name, or an object with the name as its
only member and nothing under it. -/
def choice {α : Type} (name : α → String) (values : List α) : Json → Decoded α
  | .str written => named name values written
  | .obj [(written, content)] => do
      let value ← named name values written
      match content with
      | .null => .ok value
      | found => .error (.wrongType found "unit")
  | .obj _ => .error .notSingle
  | found => .error (.wrongType found "string or map")

/-- An environment by name. -/
def environment : Json → Decoded Environment :=
  choice Environment.name [.production, .development]

/-- A module format by name. -/
def format : Json → Decoded Script.Format :=
  choice Script.Format.name [.esm, .cjs, .iife]

/-- A platform by name. -/
def platform : Json → Decoded Script.Platform :=
  choice Script.Platform.name [.browser, .node, .neutral]

/-- A source language by name. -/
def loader : Json → Decoded Script.Loader :=
  choice Script.Loader.name [.js, .ts]

-- ============================================================ settings

/-- The error of a list that has more values than the record. -/
def tooLong (length : Nat) : DecodeError :=
  .wrongLength length "fewer elements in array"

/-- The log level that the members of the logging record set, starting from
`level`. -/
def loggingMembers (level : String) : List (String × Json) → Decoded String
  | [] => .ok level
  | (name, value) :: rest => do
      if name = "level" then loggingMembers (← string value) rest
      else loggingMembers level rest

/-- The log level of a logging record. -/
def logging : Json → Decoded String
  | .obj members => loggingMembers Settings.defaults.logLevel members
  | .arr [] => .ok Settings.defaults.logLevel
  | .arr (level :: rest) => do
      let level ← string level
      if rest.isEmpty then .ok level else .error (tooLong (rest.length + 1))
  | found => .error (.wrongType found "struct LoggingSettings")

/-- The settings with one of them set by name. -/
def setting (settings : Settings) (name : String) (value : Json) :
    Decoded Settings := do
  match name with
  | "pages_dir" => return { settings with pagesDir := ← path value }
  | "output_dir" => return { settings with outputDir := ← path value }
  | "write_to_html" => return { settings with writesHtml := ← bool value }
  | "environment" => return { settings with environment := ← environment value }
  | "minify" => return { settings with minify := ← bool value }
  | "client_script" => return { settings with clientScript := ← string value }
  | "logging" => return { settings with logLevel := ← logging value }
  | _ => return settings

/-- The settings that members set, starting from `base`. -/
def settingsFrom (base : Settings) : List (String × Json) → Decoded Settings
  | [] => .ok base
  | (name, value) :: rest => do settingsFrom (← setting base name value) rest

/-- The settings of an object; what it does not set is as by default. -/
def settings : Json → Decoded Settings
  | .obj members => settingsFrom Settings.defaults members
  | found => .error (.wrongType found "struct BuildSettings")

-- ====================================================== script options

/-- The options of a transformation that were read so far. -/
structure PartialOptions where
  minify : Option Bool
  drop : Option (List String)
  format : Option Script.Format
  platform : Option Script.Platform
  loader : Option Script.Loader

/-- The options that were read with one of them read by name. -/
def scriptOption (read : PartialOptions) (name : String) (value : Json) :
    Decoded PartialOptions := do
  match name with
  | "minify" => return { read with minify := some (← bool value) }
  | "drop" => return { read with drop := some (← strings value) }
  | "format" => return { read with format := some (← format value) }
  | "platform" => return { read with platform := some (← platform value) }
  | "loader" => return { read with loader := some (← loader value) }
  | _ => return read

/-- The options that members give. -/
def scriptMembers (read : PartialOptions) :
    List (String × Json) → Decoded PartialOptions
  | [] => .ok read
  | (name, value) :: rest =>
      do scriptMembers (← scriptOption read name value) rest

/-- A member that has to be there. -/
def present {α : Type} (name : String) : Option α → Decoded α
  | some value => .ok value
  | none => .error (.missing name)

/-- The options, all of which have to be there. -/
def PartialOptions.complete (read : PartialOptions) : Decoded Script.Options :=
  do
  return {
    minify := ← present "minify" read.minify
    drop := ← present "drop" read.drop
    format := ← present "format" read.format
    platform := ← present "platform" read.platform
    loader := ← present "loader" read.loader }

/-- The value at a place of a list that stands for the options. -/
def place {α : Type} (items : List Json) (index : Nat)
    (read : Json → Decoded α) : Decoded α :=
  match items[index]? with
  | some item => read item
  | none => .error
      (.wrongLength index "struct TransformOptions with 5 elements")

/-- The options of a transformation. -/
def scriptOptions : Json → Decoded Script.Options
  | .obj members => do
      let read ← scriptMembers ⟨none, none, none, none, none⟩ members
      read.complete
  | .arr items => do
      let options : Script.Options := {
        minify := ← place items 0 bool
        drop := ← place items 1 strings
        format := ← place items 2 format
        platform := ← place items 3 platform
        loader := ← place items 4 loader }
      if items.length ≤ 5 then .ok options else .error (tooLong items.length)
  | found => .error (.wrongType found "struct TransformOptions")

end Decode
end Prerender
