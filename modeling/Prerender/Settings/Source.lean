/-
Sources of settings: a settings file and variables of the environment. A
source gives members of the settings object, ranks among the other sources,
and says what it is.
-/
import Prerender.Files.System
import Prerender.OrderedMap
import Prerender.Settings.Decode
import Prerender.Text.Case
import Prerender.Toml.Reader

namespace Prerender

/-- Why settings cannot be had. -/
inductive SettingsError where
  /-- A settings file is no TOML. -/
  | notToml
  /-- A settings file cannot be read. -/
  | unreadable (path : OsText)
  /-- The settings that others are laid over have a path that is no text. -/
  | notUnicode
  /-- The settings are not of the form they have to be. -/
  | illFormed (e : DecodeError)
  /-- A variable has a value that means nothing for its setting. -/
  | invalidValue (varName value : String)

/-- The text of the error. -/
def SettingsError.message : SettingsError → String
  | .notToml => "TOML error"
  | .unreadable path => "failed to read " ++ path.lossy
  | .notUnicode => "invalid settings: path contains invalid UTF-8 characters"
  | .illFormed e => "invalid settings: " ++ e.message
  | .invalidValue varName value => "invalid value '" ++ value
      ++ "' for " ++ varName

/-- A source of settings. -/
structure Source where
  /-- Sources with a higher rank override those with a lower one. -/
  priority : Nat
  description : String
  load : Except SettingsError (OrderedMap Json)

namespace Settings

-- =============================================================== files

/-- The members of the settings that a TOML text gives. -/
def ofToml (text : String) : Except SettingsError (OrderedMap Json) :=
  match Toml.ofText? text with
  | some members => .ok (.ofList members)
  | none => .error .notToml

/-- The text of a settings file. -/
def readFile (fs : FileSystem) (path : OsText) : Except SettingsError String :=
  match fs.readText path with
  | .ok text => .ok text
  | .error _ => .error (.unreadable path)

/-- The settings file at a path, which gives nothing if it is not there. -/
def tomlFile (fs : FileSystem) (path : OsText) : Source where
  priority := 50
  description := "TOML file: " ++ path.lossy
  load :=
    match fs.item path with
    | .error _ => .ok .empty
    | .ok _ => do ofToml (← readFile fs path)

-- =========================================================== variables

/-- How the names of the variables begin that override settings. -/
def defaultLead : String := "ELEGANCE_"

/-- The boolean that a value spells. -/
def boolOfSpelling? (value : String) : Option Bool :=
  let spelling := Text.lowercase (Text.trim value)
  if ["true", "1", "yes", "on"].contains spelling then some true
  else if ["false", "0", "no", "off"].contains spelling then some false
  else none

/-- The environment that a value spells. -/
def environmentOfSpelling? (value : String) : Option Environment :=
  let spelling := Text.lowercase (Text.trim value)
  if ["production", "prod"].contains spelling then some .production
  else if ["development", "dev"].contains spelling then some .development
  else none

/-- A value, which means something for its setting or is an error. -/
def meaning (varName value : String) : Option Json → Except SettingsError Json
  | some meant => .ok meant
  | none => .error (.invalidValue varName value)

/-- The member that a variable sets, given its name without the lead; nothing
for other names. -/
def memberOfVariable (varName name value : String) :
    Except SettingsError (Option (String × Json)) := do
  match Text.lowercase name with
  | "output_dir" => return some ("output_dir", .str value)
  | "pages_dir" => return some ("pages_dir", .str value)
  | "client_script" => return some ("client_script", .str value)
  | "write_to_html" =>
      return some
        ("write_to_html", ← meaning varName value
          ((boolOfSpelling? value).map .bool))
  | "minify" =>
      return some ("minify", ← meaning varName value
        ((boolOfSpelling? value).map .bool))
  | "environment" =>
      return some ("environment",
        ← meaning varName value
          ((environmentOfSpelling? value).map fun e => .str e.name))
  | "log_level" =>
      return some ("logging", .obj [("level", .str (Text.lowercase value))])
  | _ => return none

/-- The name of a variable without its lead. -/
def withoutLead? (lead varName : String) : Option String :=
  (lead.toList.isPrefixOf? varName.toList).map String.ofList

/-- The members that variables set, on top of those set so far. The last
variable for a member counts; the first one with a value that means nothing is
the error. -/
def membersOfVariables (lead : String) (members : OrderedMap Json) :
    List (String × String) → Except SettingsError (OrderedMap Json)
  | [] => .ok members
  | (varName, value) :: rest => do
      match withoutLead? lead varName with
      | none => membersOfVariables lead members rest
      | some name =>
          match ← memberOfVariable varName name value with
          | none => membersOfVariables lead members rest
          | some (name, json) =>
              membersOfVariables lead (members.insert name json) rest

/-- The variables of an environment whose names begin with `lead`. -/
def variableSource (lead : String) (environment : List (String × String)) :
    Source where
  priority := 100
  description := "Environment variables with prefix " ++ lead
  load := membersOfVariables lead .empty environment

end Settings
end Prerender
