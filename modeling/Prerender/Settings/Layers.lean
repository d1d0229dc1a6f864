/-
Layering of settings: objects are laid over one another member by member, at
any depth, and every other value replaces what is under it. Sources are laid
in the order of their rank.
-/
import Prerender.Settings.Source

namespace Prerender

namespace Json

mutual

/-- The value with another one laid over it. -/
def overlay : Json → Json → Json
  | .obj base, .obj layer => .obj (overlayMembers base layer)
  | _, layer => layer

/-- The members of an object with those of another one laid over them, one
after the other. -/
def overlayMembers :
    List (String × Json) → List (String × Json) → List (String × Json)
  | base, [] => base
  | base, (name, value) :: rest =>
      let laid :=
        match base.lookup name with
        | none => value
        | some under => overlay under value
      overlayMembers (Sorted.insert name laid base) rest

end

end Json

namespace Source

/-- The value of the members that a source gives. -/
def layer (source : Source) : Except SettingsError Json :=
  source.load.map fun members => Json.object members.entries

/-- The sources in the order of their rank; those of one rank as they come. -/
def ranked (sources : List Source) : List Source :=
  sources.mergeSort fun a b => a.priority ≤ b.priority

/-- Lays sources over a value in the order given. -/
def overlayAll (base : Json) : List Source → Except SettingsError Json
  | [] => .ok base
  | source :: rest => do overlayAll (base.overlay (← source.layer)) rest

/-- All sources in one value. The error is that of the source of lowest rank. -/
def merge (sources : List Source) : Except SettingsError Json :=
  overlayAll (.obj []) (ranked sources)

end Source

namespace Settings

/-- The settings that a value gives. -/
def ofLayers (value : Json) : Except SettingsError Settings :=
  match Decode.settings value with
  | .ok settings => .ok settings
  | .error e => .error (.illFormed e)

/-- The settings of a TOML text. -/
def ofTomlText (text : String) : Except SettingsError Settings := do
  ofLayers (.object (← ofToml text).entries)

/-- The settings of a settings file, which has to be there. -/
def ofFile (fs : FileSystem) (path : OsText) : Except SettingsError Settings :=
  do
  ofTomlText (← readFile fs path)

/-- The settings as a value. A path that is no text has none. -/
def toJson (settings : Settings) : Except SettingsError Json :=
  match settings.members? with
  | some members => .ok (.object members)
  | none => .error .notUnicode

/-- The settings with those of a source laid over them. They are made a value
before the source is asked. -/
def apply (settings : Settings) (source : Source) :
    Except SettingsError Settings := do
  let base ← settings.toJson
  ofLayers (base.overlay (← source.layer))

/-- The settings of a settings file, if it is there, under those of the
environment. -/
def load (fs : FileSystem) (path : OsText)
    (environment : List (String × String)) :
    Except SettingsError Settings := do
  ofLayers (← Source.merge
    [tomlFile fs path, variableSource defaultLead environment])

end Settings
end Prerender
