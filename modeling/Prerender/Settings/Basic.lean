/-
The settings of a build: where pages come from and where documents go, in
which form pages are written, and how client code is treated.
-/
import Prerender.Script.Options
import Prerender.Text.OsText

namespace Prerender

/-- The environment that is built for. -/
inductive Environment where
  /-- Small output. -/
  | production
  /-- Output that keeps what helps debugging. -/
  | development
deriving DecidableEq

/-- The name of an environment in settings. -/
def Environment.name : Environment → String
  | production => "production"
  | development => "development"

/-- The settings of a build. -/
structure Settings where
  pagesDir : OsText
  outputDir : OsText
  /-- Whether pages are written as documents; else they are written as data. -/
  writesHtml : Bool
  environment : Environment
  minify : Bool
  /-- The address of the client that every document loads. -/
  clientScript : String
  logLevel : String
deriving DecidableEq

namespace Settings

/-- The settings where nothing is set. -/
def defaults : Settings where
  pagesDir := "pages"
  outputDir := "dist"
  writesHtml := true
  environment := .production
  minify := true
  clientScript := "/client.js"
  logLevel := "info"

instance : Inhabited Settings := ⟨defaults⟩

/-- The settings by name, in the order of their declaration, if both paths
among them are texts. -/
def members? (settings : Settings) : Option (List (String × Json)) := do
  let pagesDir ← settings.pagesDir.text?
  let outputDir ← settings.outputDir.text?
  return [("pages_dir", .str pagesDir), ("output_dir", .str outputDir),
    ("write_to_html", .bool settings.writesHtml),
    ("environment", .str settings.environment.name),
    ("minify", .bool settings.minify),
    ("client_script", .str settings.clientScript),
    ("logging", .obj [("level", .str settings.logLevel)])]

/-- The kinds of statements that are stripped for production. -/
def productionDrops : List String := ["console", "debugger"]

/-- How the client code of a page is transformed. -/
def scriptOptions (settings : Settings) : Script.Options where
  minify := settings.minify
  drop := if settings.environment = .production then productionDrops else []
  format := .esm
  platform := .browser
  loader := .ts

end Settings
end Prerender
