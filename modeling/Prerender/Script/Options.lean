/-
What the transformer of client code is told: whether to minify, which kinds of
statements to strip, and the module format, platform and source language.
-/
import Prerender.Json.Basic

namespace Prerender.Script

/-- The module format of the transformed code. -/
inductive Format where
  | esm
  | cjs
  | iife
deriving DecidableEq

/-- The platform that the transformed code runs on. -/
inductive Platform where
  | browser
  | node
  | neutral
deriving DecidableEq

/-- The language that the code is written in. -/
inductive Loader where
  | js
  | ts
deriving DecidableEq

/-- The options of a transformation. -/
structure Options where
  minify : Bool
  /-- The kinds of statements to strip. -/
  drop : List String
  format : Format
  platform : Platform
  loader : Loader
deriving DecidableEq

/-- The name of a module format in options. -/
def Format.name : Format → String
  | esm => "esm"
  | cjs => "cjs"
  | iife => "iife"

/-- The name of a platform in options. -/
def Platform.name : Platform → String
  | browser => "browser"
  | node => "node"
  | neutral => "neutral"

/-- The name of a source language in options. -/
def Loader.name : Loader → String
  | js => "js"
  | ts => "ts"

/-- The options as data. -/
def Options.toJson (options : Options) : Json :=
  .obj
    [("minify", .bool options.minify), ("drop", .arr (options.drop.map .str)),
      ("format", .str options.format.name),
      ("platform", .str options.platform.name),
      ("loader", .str options.loader.name)]

/-- Whether statements of a kind are stripped. -/
def Options.drops (options : Options) (kind : String) : Bool :=
  options.drop.contains kind

end Prerender.Script
