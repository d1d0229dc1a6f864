/-
What one page pass keeps while it resolves trees: the next element key and the
bindings found so far. A pass goes on after an error in the sense that its
state stays what it was when the error arose.
-/
import Prerender.Reactive.Value

namespace Prerender

/-- The key by which the client finds an element of its page. -/
structure ElementKey where
  number : UInt32
deriving DecidableEq, Inhabited

/-- An attribute of an element that follows a reactive value. -/
structure Binding where
  key : ElementKey
  attributeName : String
  source : Reactive

/-- Why a tree cannot be resolved: the option, as written, and the tag of its
element. -/
inductive OptionError where
  /-- The option is an object that is no reactive value. -/
  | untyped (tag option : String)
  /-- The option sets the content of an element that cannot hold any. -/
  | childless (tag option : String)
deriving DecidableEq

/-- The text of the error. -/
def OptionError.message : OptionError → String
  | .untyped tag option =>
      "option '" ++ option ++ "' on <" ++ tag
        ++ "> is an object without an attribute type"
  | .childless tag option =>
      "option '" ++ option ++ "' on <" ++ tag
        ++ "> needs a children list, but the element has none"

/-- The state of a page pass. -/
structure Pass where
  /-- The number of keys handed out, which is the next key. -/
  nextKey : UInt32
  bindings : List Binding

namespace Pass

/-- The pass before any tree. -/
def fresh : Pass := ⟨0, []⟩

instance : Inhabited Pass := ⟨fresh⟩

/-- Hands out the next key. -/
def allocate (pass : Pass) : ElementKey × Pass :=
  (⟨pass.nextKey⟩, { pass with nextKey := pass.nextKey + 1 })

/-- Notes a binding after those found so far. -/
def record (pass : Pass) (binding : Binding) : Pass :=
  { pass with bindings := pass.bindings ++ [binding] }

end Pass

/-- A step of a page pass. After an error the pass is what it was when the
error arose. -/
abbrev Resolve (α : Type) := EStateM OptionError Pass α

namespace Resolve

/-- Takes the next key. -/
def newKey : Resolve ElementKey := modifyGet Pass.allocate

/-- Notes a binding. -/
def note (binding : Binding) : Resolve PUnit :=
  modify fun pass => pass.record binding

end Resolve

end Prerender
