/-
Working off the options of one element. A `Host` is the element in the
meantime: its options, some of them already in their final form, and what the
options have done to its content. Which children the author wrote does not
matter here, only whether there is a list of them; `Host.toElement` and
`Resolve/Tree` put them back.
-/
import Prerender.Resolve.Pass
import Prerender.Text.Digits
import Prerender.Tree.Node
import Prerender.Tree.OptionName

namespace Prerender

/-- The content of an element whose options are being worked off. -/
inductive Content where
  /-- There is no list of children. -/
  | absent
  /-- The children that options have put in front, and whether the written
  ones still follow. -/
  | list (lead : List Node) (keepsWritten : Bool)

namespace Content

/-- The content before any option: all that was written, if there is a list. -/
def ofChildren (written : Option (List Node)) : Content :=
  if written.isSome then .list [] true else .absent

/-- The list of children, given the written ones. -/
def children (written : Option (List Node)) : Content → Option (List Node)
  | .absent => none
  | .list lead keepsWritten =>
      some (lead ++ if keepsWritten then written.getD [] else [])

/-- The content with a plain value put into it: text goes in front of what is
there and markup replaces it. Nothing can be put where there is no list. -/
def put? (kind : OptionName.Content) (value : Json) : Content → Option Content
  | .absent => none
  | .list lead keepsWritten =>
      match kind with
      | .text => some (.list (Node.ofJson value :: lead) keepsWritten)
      | .markup => some (.list [Node.ofMarkup value] false)

/-- The content that is a reactive value and nothing else. -/
def only (kind : OptionName.Content) (value : Json) : Content :=
  match kind with
  | .text => .list [Node.ofJson value] false
  | .markup => .list [Node.ofMarkup value] false

end Content

/-- An element whose options are being worked off. -/
structure Host where
  tag : String
  options : OptionMap
  content : Content

/-- The whole number below `2 ^ 32` that a text denotes: digits, perhaps after
a plus. -/
def ElementKey.ofText? (s : String) : Option ElementKey :=
  let digits :=
    match s.toList with
    | '+' :: rest => rest
    | cs => cs
  match Text.natOfDigits? digits with
  | some n => if n < UInt32.size then some ⟨UInt32.ofNat n⟩ else none
  | none => none

/-- The key that an option value denotes: a whole number below `2 ^ 32`, or
the text of one. -/
def ElementKey.ofOption? : OptionValue → Option ElementKey
  | .literal (.int n) =>
      if 0 ≤ n ∧ n < UInt32.size then some ⟨UInt32.ofNat n.toNat⟩ else none
  | .literal (.str s) => ElementKey.ofText? s
  | _ => none

/-- The key as an option value. -/
def ElementKey.toOption (key : ElementKey) : OptionValue :=
  .literal (.int key.number.toNat)

namespace Host

/-- The element as its options find it; a child in the place of the options is
lost. -/
def ofElement (e : Element) : Host :=
  ⟨e.tag, e.slot.optionsOrEmpty, .ofChildren e.children⟩

/-- The element that the options leave, given the written children. -/
def toElement (host : Host) (written : Option (List Node)) : Element :=
  ⟨host.tag, .options host.options, host.content.children written⟩

/-- The key that the options hold. -/
def key? (host : Host) : Option ElementKey :=
  (host.options.get? OptionName.key).bind ElementKey.ofOption?

/-- The key of the element, a new one being stored if the options hold none. -/
def claimKey (host : Host) : Resolve (ElementKey × Host) := do
  match host.key? with
  | some key => return (key, host)
  | none =>
      let key ← Resolve.newKey
      return (key, { host with
        options := host.options.insert OptionName.key key.toOption })

/-- Writes the present value of a reactive option: into the content where the
name stands for it, else under the name in small letters. -/
def settle (host : Host) (name : String) (value : Json) : Host :=
  let options := host.options.erase name
  match OptionName.content? name with
  | some kind => { host with options := options, content := .only kind value }
  | none => { host with
      options := options.insert (Text.lowercase name) (.literal value) }

/-- Works off a reactive option. The element gets a key, whatever the kind of
value; a listener is taken out without a trace in the document. -/
def applyReactive (host : Host) (name : String) (value : Reactive) :
    Resolve Host := do
  let (key, host) ← host.claimKey
  match value with
  | .state link =>
      match link.value with
      | .source _ => return { host with options := host.options.erase name }
      | .literal data =>
          Resolve.note ⟨key, Text.lowercase name, value⟩
          return host.settle name data
  | .observer o =>
      Resolve.note ⟨key, name, value⟩
      return host.settle name o.firstValue
  | .reference handle =>
      Resolve.note ⟨key, OptionName.reference, value⟩
      let options := host.options.erase name
      return { host with
        options := options.insert OptionName.reference (.literal handle.value) }

/-- Works off a plain option: it moves to the end under its kebab-case name,
or into the content. -/
def applyPlain (host : Host) (name : String) (value : Json) : Resolve Host :=
  let options := host.options.erase name
  match OptionName.content? name with
  | none => return { host with
      options := options.insert (OptionName.kebab name) (.literal value) }
  | some kind =>
      match host.content.put? kind value with
      | some content =>
          return { host with options := options, content := content }
      | none => throw (.childless host.tag name)

/-- Works off one option. -/
def applyOption (host : Host) : String × OptionValue → Resolve Host
  | (name, .reactive value) => host.applyReactive name value
  | (name, .literal (.obj _)) => throw (.untyped host.tag name)
  | (name, .literal value) => host.applyPlain name value

/-- Works off options one after the other, in the order and with the values
that they had before the first of them was worked off. -/
def applyOptions (host : Host) : List (String × OptionValue) → Resolve Host
  | [] => return host
  | option :: rest => do
      let host ← host.applyOption option
      host.applyOptions rest

end Host

/-- Works off one reactive option of an element that is otherwise left alone. -/
def Element.classify (e : Element) (name : String) :
    OptionValue → Resolve Element
  | .literal _ => throw (.untyped e.tag name)
  | .reactive value => do
      let host ← (Host.ofElement e).applyReactive name value
      return host.toElement e.children

end Prerender
