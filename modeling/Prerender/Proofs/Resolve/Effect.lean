/-
What one option does to its element.

Everything is read off the name and the value of the option alone: the
attribute it ends as (`OptionValue.attribute?`), the content it stands
for (`OptionValue.content?`), the binding it leaves
(`OptionValue.binding?`). The element contributes its key and whether it
can hold content, nothing else. In these terms a step is said at once:
the options are rewritten, the content takes the value if the option is
content, and the pass moves by a key and a binding at most.

`Host.applyOption_eq` ties these pieces to the step that works an option
off. It says when the step fails, what it leaves of the element, and how
far it moves the pass. On the way to it each of the smaller steps gets
one equation: claiming a key (`Host.claimKey_eq`), settling a value
(`Host.settle_eq`), a reactive option (`Host.applyReactive_eq`) and a
plain one (`Host.applyPlain_eq`). What follows about options cites the
equation and opens no step again, so that a change to how options are
worked off is met here.

Rows of options come after that: how a run is put together from its
steps (`Host.applyOptions_cons_ok`, `Host.applyOptions_append_ok`), what
a run keeps if every step does (`Host.applyOptions_keeps`), and what is
found in the options after a rewriting, name by name.
-/
import Prerender.Proofs.Resolve.Step
import Prerender.Resolve.Host

namespace Prerender

-- ============================================== read off the option

namespace OptionValue

/-- Whether the value is reactive; listeners are. -/
def isReactive : OptionValue → Bool
  | .literal _ => false
  | .reactive _ => true

/-- Whether the value is an object that names no kind. -/
def isUntyped : OptionValue → Bool
  | .literal (.obj _) => true
  | _ => false

/-- The data that the document is first made with; a listener has none. -/
def data? : OptionValue → Option Json
  | .literal value => some value
  | .reactive (.state link) => link.value.literal?
  | .reactive (.observer o) => some o.firstValue
  | .reactive (.reference handle) => some handle.value

/-- The name under which the document has an option written as `name`. -/
def finalName (name : String) : OptionValue → String
  | .literal _ => OptionName.kebab name
  | .reactive (.reference _) => OptionName.reference
  | .reactive _ => Text.lowercase name

/-- The content that an option written as `name` stands for. A reference
stands for none, whatever its name. -/
def content? (name : String) : OptionValue → Option OptionName.Content
  | .reactive (.reference _) => none
  | _ => OptionName.content? name

/-- The attribute that an option written as `name` ends as, if it does not go
into the content and is no listener. -/
def attribute? (name : String) (value : OptionValue) : Option (String × Json) :=
  match value.content? name with
  | some _ => none
  | none => value.data?.map fun data => (value.finalName name, data)

/-- The binding that an option written as `name` leaves on an element with the
given key. Plain options and listeners leave none. -/
def binding? (name : String) (key : ElementKey) : OptionValue → Option Binding
  | .literal _ => none
  | .reactive (.state link) =>
      if link.value.isSource then none
      else some ⟨key, Text.lowercase name, .state link⟩
  | .reactive (.observer o) => some ⟨key, name, .observer o⟩
  | .reactive (.reference handle) =>
      some ⟨key, OptionName.reference, .reference handle⟩

/-- An option that becomes an attribute stands for no content, has data, and
gets its final name. -/
theorem attribute?_eq_some_iff {name final : String} {value : OptionValue}
    {data : Json} :
    value.attribute? name = some (final, data)
      ↔ value.content? name = none ∧ value.data? = some data
        ∧ value.finalName name = final := by
  unfold attribute?
  cases value.content? name with
  | some kind => simp
  | none =>
      show value.data?.map _ = _ ↔ _
      rw [Option.map_eq_some_iff]
      constructor
      · intro h
        obtain ⟨_, hdata, heq⟩ := h
        cases heq
        exact ⟨rfl, hdata, rfl⟩
      · intro h
        obtain ⟨-, hdata, rfl⟩ := h
        exact ⟨data, hdata, rfl⟩

end OptionValue

/-- The options after the one written as `name` has become the given
attribute. -/
def OptionMap.rewrite (options : OptionMap) (name : String) :
    Option (String × Json) → OptionMap
  | none => options.erase name
  | some (final, data) => (options.erase name).insert final (.literal data)

/-- The content after an option written as `name`; nothing can be put where
there is no list, but a reactive value brings its own. -/
def Content.take? (name : String) (value : OptionValue) (content : Content) :
    Option Content :=
  match value.content? name, value.data? with
  | some kind, some data =>
      if value.isReactive then some (.only kind data)
        else content.put? kind data
  | _, _ => some content

namespace Host

/-- The key that a reactive option finds or is given, when `next` is the next
key. -/
def keyWith (host : Host) (next : UInt32) : ElementKey := host.key?.getD ⟨next⟩

/-- Whether an option makes the element take a new key. -/
def takesKey (host : Host) (value : OptionValue) : Bool :=
  value.isReactive && host.key?.isNone

/-- The options once a reactive one has its key. -/
def keyedOptions (host : Host) (next : UInt32) (value : OptionValue) :
    OptionMap :=
  if host.takesKey value then
    host.options.insert OptionName.key (ElementKey.toOption ⟨next⟩)
  else host.options

/-- The pass after an option written as `name`. -/
def passAfter (host : Host) (pass : Pass) (name : String)
    (value : OptionValue) : Pass where
  nextKey := if host.takesKey value then pass.nextKey + 1 else pass.nextKey
  bindings := pass.bindings
    ++ (value.binding? name (host.keyWith pass.nextKey)).toList

-- ============================================================ the step

/-- A claim gives the key that is there, or the next one after storing it. -/
theorem claimKey_eq (host : Host) (value : Reactive) (pass : Pass) :
    host.claimKey pass
      = .ok (host.keyWith pass.nextKey,
            { host with options :=
              host.keyedOptions pass.nextKey (.reactive value) })
          { pass with nextKey :=
              if host.takesKey (.reactive value) then pass.nextKey + 1
              else pass.nextKey } := by
  unfold claimKey keyedOptions takesKey keyWith
  cases host.key? with
  | some key => rfl
  | none => rfl

/-- Settling a value is rewriting the options and putting the value where it
goes. -/
theorem settle_eq (host : Host) (name : String) (data : Json) (value : Reactive)
    (content : (OptionValue.reactive value).content? name
      = OptionName.content? name)
    (held : (OptionValue.reactive value).data? = some data)
    (final : (OptionValue.reactive value).finalName name
      = Text.lowercase name) :
    some (host.settle name data)
      = (host.content.take? name (.reactive value)).map fun content =>
      { host with
        options := host.options.rewrite name
          ((OptionValue.reactive value).attribute? name)
        content := content } := by
  unfold settle Content.take? OptionValue.attribute?
  rw [content, held]
  cases OptionName.content? name with
  | some kind => rfl
  | none =>
      rw [Option.map_some, final]
      rfl

/-- Working off a reactive option never fails. -/
theorem applyReactive_eq (host : Host) (name : String) (value : Reactive)
    (pass : Pass) :
    ∃ content, host.content.take? name (.reactive value) = some content ∧
      host.applyReactive name value pass
        = .ok { host with
            options := (host.keyedOptions pass.nextKey
              (.reactive value)).rewrite name
              ((OptionValue.reactive value).attribute? name)
            content := content }
          (host.passAfter pass name (.reactive value)) := by
  unfold applyReactive
  rw [Resolve.bind_of_ok (claimKey_eq host value pass)]
  cases value with
  | state link =>
      obtain ⟨cell, held, group⟩ := link
      cases held with
      | source code =>
          -- a listener goes nowhere, whatever its name
          have htake :
              host.content.take? name
                (.reactive (.state ⟨cell, .source code, group⟩))
              = some host.content := by
            unfold Content.take?
            cases OptionValue.content? name
              (.reactive (.state ⟨cell, .source code, group⟩)) <;> rfl
          have hattr :
              (OptionValue.reactive
                (.state ⟨cell, .source code, group⟩)).attribute? name
              = none := by
            unfold OptionValue.attribute?
            cases OptionValue.content? name
              (.reactive (.state ⟨cell, .source code, group⟩)) <;> rfl
          refine ⟨host.content, htake, ?_⟩
          rw [hattr]
          unfold passAfter OptionValue.binding?
          simp [CellValue.isSource, OptionMap.rewrite]
      -- data goes into the content or becomes the attribute, whichever its
      -- name tells
      | literal data =>
          have h := settle_eq { host with
            options := host.keyedOptions pass.nextKey
              (.reactive (.state ⟨cell, .literal data, group⟩)) } name data
            (.state ⟨cell, .literal data, group⟩) rfl rfl rfl
          obtain ⟨content, hcontent, hsettle⟩ := Option.map_eq_some_iff.1 h.symm
          refine ⟨content, hcontent, ?_⟩
          rw [hsettle]
          rfl
  | observer o =>
      have h := settle_eq { host with
        options := host.keyedOptions pass.nextKey (.reactive (.observer o)) }
        name o.firstValue (.observer o) rfl rfl rfl
      obtain ⟨content, hcontent, hsettle⟩ := Option.map_eq_some_iff.1 h.symm
      refine ⟨content, hcontent, ?_⟩
      rw [hsettle]
      rfl
  -- a reference is an attribute of its own name and never content
  | reference handle => exact ⟨host.content, rfl, rfl⟩

/-- Working off a plain option fails exactly where its content finds no
place. -/
theorem applyPlain_eq (host : Host) (name : String) (value : Json)
    (pass : Pass) :
    host.applyPlain name value pass
      = match host.content.take? name (.literal value) with
        | none => .error (.childless host.tag name) pass
        | some content =>
            .ok { host with
              options := host.options.rewrite name
                ((OptionValue.literal value).attribute? name)
              content := content } pass := by
  unfold applyPlain Content.take? OptionValue.attribute?
  rw [show (OptionValue.literal value).content? name
    = OptionName.content? name from rfl]
  cases OptionName.content? name with
  | none => rfl
  | some kind =>
      show _ = match host.content.put? kind value with
        | none => _
        | some content => _
      cases hput : host.content.put? kind value with
      | none => simp only [hput]; rfl
      | some content => simp only [hput]; rfl

/-- What working off one option does. It fails on an object that names no kind
and on content that finds no place, and leaves the pass alone then; otherwise
the element gets its key if the option is reactive, the option becomes its
attribute or content, and its binding is noted. -/
theorem applyOption_eq (host : Host) (name : String) (value : OptionValue)
    (pass : Pass) :
    host.applyOption (name, value) pass
      = if value.isUntyped then .error (.untyped host.tag name) pass
        else match host.content.take? name value with
          | none => .error (.childless host.tag name) pass
          | some content =>
              .ok { host with
                options := (host.keyedOptions pass.nextKey value).rewrite name
                  (value.attribute? name)
                content := content } (host.passAfter pass name value) := by
  cases value with
  | reactive value =>
      obtain ⟨content, hcontent, happly⟩ :=
        applyReactive_eq host name value pass
      rw [if_neg (by simp [OptionValue.isUntyped]), hcontent]
      exact happly
  | literal value =>
      have hkept : host.keyedOptions pass.nextKey (.literal value)
        = host.options := rfl
      have hpass : host.passAfter pass name (.literal value) = pass := by
        simp [passAfter, takesKey, OptionValue.isReactive, OptionValue.binding?]
      rw [hkept, hpass]
      cases value with
      | obj members => rfl
      | _ =>
          rw [if_neg (by simp [OptionValue.isUntyped])]
          exact applyPlain_eq host name _ pass

/-- What one option left behind, if working it off gave a result. -/
theorem applyOption_ok {host host' : Host} {name : String} {value : OptionValue}
    {pass pass' : Pass}
    (h : host.applyOption (name, value) pass = .ok host' pass') :
    host'.tag = host.tag
      ∧ host'.options
          = (host.keyedOptions pass.nextKey value).rewrite name
            (value.attribute? name)
      ∧ host.content.take? name value = some host'.content
      ∧ pass' = host.passAfter pass name value := by
  rw [applyOption_eq] at h
  cases huntyped : value.isUntyped with
  | true => rw [huntyped, if_pos rfl] at h; cases h
  | false =>
      rw [huntyped, if_neg Bool.false_ne_true] at h
      cases hcontent : host.content.take? name value with
      | none => rw [hcontent] at h; cases h
      | some content =>
          rw [hcontent] at h
          cases h
          exact ⟨rfl, rfl, rfl, rfl⟩

-- ======================================================== the whole run

/-- The options are worked off from the first on. -/
theorem applyOptions_cons_ok {host host' : Host} {option : String × OptionValue}
    {rest : List (String × OptionValue)} {pass pass' : Pass} :
    host.applyOptions (option :: rest) pass = .ok host' pass'
      ↔ ∃ mid midPass, host.applyOption option pass = .ok mid midPass
          ∧ mid.applyOptions rest midPass = .ok host' pass' := by
  rw [applyOptions]
  exact Resolve.bind_eq_ok

theorem applyOptions_append_ok {host host' : Host}
    {before after : List (String × OptionValue)} {pass pass' : Pass} :
    host.applyOptions (before ++ after) pass = .ok host' pass'
      ↔ ∃ mid midPass, host.applyOptions before pass = .ok mid midPass
          ∧ mid.applyOptions after midPass = .ok host' pass' := by
  induction before generalizing host pass with
  | nil =>
      constructor
      · intro h
        exact ⟨host, pass, rfl, h⟩
      · intro h
        obtain ⟨mid, midPass, hnil, h⟩ := h
        cases hnil
        exact h
  | cons option rest ih =>
      rw [List.cons_append, applyOptions_cons_ok]
      constructor
      · intro h
        obtain ⟨mid, midPass, hfirst, h⟩ := h
        obtain ⟨last, lastPass, hrest, hafter⟩ := ih.1 h
        exact ⟨last, lastPass, applyOptions_cons_ok.2
          ⟨mid, midPass, hfirst, hrest⟩, hafter⟩
      · intro h
        obtain ⟨last, lastPass, h, hafter⟩ := h
        obtain ⟨mid, midPass, hfirst, hrest⟩ := applyOptions_cons_ok.1 h
        exact ⟨mid, midPass, hfirst, ih.2 ⟨last, lastPass, hrest, hafter⟩⟩

theorem applyOptions_keeps {P : Host → Prop}
    {options : List (String × OptionValue)}
    (step : ∀ option ∈ options, ∀ (host host' : Host)
      (pass pass' : Pass), P host →
      host.applyOption option pass = .ok host' pass' → P host')
    {host host' : Host} {pass pass' : Pass}
    (h : host.applyOptions options pass = .ok host' pass') (start : P host) :
    P host' := by
  induction options generalizing host pass with
  | nil => cases h; exact start
  | cons option rest ih =>
      obtain ⟨mid, midPass, hfirst, hrest⟩ := applyOptions_cons_ok.1 h
      exact ih (fun o ho => step o (List.mem_cons_of_mem _ ho)) hrest
        (step option List.mem_cons_self _ _ _ _ start hfirst)

end Host

-- =========================================================== look-up

/-- What is found after an option has become its attribute: the attribute
under its final name, nothing under the written one, and everything else as it
was. -/
theorem OptionMap.get?_rewrite (options : OptionMap) (name k : String)
    (attribute? : Option (String × Json)) :
    OrderedMap.get? (options.rewrite name attribute?) k
      = match attribute? with
        | none => if k = name then none else options.get? k
        | some (final, data) =>
            if k = final then some (.literal data)
            else if k = name then none else options.get? k := by
  cases attribute? with
  | none => exact OrderedMap.get?_erase options name k
  | some written =>
      obtain ⟨final, data⟩ := written
      rw [OptionMap.rewrite, OrderedMap.get?_insert, OrderedMap.get?_erase]

/-- An entry is there after a rewriting because it is the attribute, or was
there under another name than the written one. -/
theorem OptionMap.of_get?_rewrite {options : OptionMap} {name k : String}
    {attribute? : Option (String × Json)} {value : OptionValue}
    (h : OrderedMap.get? (options.rewrite name attribute?) k = some value) :
    (∃ data, attribute? = some (k, data) ∧ value = .literal data)
      ∨ (k ≠ name ∧ options.get? k = some value) := by
  rw [OptionMap.get?_rewrite] at h
  cases attribute? with
  | none =>
      by_cases hname : k = name
      · simp [hname] at h
      · simp only [if_neg hname] at h
        exact Or.inr ⟨hname, h⟩
  | some attr =>
      obtain ⟨final, data⟩ := attr
      by_cases hfinal : k = final
      · simp only [if_pos hfinal, Option.some.injEq] at h
        exact Or.inl ⟨data, by rw [hfinal], h.symm⟩
      · by_cases hname : k = name
        · simp only [if_neg hfinal, if_pos hname] at h
          cases h
        · simp only [if_neg hfinal, if_neg hname] at h
          exact Or.inr ⟨hname, h⟩

/-- An entry is there once a reactive option has its key because it is that
key, or was there. -/
theorem Host.of_get?_keyedOptions {host : Host} {next : UInt32} {k : String}
    {value held : OptionValue}
    (h : (host.keyedOptions next value).get? k = some held) :
    (k = OptionName.key ∧ held = ElementKey.toOption ⟨next⟩)
      ∨ host.options.get? k = some held := by
  unfold Host.keyedOptions at h
  split at h
  · rw [OrderedMap.get?_insert] at h
    by_cases hkey : k = OptionName.key
    · rw [if_pos hkey] at h
      cases h
      exact Or.inl ⟨hkey, rfl⟩
    · rw [if_neg hkey] at h
      exact Or.inr h
  · exact Or.inr h

end Prerender
