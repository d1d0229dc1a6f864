/-
Reactive options that are worked off by themselves.

Besides normalizing whole options there is a call that works off one
reactive option of an element: it sees to the key, notes the binding and
writes the attribute. Calls can be made in any number and order, on an
element with whatever it has under `key`, and on one whose options are
not there at all because a child stands in their place.

The first call settles the key: it is the one that the options hold, or
the next new one. From then on the options hold it (`Element.HoldsKey`).
A call whose name does not stand for the key neither changes nor
replaces it (`OptionMap.get?_key_rewrite`), so the invariant carries
through calls in any number, by induction on the calls
(`Element.HoldsKey.classifyEach`).

The statement for all calls is then the first call followed by the rest.
It says of the counter that it moves by one at most, of the bindings
that they are those of the calls in order and all under one key, and of
the element that it holds this key after each of the calls.
-/
import Prerender.Proofs.Resolve.Numbering

namespace Prerender

/-- The entry of the key is left alone by an option that is not named so. -/
theorem OptionMap.get?_key_rewrite {name : String} (value : OptionValue)
    (options : OptionMap) (avoids : Text.lowercase name ≠ OptionName.key) :
    (options.rewrite name (value.attribute? name)).get? OptionName.key
      = options.get? OptionName.key := by
  have hentry := KeyCourse.entryAfter_of_untouched (options.get? OptionName.key)
    (OptionValue.not_touchesKey avoids : ¬ value.TouchesKey name)
  rw [OptionMap.get?_rewrite]
  conv_rhs => rw [← hentry]
  cases value.attribute? name <;> rfl

namespace Element

/-- Whether the options of the element hold data that reads as the key. -/
def HoldsKey (e : Element) (key : ElementKey) : Prop :=
  ∃ map data, e.slot = .options map
    ∧ map.get? OptionName.key = some (.literal data)
    ∧ ElementKey.ofOption? (.literal data) = some key

/-- The key that the options hold is the key of the element. -/
theorem HoldsKey.key? {e : Element} {key : ElementKey} (h : e.HoldsKey key) :
    e.key? = some key := by
  obtain ⟨map, data, hslot, hentry, hread⟩ := h
  rw [Element.key?, keyOption?, hslot, Slot.optionsOrEmpty, hentry]
  exact hread

-- ============================================================== one call

/-- Once a reactive option has its key, what the options hold reads as this
key. -/
theorem exists_get?_keyedOptions (e : Element) (next : UInt32)
    (value : Reactive) :
    ∃ data, ((Host.ofElement e).keyedOptions next (.reactive value)).get?
      OptionName.key
        = some (.literal data)
      ∧ ElementKey.ofOption? (.literal data) = some (e.keyAt next) := by
  unfold Host.keyedOptions
  rw [show (Host.ofElement e).takesKey (.reactive value) = e.key?.isNone
    from Bool.true_and _]
  -- a new key is put in and read back; one that was there is left as it was
  -- written
  cases hkey : e.key? with
  | none =>
      rw [Option.isNone_none, if_pos rfl, OrderedMap.get?_insert, if_pos rfl,
        keyAt, hkey]
      exact ⟨_, rfl, ElementKey.ofOption?_toOption _⟩
  | some key =>
      rw [Option.isNone_some, if_neg Bool.false_ne_true, keyAt, hkey]
      obtain ⟨held, hheld, hread⟩ := Option.bind_eq_some_iff.1 hkey
      cases held with
      | literal data => exact ⟨data, hheld, hread⟩
      | reactive value => cases hread

/-- A call gives a result, after which the options hold the key. It takes a
new one only if they held none, and notes what it notes under it. -/
theorem classify_ok (e : Element) (pass : Pass) {name : String}
    (value : Reactive) (avoids : Text.lowercase name ≠ OptionName.key) :
    ∃ o, e.classify name (.reactive value) pass
        = .ok o
          { nextKey := if e.key?.isNone then pass.nextKey + 1 else pass.nextKey
            bindings := pass.bindings
              ++ ((OptionValue.reactive value).binding? name
                (e.keyAt pass.nextKey)).toList }
      ∧ o.HoldsKey (e.keyAt pass.nextKey) := by
  obtain ⟨content, -, happly⟩ :=
    Host.applyReactive_eq (.ofElement e) name value pass
  obtain ⟨data, hentry, hread⟩ := e.exists_get?_keyedOptions pass.nextKey value
  refine ⟨_, (Resolve.bind_of_ok happly).trans rfl, _, data, rfl, ?_, hread⟩
  exact (OptionMap.get?_key_rewrite _ _ avoids).trans hentry

-- ============================================================ many calls

/-- Works off reactive options of the element one call after the other; gives
the element after each of them. -/
def classifyEach (e : Element) :
    List (String × Reactive) → Resolve (List Element)
  | [] => return []
  | (name, value) :: rest => do
      let e ← e.classify name (.reactive value)
      return e :: (← e.classifyEach rest)

/-- The bindings that calls leave on an element with the given key. -/
def bindingsOf (key : ElementKey) (calls : List (String × Reactive)) :
    List Binding :=
  calls.filterMap fun (name, value) =>
    (OptionValue.reactive value).binding? name key

/-- The bindings of the first call come first. -/
theorem bindingsOf_cons (key : ElementKey) (name : String) (value : Reactive)
    (rest : List (String × Reactive)) : bindingsOf key ((name, value) :: rest)
      = ((OptionValue.reactive value).binding? name key).toList
        ++ bindingsOf key rest := by
  cases hbinding : (OptionValue.reactive value).binding? name key with
  | none => exact List.filterMap_cons_none hbinding
  | some binding => exact List.filterMap_cons_some hbinding

theorem key_of_mem_bindingsOf {key : ElementKey}
    {calls : List (String × Reactive)} {binding : Binding}
    (h : binding ∈ bindingsOf key calls) : binding.key = key := by
  obtain ⟨⟨name, value⟩, -, hbinding⟩ := List.mem_filterMap.1 h
  exact OptionValue.key_of_binding? hbinding

/-- While the options hold a key, calls note under it, and take no other. -/
theorem HoldsKey.classifyEach {e : Element} {key : ElementKey}
    (holds : e.HoldsKey key) (pass : Pass) {calls : List (String × Reactive)}
    (avoids : ∀ call ∈ calls, Text.lowercase call.1 ≠ OptionName.key) :
    ∃ after, e.classifyEach calls pass
        = .ok after { pass with bindings :=
          pass.bindings ++ bindingsOf key calls }
      ∧ after.length = calls.length ∧ ∀ o ∈ after, o.HoldsKey key := by
  induction calls generalizing e pass with
  | nil => exact ⟨[], by
      rw [bindingsOf, List.filterMap_nil, List.append_nil]; rfl, rfl, nofun⟩
  | cons call rest ih =>
      obtain ⟨name, value⟩ := call
      obtain ⟨hname, hrest⟩ := List.forall_mem_cons.1 avoids
      obtain ⟨o, hcall, ho⟩ := e.classify_ok pass value hname
      have hkey : e.keyAt pass.nextKey = key := by
        rw [keyAt, holds.key?, Option.getD_some]
      rw [hkey] at hcall ho
      rw [holds.key?, Option.isNone_some, if_neg Bool.false_ne_true] at hcall
      obtain ⟨after, hafter, hlength, hholds⟩ := ih ho _ hrest
      refine ⟨o :: after, ?_, congrArg (· + 1) hlength, List.forall_mem_cons.2
        ⟨ho, hholds⟩⟩
      rw [Element.classifyEach, Resolve.bind_of_ok hcall,
        Resolve.bind_of_ok hafter, bindingsOf_cons, ← List.append_assoc]
      rfl

/-- Working off reactive options by calls, as many as there are, never fails,
and one key serves for all: the one that the options of the element hold, or
else the next new one, which the first call takes. After each call the options
hold it, and all bindings are noted under it, in the order of the calls. -/
theorem classifyEach_shares_key (e : Element) (pass : Pass)
    {calls : List (String × Reactive)}
    (avoids : ∀ call ∈ calls, Text.lowercase call.1 ≠ OptionName.key) :
    ∃ after new, e.classifyEach calls pass
        = .ok after
          { nextKey :=
            if !calls.isEmpty && e.key?.isNone then pass.nextKey + 1
            else pass.nextKey
            bindings := pass.bindings ++ new }
      ∧ after.length = calls.length
      ∧ (∀ o ∈ after, o.HoldsKey (e.keyAt pass.nextKey))
      ∧ new = bindingsOf (e.keyAt pass.nextKey) calls
      ∧ ∀ binding ∈ new, binding.key = e.keyAt pass.nextKey := by
  cases calls with
  | nil => exact ⟨[], [], by rw [List.append_nil]; rfl, rfl, nofun, rfl, nofun⟩
  | cons call rest =>
      obtain ⟨name, value⟩ := call
      obtain ⟨hname, hrest⟩ := List.forall_mem_cons.1 avoids
      obtain ⟨o, hcall, ho⟩ := e.classify_ok pass value hname
      obtain ⟨after, hafter, hlength, hholds⟩ := ho.classifyEach _ hrest
      refine ⟨o :: after, _, ?_, congrArg (· + 1) hlength,
        List.forall_mem_cons.2 ⟨ho, hholds⟩, rfl, fun _ =>
        key_of_mem_bindingsOf⟩
      rw [classifyEach, Resolve.bind_of_ok hcall, Resolve.bind_of_ok hafter,
        bindingsOf_cons, ← List.append_assoc]
      rfl

/-- An element with a child in the place of its options. -/
def sampleMisplaced : Element := ⟨"p", .child (.text "a"), some []⟩

/-- A listener, twice under one name, an observer of content and a reference. -/
def sampleCalls : List (String × Reactive) :=
  let tap : Reactive := .state ⟨⟨1⟩, .source "() => 0", none⟩
  [("onClick", tap), ("onClick", tap),
    ("innerHTML", .observer ⟨⟨"() => 1", fun _ => .int 1⟩, [], []⟩),
    ("self", .reference ⟨.bool true⟩)]

/-- With 7 as the next key, the four calls take that one, two of them without
a binding. -/
theorem sampleCalls_share_key :
    (∀ call ∈ sampleCalls, Text.lowercase call.1 ≠ OptionName.key)
      ∧ ∃ after pass', sampleMisplaced.classifyEach sampleCalls
        ⟨7, []⟩ = .ok after pass'
        ∧ after.length = 4 ∧ (∀ o ∈ after, o.HoldsKey ⟨7⟩) ∧ pass'.nextKey = 8
        ∧ pass'.bindings.map
          (fun binding => (binding.key, binding.attributeName))
          = [(⟨7⟩, "innerHTML"), (⟨7⟩, "ref")] := by
  have avoids : ∀ call ∈ sampleCalls,
    Text.lowercase call.1 ≠ OptionName.key := by decide
  obtain ⟨after, new, hrun, hlength, hholds, rfl, -⟩ :=
    sampleMisplaced.classifyEach_shares_key ⟨7, []⟩ avoids
  exact ⟨avoids, after, _, hrun, hlength, hholds, rfl, rfl⟩

end Element
end Prerender
