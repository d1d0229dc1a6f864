/-
A pass can be continued.

Resolving a tree in a pass that has handed out keys and noted bindings
for other trees does what a new pass does with it, only further on: the
keys are larger by the number that had been handed out, and the bindings
come after the earlier ones. Errors are the same, and so is what they
leave behind. This is what lets the pages of one document be worked off
one after the other without looking at what came before.

Both runs go side by side. A step is matched by another if the second
does, in the pass further on, what the first does in the pass
(`Resolve.Matched`). Three rules are all that is needed of matching:
returning, failing, and steps in sequence (`Resolve.Matched.bind`). So

1. what an option does is matched by what it does further on
   (`Host.matched_applyOption`), which is where keys are compared;
2. a row of options is matched by induction
   (`Host.matched_applyOptions`);
3. resolving is matched by itself, one case for each constructor
   (`Node.matched_resolve`).

The condition that no option is named `key` is needed in the first of
these alone: a written key is no key that was handed out, and does not
move on.

Nothing keeps count of how often the counter of keys goes round. Keys
further on are keys modulo its size, and the statement holds for every
number that a pass can have handed out.
-/
import Prerender.Proofs.Resolve.Numbering

namespace Prerender

-- ===================================================== values in place

namespace OrderedMap

variable {α : Type}

/-- The map with every value changed in its place. -/
def mapValues (f : String → α → α) (m : OrderedMap α) : OrderedMap α where
  entries := m.entries.map fun entry => (entry.1, f entry.1 entry.2)
  distinct := by
    rw [List.map_map]
    exact m.distinct

variable {f : String → α → α} {m : OrderedMap α}

/-- The value under a name is changed too. -/
theorem get?_mapValues (name : String) :
    (m.mapValues f).get? name = (m.get? name).map (f name) := by
  show (m.entries.map _).lookup name = (m.entries.lookup name).map _
  induction m.entries with
  | nil => rfl
  | cons head rest ih =>
      obtain ⟨k, v⟩ := head
      rw [List.map_cons, lookup_cons_ite, lookup_cons_ite, ih]
      by_cases h : name = k <;> simp [h]

/-- A value that is put in is changed as one under its name. -/
theorem mapValues_insert (name : String) (value : α) :
    (m.insert name value).mapValues f
      = (m.mapValues f).insert name (f name value) := by
  apply eq_of_entries
  show (put name value m.entries).map _
    = put name (f name value) (m.entries.map _)
  induction m.entries with
  | nil => rfl
  | cons head rest ih =>
      obtain ⟨k, v⟩ := head
      rw [put, List.map_cons, put]
      by_cases h : k = name
      · subst h
        simp
      · rw [if_neg h, if_neg h, List.map_cons, ih]

/-- Taking an entry away goes well with changing values. -/
theorem mapValues_erase (name : String) :
    (m.erase name).mapValues f = (m.mapValues f).erase name := by
  apply eq_of_entries
  show (m.entries.filter _).map _ = (m.entries.map _).filter _
  rw [List.filter_map]
  rfl

/-- If no value changes, neither does the map. -/
theorem mapValues_eq_self
    (h : ∀ entry ∈ m.entries, f entry.1 entry.2 = entry.2) :
    m.mapValues f = m := by
  apply eq_of_entries
  show m.entries.map _ = m.entries
  refine (List.map_congr_left ?_).trans (List.map_id _)
  intro entry hmem
  rw [h entry hmem]
  rfl

end OrderedMap

-- ========================================================== further on

/-- The key that comes `n` keys later. -/
def ElementKey.shift (n : UInt32) (key : ElementKey) : ElementKey :=
  ⟨n + key.number⟩

/-- The binding under the key that comes `n` keys later. -/
def Binding.shift (n : UInt32) (binding : Binding) : Binding :=
  { binding with key := binding.key.shift n }

/-- The pass that has handed out `n` keys and noted the given bindings
before. -/
def Pass.shift (n : UInt32) (earlier : List Binding) (pass : Pass) : Pass :=
  ⟨n + pass.nextKey, earlier ++ pass.bindings.map (Binding.shift n)⟩

/-- The option value with the key that it reads as moved on; any other value
stays. -/
def OptionValue.shiftKey (n : UInt32) (value : OptionValue) : OptionValue :=
  match ElementKey.ofOption? value with
  | some key => (key.shift n).toOption
  | none => value

/-- The options with the key among them moved on. -/
def OptionMap.shiftKey (n : UInt32) (options : OptionMap) : OptionMap :=
  options.mapValues fun name value =>
    if name = OptionName.key then value.shiftKey n else value

mutual

/-- The tree with the key of every element outside fragments moved on. -/
def Node.shiftKeys (n : UInt32) : Node → Node
  | .text s => .text s
  | .markup s => .markup s
  | .number d => .number d
  | .bool b => .bool b
  | .fragment items => .fragment items
  | .element e => .element (e.shiftKeys n)

/-- The element with its key and those of its children moved on. -/
def Element.shiftKeys (n : UInt32) : Element → Element
  | ⟨tag, .child node, children⟩ =>
      ⟨tag, .child node, Node.shiftChildren n children⟩
  | ⟨tag, .options map, children⟩ =>
      ⟨tag, .options (map.shiftKey n), Node.shiftChildren n children⟩

/-- The children with their keys moved on, if there is a list of them. -/
def Node.shiftChildren (n : UInt32) : Option (List Node) → Option (List Node)
  | none => none
  | some children => some (Node.shiftAll n children)

/-- The nodes of a list with their keys moved on. -/
def Node.shiftAll (n : UInt32) : List Node → List Node
  | [] => []
  | node :: rest => node.shiftKeys n :: Node.shiftAll n rest

end

/-- In a row each node has its keys moved on. -/
theorem Node.shiftAll_eq_map (n : UInt32) (row : List Node) :
    Node.shiftAll n row = row.map (Node.shiftKeys n) := by
  induction row with
  | nil => rfl
  | cons node rest ih => rw [Node.shiftAll, ih, List.map_cons]

-- ================================================== options further on

namespace OptionValue

/-- A value moved on reads as the key moved on. -/
theorem ofOption?_shiftKey (n : UInt32) (value : OptionValue) :
    ElementKey.ofOption? (value.shiftKey n)
      = (ElementKey.ofOption? value).map (ElementKey.shift n) := by
  unfold shiftKey
  cases h : ElementKey.ofOption? value with
  | none => exact h
  | some key => exact ElementKey.ofOption?_toOption _

/-- A key written as a value is moved on as a key. -/
theorem shiftKey_toOption (n : UInt32) (key : ElementKey) :
    key.toOption.shiftKey n = (key.shift n).toOption := by
  rw [shiftKey, ElementKey.ofOption?_toOption]

/-- The binding is noted under the key moved on. -/
theorem binding?_shift (n : UInt32) (name : String) (key : ElementKey)
    (value : OptionValue) :
    value.binding? name (key.shift n)
      = (value.binding? name key).map (Binding.shift n) := by
  cases value with
  | literal data => rfl
  | reactive value =>
      cases value with
      | state link =>
          obtain ⟨cell, held, group⟩ := link
          cases held <;> rfl
      | observer o => rfl
      | reference handle => rfl

end OptionValue

namespace OptionMap

variable {options : OptionMap} {n : UInt32}

theorem get?_shiftKey :
    (options.shiftKey n).get? OptionName.key
      = (options.get? OptionName.key).map (OptionValue.shiftKey n) := by
  unfold shiftKey
  rw [OrderedMap.get?_mapValues]
  simp

/-- An attribute that is not named `key` is written alike further on. -/
theorem rewrite_shiftKey {name : String} {attribute? : Option (String × Json)}
    (apart : ∀ data, attribute? ≠ some (OptionName.key, data)) :
    (options.shiftKey n).rewrite name attribute?
      = (options.rewrite name attribute?).shiftKey n := by
  unfold shiftKey
  cases attribute? with
  | none => exact (OrderedMap.mapValues_erase name).symm
  | some attr =>
      obtain ⟨final, data⟩ := attr
      have hfinal : final ≠ OptionName.key := fun h => apart data (by rw [h])
      rw [rewrite, rewrite, OrderedMap.mapValues_insert,
        OrderedMap.mapValues_erase, if_neg hfinal]

/-- Options without `key` stay as they are. -/
theorem shiftKey_eq_self
    (avoids : ∀ option ∈ options.entries, option.1 ≠ OptionName.key) :
    options.shiftKey n = options :=
  OrderedMap.mapValues_eq_self fun option hmem => if_neg (avoids option hmem)

end OptionMap

/-- The element being worked off with its key moved on. -/
def Host.shift (n : UInt32) (host : Host) : Host :=
  { host with options := host.options.shiftKey n }

namespace Host

variable (host : Host) (n : UInt32)

/-- The key of an element is moved on with its options. -/
theorem key?_shift :
    (host.shift n).key? = host.key?.map (ElementKey.shift n) := by
  unfold key?
  rw [show (host.shift n).options = host.options.shiftKey n from rfl,
    OptionMap.get?_shiftKey]
  cases host.options.get? OptionName.key with
  | none => rfl
  | some value => exact OptionValue.ofOption?_shiftKey n value

/-- Further on a new key is taken when it would have been taken. -/
theorem takesKey_shift (value : OptionValue) :
    (host.shift n).takesKey value = host.takesKey value := by
  rw [takesKey, takesKey, key?_shift, Option.isNone_map]

theorem keyWith_shift (next : UInt32) :
    (host.shift n).keyWith (n + next) = (host.keyWith next).shift n := by
  rw [keyWith, keyWith, key?_shift]
  cases host.key? <;> rfl

theorem keyedOptions_shift (next : UInt32) (value : OptionValue) :
    (host.shift n).keyedOptions (n + next) value
      = (host.keyedOptions next value).shiftKey n := by
  unfold keyedOptions
  rw [takesKey_shift]
  cases host.takesKey value with
  | false => rfl
  | true =>
      rw [if_pos rfl, if_pos rfl, OptionMap.shiftKey,
        OrderedMap.mapValues_insert, if_pos rfl, OptionValue.shiftKey_toOption]
      rfl

/-- The pass after an option is further on by as much as the pass before it.
-/
theorem passAfter_shift (earlier : List Binding) (pass : Pass) (name : String)
    (value : OptionValue) :
    (host.shift n).passAfter (pass.shift n earlier) name value
      = (host.passAfter pass name value).shift n earlier := by
  unfold passAfter
  rw [takesKey_shift]
  show Pass.mk _ _ = Pass.mk _ _
  rw [show (pass.shift n earlier).nextKey = n + pass.nextKey from rfl,
    keyWith_shift, OptionValue.binding?_shift, List.map_append,
    ← List.append_assoc]
  -- the counter, then the bindings
  congr 1
  · split
    · exact UInt32.add_assoc n pass.nextKey 1
    · rfl
  · cases value.binding? name (host.keyWith pass.nextKey) <;> rfl

end Host

-- ======================================================= matching steps

/-- What a step comes to, with its result moved as given and its pass further
on. -/
def Resolve.outcomeShift {α : Type} (n : UInt32) (earlier : List Binding)
    (move : α → α) :
    EStateM.Result OptionError Pass α → EStateM.Result OptionError Pass α
  | .ok a pass => .ok (move a) (pass.shift n earlier)
  | .error e pass => .error e (pass.shift n earlier)

/-- Whether one step is matched by another: in a pass that is further on, the
second comes to what the first comes to in the pass. -/
def Resolve.Matched {α : Type} (n : UInt32) (earlier : List Binding)
    (move : α → α) (x y : Resolve α) : Prop :=
  ∀ pass, y (pass.shift n earlier) = outcomeShift n earlier move (x pass)

namespace Resolve.Matched

variable {α β : Type} {n : UInt32} {earlier : List Binding}

/-- Results are matched by results moved on. -/
theorem pure {move : α → α} {a b : α} (h : move a = b) :
    Matched n earlier move (Pure.pure a : Resolve α) (Pure.pure b) := by
  subst h
  exact fun _ => rfl

theorem throw {move : α → α} (e : OptionError) :
    Matched n earlier move (MonadExcept.throw e : Resolve α)
      (MonadExcept.throw e) :=
  fun _ => rfl

/-- Sequences are matched if their first steps are and, after a result of
these, what follows. -/
theorem bind {move : α → α} {move' : β → β} {x y : Resolve α}
    {f g : α → Resolve β} (first : Matched n earlier move x y)
    (next : ∀ a pass mid, x pass = .ok a mid →
      Matched n earlier move' (f a) (g (move a))) :
    Matched n earlier move' (x >>= f) (y >>= g) := by
  intro pass
  have hfirst := first pass
  cases hx : x pass with
  | ok a mid =>
      rw [hx] at hfirst
      rw [Resolve.bind_of_ok hx, Resolve.bind_of_ok hfirst]
      exact next a pass mid hx mid
  | error e mid =>
      rw [hx] at hfirst
      rw [Resolve.bind_eq_error.2 (Or.inl hx),
        Resolve.bind_eq_error.2 (Or.inl hfirst)]
      rfl

end Resolve.Matched

namespace Host

variable {n : UInt32} {earlier : List Binding}

/-- An option that is not named `key` does the same further on. -/
theorem matched_applyOption {name : String}
    (avoids : Text.lowercase name ≠ OptionName.key)
    (value : OptionValue) (host : Host) :
    Resolve.Matched n earlier (shift n) (host.applyOption (name, value))
      ((host.shift n).applyOption (name, value)) := by
  have hattr : ∀ data, value.attribute? name ≠ some (OptionName.key, data) :=
    fun data h => OptionValue.not_touchesKey avoids (Or.inr ⟨data, h⟩)
  intro pass
  rw [applyOption_eq, applyOption_eq]
  cases value.isUntyped with
  | true => rfl
  | false =>
      rw [if_neg Bool.false_ne_true, if_neg Bool.false_ne_true,
        show (host.shift n).content = host.content from rfl]
      cases host.content.take? name value with
      | none => rfl
      | some content =>
          rw [passAfter_shift,
            show (pass.shift n earlier).nextKey = n + pass.nextKey from rfl,
            keyedOptions_shift, OptionMap.rewrite_shiftKey hattr]
          rfl

theorem matched_applyOptions {options : List (String × OptionValue)}
    (avoids : ∀ option ∈ options, Text.lowercase option.1 ≠ OptionName.key)
    (host : Host) :
    Resolve.Matched n earlier (shift n) (host.applyOptions options)
      ((host.shift n).applyOptions options) := by
  induction options generalizing host with
  | nil => exact .pure rfl
  | cons option rest ih =>
      obtain ⟨hfirst, hrest⟩ := List.forall_mem_cons.1 avoids
      exact (matched_applyOption hfirst option.2 host).bind fun mid _ _ _ =>
        ih hrest mid

end Host

-- ============================================================ whole trees

theorem Node.shiftKeys_ofJson (n : UInt32) (data : Json) :
    (Node.ofJson data).shiftKeys n = Node.ofJson data := by
  cases data <;> rfl

theorem Node.shiftKeys_ofMarkup (n : UInt32) (data : Json) :
    (Node.ofMarkup data).shiftKeys n = Node.ofMarkup data := by
  cases data <;> rfl

/-- A row of nodes without keys stays as it is. -/
theorem Node.shiftAll_eq_self {n : UInt32} {row : List Node}
    (h : ∀ node ∈ row, node.shiftKeys n = node) :
    Node.shiftAll n row = row := by
  rw [Node.shiftAll_eq_map]
  exact (List.map_congr_left h).trans (List.map_id' row)

/-- Rows are moved on one after the other. -/
theorem Node.shiftAll_append (n : UInt32) (front back : List Node) :
    Node.shiftAll n (front ++ back) = Node.shiftAll n front
      ++ Node.shiftAll n back := by
  rw [Node.shiftAll_eq_map, Node.shiftAll_eq_map, Node.shiftAll_eq_map,
    List.map_append]

section

variable {n : UInt32} {earlier : List Binding}

mutual

/-- Resolving a tree without options named `key` is matched by resolving it
further on. -/
theorem Node.matched_resolve : ∀ node : Node,
    (∀ e ∈ node.elements, e.AvoidsKey) →
    Resolve.Matched n earlier (Node.shiftKeys n) node.resolve node.resolve
  | .text _, _ | .markup _, _ | .number _, _ | .bool _, _
  | .fragment _, _ => .pure rfl
  | .element e, avoids => by
      rw [Node.elements] at avoids
      rw [Node.resolve]
      exact (e.matched_resolve avoids).bind fun _ _ _ _ => .pure rfl

/-- So is resolving an element: its options first, then its children, if they
are kept. -/
theorem Element.matched_resolve : ∀ e : Element,
    (∀ o ∈ e.elements, o.AvoidsKey) →
    Resolve.Matched n earlier (Element.shiftKeys n) e.resolve e.resolve
  | ⟨tag, .child node, children⟩, avoids => by
      rw [Element.elements, Slot.elements] at avoids
      obtain ⟨hnode, hchildren⟩ :=
        List.forall_mem_append.1 (List.forall_mem_cons.1 avoids).2
      rw [Element.resolve]
      -- only a child that may stand in the place of options is taken for one
      cases node.isMisplaced with
      | false => exact .throw _
      | true =>
          refine (node.matched_resolve hnode).bind fun first _ _ _ => ?_
          exact (Node.matched_resolveChildren children hchildren).bind
            fun rest _ _ _ => .pure rfl
  | ⟨tag, .options map, children⟩, avoids => by
      rw [Element.elements, Slot.elements, List.nil_append] at avoids
      obtain ⟨hself, hchildren⟩ := List.forall_mem_cons.1 avoids
      -- without a written key the options to start from are the same
      have hstart : Host.shift n ⟨tag, map, .ofChildren children⟩
          = ⟨tag, map, .ofChildren children⟩ := by
        unfold Host.shift
        rw [OptionMap.shiftKey_eq_self]
        intro option hmem heq
        exact hself option hmem (by rw [heq, OptionName.lowercase_key])
      have hoptions : Resolve.Matched n earlier (Host.shift n)
          (Host.applyOptions ⟨tag, map, .ofChildren children⟩ map.entries)
          (Host.applyOptions (Host.shift n ⟨tag, map, .ofChildren children⟩)
            map.entries) :=
        Host.matched_applyOptions hself _
      rw [hstart] at hoptions
      rw [Element.resolve]
      refine hoptions.bind fun host pass mid hrun => ?_
      -- what options put in front of the children holds no key
      have hlead : Node.shiftAll n host.content.lead = host.content.lead :=
        Node.shiftAll_eq_self
          (Host.applyOptions_lead (Node.shiftKeys_ofJson n)
            (Node.shiftKeys_ofMarkup n) hrun)
      rw [show (host.shift n).content = host.content from rfl]
      cases hcontent : host.content with
      | absent => exact .pure rfl
      | list lead keeps =>
          rw [hcontent] at hlead
          cases keeps with
          -- the children are not resolved, so what the options put in is all
          | false =>
              refine .pure ?_
              rw [Element.shiftKeys, Node.shiftChildren,
                show Node.shiftAll n lead = lead from hlead]
              rfl
          | true =>
              refine (Node.matched_resolveChildren children hchildren).bind
                fun rest _ _ _ => ?_
              refine .pure ?_
              rw [Element.shiftKeys, Node.shiftChildren, Node.shiftAll_append,
                show Node.shiftAll n lead = lead from hlead]
              rfl

/-- And resolving a list of children, if there is one. -/
theorem Node.matched_resolveChildren : ∀ children : Option (List Node),
    (∀ e ∈ Node.childElements children, e.AvoidsKey) →
      Resolve.Matched n earlier (Node.shiftAll n)
        (Node.resolveChildren children) (Node.resolveChildren children)
  | none, _ => .pure rfl
  | some children, avoids => by
      rw [Node.childElements] at avoids
      rw [Node.resolveChildren]
      exact Node.matched_resolveAll children avoids

theorem Node.matched_resolveAll : ∀ row : List Node,
    (∀ e ∈ Node.rowElements row, e.AvoidsKey) →
      Resolve.Matched n earlier (Node.shiftAll n) (Node.resolveAll row)
        (Node.resolveAll row)
  | [], _ => .pure rfl
  | node :: rest, avoids => by
      rw [Node.rowElements, List.forall_mem_append] at avoids
      rw [Node.resolveAll]
      refine (node.matched_resolve avoids.1).bind fun first _ _ _ => ?_
      exact (Node.matched_resolveAll rest avoids.2).bind
        fun others _ _ _ => .pure rfl

end

end

/-- Where no option of a tree is named `key`, resolving it in a pass that has
handed out `n` keys and noted bindings before gives what a new pass gives, the
same error or the same tree but for the keys, which come `n` later. Either way
the counter comes `n` later, and the bindings that a new pass would hold
follow the earlier ones under keys that come `n` later. -/
theorem Node.resolve_continues {node : Node}
    (avoids : ∀ e ∈ node.elements, e.AvoidsKey)
    (n : UInt32) (earlier : List Binding) :
    match node.resolve .fresh with
    | .ok out pass => node.resolve ⟨n, earlier⟩
        = .ok (out.shiftKeys n)
            ⟨n + pass.nextKey, earlier ++ pass.bindings.map (Binding.shift n)⟩
    | .error e pass => node.resolve ⟨n, earlier⟩
        = .error e ⟨n + pass.nextKey, earlier
          ++ pass.bindings.map (Binding.shift n)⟩ := by
  have hmatched : node.resolve (Pass.fresh.shift n earlier)
      = Resolve.outcomeShift n earlier (Node.shiftKeys n)
        (node.resolve .fresh) :=
    node.matched_resolve avoids .fresh
  have hstart : Pass.fresh.shift n earlier = ⟨n, earlier⟩ := by
    show Pass.mk (n + 0) (earlier ++ []) = _
    rw [UInt32.add_zero, List.append_nil]
  rw [hstart] at hmatched
  cases hrun : node.resolve .fresh with
  | ok out pass =>
      rw [hrun] at hmatched
      exact hmatched
  | error e pass =>
      rw [hrun] at hmatched
      exact hmatched

/-- The list of entries is resolved in a pass that has handed out four keys
and noted a binding. Its own four bindings follow, the last of them under the
key 6. -/
theorem Node.sampleList_continues : ∃ out pass,
    Node.sampleList.resolve .fresh = .ok out pass
      ∧ Node.sampleList.resolve ⟨4, [⟨⟨3⟩, "ref", .reference ⟨.null⟩⟩]⟩
        = .ok (out.shiftKeys 4) ⟨4 + pass.nextKey,
            [⟨⟨3⟩, "ref", .reference ⟨.null⟩⟩] ++ pass.bindings.map
            (Binding.shift 4)⟩ := by
  have avoids : ∀ e ∈ Node.sampleList.elements, e.AvoidsKey := by decide
  have resolves : Node.sampleList.resolve .fresh = .ok _ _ := rfl
  have h := Node.resolve_continues avoids 4 [⟨⟨3⟩, "ref", .reference ⟨.null⟩⟩]
  rw [resolves] at h
  exact ⟨_, _, resolves, h⟩

end Prerender
