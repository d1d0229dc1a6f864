/-
What resolving arrives at.

The options of a resolved element are plain data under names that stand
for no content, whatever options were rewritten into each other's place
on the way: an entry of the finished map is a key that was handed out or
what some option became, since every option that was there at the start
has been taken out by its own turn. This is one induction over the
options, for any property of entries (`Host.applyOptions_entries`), and
its two uses are the normal form (`Element.WorkedOff.isResolved`) and
names in kebab case (`Element.WorkedOff.kebab`).

Resolving such a tree again changes nothing, provided that kebab case
leaves the names alone, as it does in ASCII, and that no value is an
object. Each option is then taken out and put back behind the others
(`Host.applyOption_still`), so a row of them changes places with what
stands behind it, and once all have had their turn they stand as before
(`Host.applyOptions_entries_still`). The order of the options is part of
what stays, and so is the pass: nothing is noted and no key is taken.

Both provisions are needed. Beyond ASCII a name in small letters need not
be its own kebab form, and an object that names no kind cannot be
resolved at all.
-/
import Prerender.Proofs.Resolve.Walk

namespace Prerender

-- ==================================================== what options become

namespace OptionValue

/-- Whether an option is resolved: plain data under a name that stands for no
content. -/
def IsResolved (name : String) (value : OptionValue) : Prop :=
  (∃ data, value = .literal data) ∧ OptionName.content? name = none

/-- An option that stands for no content does not end under a name that does. -/
theorem content?_finalName {name : String} {value : OptionValue}
    (h : value.content? name = none) :
    OptionName.content? (value.finalName name) = none := by
  cases value with
  | literal data => exact OptionName.content?_kebab h
  | reactive value =>
      cases value with
      | state link => exact OptionName.content?_lowercase h
      | observer o => exact OptionName.content?_lowercase h
      | reference handle => exact OptionName.content?_reference

/-- Kebab case leaves the final name of an option written in ASCII alone. -/
theorem kebab_finalName {name : String} (ascii : Text.IsAscii name)
    (value : OptionValue) :
    OptionName.kebab (value.finalName name) = value.finalName name := by
  cases value with
  | literal data => exact OptionName.kebab_kebab ascii
  | reactive value =>
      cases value with
      | state link => exact OptionName.kebab_lowercase ascii
      | observer o => exact OptionName.kebab_lowercase ascii
      | reference handle => exact OptionName.kebab_reference

end OptionValue

namespace Host

variable {host host' : Host} {options : List (String × OptionValue)}
  {pass pass' : Pass}

/-- Whatever is so of the keys that are handed out and of what the options
become is so of all entries in the end, if every entry at the start is an
option that is still to be worked off. -/
theorem applyOptions_entries {q : String → OptionValue → Prop}
    (claimed : ∀ key : ElementKey, q OptionName.key key.toOption)
    (made : ∀ option ∈ options, ∀ final data,
      option.2.attribute? option.1 = some (final, data) →
      q final (.literal data))
    (start : ∀ name value, host.options.get? name = some value →
      q name value ∨ (name, value) ∈ options)
    (h : host.applyOptions options pass = .ok host' pass') :
    ∀ name value, host'.options.get? name = some value → q name value := by
  induction options generalizing host pass with
  | nil =>
      cases h
      intro name value hget
      rcases start name value hget with hq | hmem
      · exact hq
      · cases hmem
  | cons option rest ih =>
      obtain ⟨written, old⟩ := option
      obtain ⟨mid, midPass, hfirst, hrest⟩ := applyOptions_cons_ok.1 h
      refine ih (fun o ho => made o (List.mem_cons_of_mem _ ho)) ?_ hrest
      intro name value hget
      rw [(applyOption_ok hfirst).2.1] at hget
      rcases OptionMap.of_get?_rewrite hget with
        ⟨data, hattr, rfl⟩ | ⟨hne, hget⟩
      · exact Or.inl (made (written, old) List.mem_cons_self _ _ hattr)
      · rcases of_get?_keyedOptions hget with ⟨rfl, rfl⟩ | hget
        · exact Or.inl (claimed _)
        · rcases start name value hget with hq | hmem
          · exact Or.inl hq
          · -- the option itself has been taken out, so this is a later one
            rcases List.mem_cons.1 hmem with heq | hmem
            · cases heq
              exact absurd rfl hne
            · exact Or.inr hmem

end Host

-- =================================================== options left alone

/-- Whether working off an option changes nothing but its place: plain data
that is no object, under a name that stands for no content and that kebab case
leaves alone. -/
structure OptionValue.IsStill (name : String) (value : OptionValue) : Prop where
  resolved : value.IsResolved name
  typed : value.isUntyped = false
  kebab : OptionName.kebab name = name

/-- A still option is taken out and put back behind the others. -/
theorem Host.applyOption_still {host : Host} {name : String}
    {value : OptionValue} {pass : Pass} (still : value.IsStill name) :
    host.applyOption (name, value) pass
      = .ok { host with options :=
        (host.options.erase name).insert name value } pass := by
  obtain ⟨⟨⟨data, rfl⟩, hcontent⟩, htyped, hkebab⟩ := still
  have hattr : (OptionValue.literal data).attribute? name = some (name, data) :=
    OptionValue.attribute?_eq_some_iff.2 ⟨hcontent, rfl, hkebab⟩
  have htake : host.content.take? name (.literal data) = some host.content := by
    rw [Content.take?, show (OptionValue.literal data).content? name = none
      from hcontent]
  have hpass : host.passAfter pass name (.literal data) = pass := by
    simp [Host.passAfter, Host.takesKey, OptionValue.isReactive,
      OptionValue.binding?]
  rw [Host.applyOption_eq, htyped, if_neg Bool.false_ne_true, htake,
    hattr, hpass]
  rfl

/-- A row of still options changes places with those that stand behind it. -/
theorem Host.applyOptions_still {tag : String} {map : OptionMap}
    {content : Content} {pass : Pass}
    {options behind : List (String × OptionValue)}
    (entries : map.entries = options ++ behind)
    (still : ∀ option ∈ options, option.2.IsStill option.1) :
    ∃ map', Host.applyOptions ⟨tag, map, content⟩ options pass
        = .ok ⟨tag, map', content⟩ pass
      ∧ map'.entries = behind ++ options := by
  induction options generalizing map behind with
  | nil => exact ⟨map, rfl, by rw [entries, List.nil_append, List.append_nil]⟩
  | cons option rest ih =>
      obtain ⟨name, value⟩ := option
      obtain ⟨hfirst, hrest⟩ := List.forall_mem_cons.1 still
      have hmoved : ((map.erase name).insert name value).entries
          = rest ++ (behind ++ [(name, value)]) := by
        rw [← List.append_assoc]
        exact OrderedMap.entries_insert_erase entries value
      obtain ⟨map', hrun, hentries⟩ := ih hmoved hrest
      refine ⟨map', ?_, by rw [hentries, List.append_assoc]; rfl⟩
      rw [Host.applyOptions, Resolve.bind_of_ok (Host.applyOption_still hfirst)]
      exact hrun

/-- Still options stand as before once all have had their turn. -/
theorem Host.applyOptions_entries_still {tag : String} {map : OptionMap}
    {content : Content}
    (still : ∀ option ∈ map.entries, option.2.IsStill option.1) (pass : Pass) :
    Host.applyOptions ⟨tag, map, content⟩ map.entries pass
      = .ok ⟨tag, map, content⟩ pass := by
  obtain ⟨map', hrun, hentries⟩ :=
    Host.applyOptions_still (List.append_nil map.entries).symm still
  rw [hrun, OrderedMap.eq_of_entries hentries]

-- =================================================== trees left alone

namespace Element

/-- Whether an element has options in its slot, all of them resolved. -/
def IsResolved (o : Element) : Prop :=
  ∃ map, o.slot = .options map
    ∧ ∀ option ∈ map.entries, option.2.IsResolved option.1

/-- Whether an element has options in its slot, all of them still. -/
def IsStill (o : Element) : Prop :=
  ∃ map, o.slot = .options map
    ∧ ∀ option ∈ map.entries, option.2.IsStill option.1

end Element

mutual

/-- Resolving leaves a tree alone whose elements have still options. -/
theorem Node.resolve_still : ∀ node : Node, (∀ e ∈ node.elements, e.IsStill) →
    ∀ pass, node.resolve pass = .ok node pass
  | .text _, _, _ | .markup _, _, _ | .number _, _, _ | .bool _, _,
      _ | .fragment _, _, _ => rfl
  | .element e, still, pass => by
      rw [Node.elements] at still
      rw [Node.resolve, Resolve.bind_of_ok (e.resolve_still still pass)]
      rfl

/-- So does resolving an element: nothing is misplaced in it, and its options
stay. -/
theorem Element.resolve_still : ∀ e : Element, (∀ o ∈ e.elements, o.IsStill) →
    ∀ pass, e.resolve pass = .ok e pass
  | ⟨tag, .child node, children⟩, still, _ => by
      rw [Element.elements] at still
      obtain ⟨map, hslot, -⟩ := still _ List.mem_cons_self
      cases hslot
  | ⟨tag, .options map, children⟩, still, pass => by
      rw [Element.elements, Slot.elements, List.nil_append] at still
      obtain ⟨⟨_, hslot, hoptions⟩, hchildren⟩ := List.forall_mem_cons.1 still
      cases hslot
      rw [Element.resolve,
        Resolve.bind_of_ok (Host.applyOptions_entries_still hoptions pass)]
      cases children with
      | none => rfl
      | some row =>
          show (Node.resolveChildren (some row) >>= _) pass = _
          rw [Resolve.bind_of_ok
            (Node.resolveChildren_still row hchildren pass)]
          rfl

theorem Node.resolveChildren_still : ∀ row : List Node,
    (∀ e ∈ Node.childElements (some row), e.IsStill) →
      ∀ pass, Node.resolveChildren (some row) pass = .ok row pass
  | row, still, pass => by
      rw [Node.childElements] at still
      rw [Node.resolveChildren]
      exact Node.resolveAll_still row still pass

theorem Node.resolveAll_still : ∀ row : List Node,
    (∀ e ∈ Node.rowElements row, e.IsStill) →
    ∀ pass, Node.resolveAll row pass = .ok row pass
  | [], _, _ => rfl
  | node :: rest, still, pass => by
      rw [Node.rowElements, List.forall_mem_append] at still
      rw [Node.resolveAll, Resolve.bind_of_ok (node.resolve_still still.1 pass),
        Resolve.bind_of_ok (Node.resolveAll_still rest still.2 pass)]
      rfl

end

-- ======================================================== resolved trees

/-- Whatever is so of the keys that are handed out and of what the options of
an element become is so of all the options that are left of it. -/
theorem Element.WorkedOff.options {q : String → OptionValue → Prop}
    {pass pass' : Pass} {e o : Element} (h : e.WorkedOff pass o pass')
    (claimed : ∀ key : ElementKey, q OptionName.key key.toOption)
    (made : ∀ option ∈ e.written, ∀ final data,
      option.2.attribute? option.1 = some (final, data) →
      q final (.literal data)) :
    ∃ map, o.slot = .options map
      ∧ ∀ option ∈ map.entries, q option.1 option.2 := by
  obtain ⟨host, hrun, -, hslot, -⟩ := h
  refine ⟨host.options, hslot, fun option hmem => ?_⟩
  exact Host.applyOptions_entries claimed made
    (fun name value hget => Or.inr (OrderedMap.get?_eq_some_iff.1 hget)) hrun _
      _
    (OrderedMap.get?_eq_some_iff.2 hmem)

/-- Every element that a row leaves is left of one of its elements. -/
theorem Element.WorkedOffAll.exists_of_mem {pass pass' : Pass}
    {es os : List Element}
    (run : WorkedOffAll pass es os pass') {o : Element} (hmem : o ∈ os) :
    ∃ e ∈ es, ∃ before after, e.WorkedOff before o after := by
  induction run with
  | nil => cases hmem
  | cons first _ ih =>
      rcases List.mem_cons.1 hmem with rfl | hmem
      · exact ⟨_, List.mem_cons_self, _, _, first⟩
      · obtain ⟨e, he, hleft⟩ := ih hmem
        exact ⟨e, List.mem_cons_of_mem _ he, hleft⟩

/-- What is left of an element is resolved. -/
theorem Element.WorkedOff.isResolved {pass pass' : Pass} {e o : Element}
    (h : e.WorkedOff pass o pass') : o.IsResolved := by
  refine h.options (fun key => ⟨⟨_, rfl⟩, OptionName.content?_key⟩) ?_
  intro option _ final data hattr
  obtain ⟨hcontent, -, rfl⟩ := OptionValue.attribute?_eq_some_iff.1 hattr
  exact ⟨⟨data, rfl⟩, OptionValue.content?_finalName hcontent⟩

/-- Kebab case leaves the names alone that are left of an element written in
ASCII. -/
theorem Element.WorkedOff.kebab {pass pass' : Pass} {e o : Element}
    (h : e.WorkedOff pass o pass')
    (ascii : ∀ option ∈ e.written, Text.IsAscii option.1) :
    ∃ map, o.slot = .options map ∧ ∀ option ∈ map.entries,
      OptionName.kebab option.1 = option.1 := by
  refine h.options (q := fun name _ => OptionName.kebab name = name)
    (fun _ => OptionName.kebab_key) ?_
  intro option hmem final data hattr
  obtain ⟨-, -, rfl⟩ := OptionValue.attribute?_eq_some_iff.1 hattr
  exact OptionValue.kebab_finalName (ascii option hmem) option.2

/-- Resolving arrives at a tree whose elements have plain options, none of
which stands for content. If all names were written in ASCII and no value that
is left is an object, it has arrived for good: any later pass leaves the tree
as it is, the order of the options included, and is left as it was. -/
theorem Node.resolve_settles {node out : Node} {pass pass' : Pass}
    (h : node.resolve pass = .ok out pass') :
    (∀ o ∈ out.elements, o.IsResolved)
      ∧ ((∀ e ∈ node.elements, ∀ option ∈ e.written, Text.IsAscii option.1) →
        (∀ o ∈ out.elements, ∀ option ∈ o.written, option.2.isUntyped = false) →
          ∀ later, out.resolve later = .ok out later) := by
  have run := Node.resolve_workedOff h
  refine ⟨fun o ho => ?_, fun ascii typed => out.resolve_still fun o ho => ?_⟩
  · obtain ⟨e, -, before, after, hleft⟩ := run.exists_of_mem ho
    exact hleft.isResolved
  · obtain ⟨e, he, before, after, hleft⟩ := run.exists_of_mem ho
    obtain ⟨map, hslot, hresolved⟩ := hleft.isResolved
    obtain ⟨map', hslot', hkebab⟩ :=
      hleft.kebab (ascii e (node.visited_sublist.subset he))
    have htyped := typed o ho
    rw [hslot] at hslot'
    cases hslot'
    rw [Element.written, hslot] at htyped
    exact ⟨map, hslot, fun option hmem =>
      ⟨hresolved option hmem, htyped option hmem, hkebab option hmem⟩⟩

/-- An entry whose options get in each other's way: the first one ends under
the name of the second, which ends under a name of its own, and the third goes
into the content. It stands in the place of the options of its list. -/
def Node.sampleEntry : Node :=
  let a : OptionValue := .reactive (.state ⟨⟨0⟩, .literal (.str "a"), none⟩)
  let mark : OptionValue := .reactive (.reference ⟨.bool true⟩)
  .element ⟨"ul",
    .child (.element ⟨"li", .options (.ofList
      [("dataFoo", .literal (.int 1)), ("data-foo", mark), ("innerText", a),
        ("Title", a)]),
      some [.text "b"]⟩),
    none⟩

/-- Its options are settled after one pass, in an order that another pass
keeps. -/
theorem Node.sampleEntry_settles :
    ∃ out pass', Node.sampleEntry.resolve .fresh = .ok out pass'
    ∧ (∀ o ∈ out.elements, o.IsResolved)
      ∧ ∀ later, out.resolve later = .ok out later := by
  have resolves : Node.sampleEntry.resolve .fresh = .ok _ _ := rfl
  obtain ⟨hresolved, hstays⟩ := Node.resolve_settles resolves
  exact ⟨_, _, resolves, hresolved, hstays (by decide) (by decide)⟩

end Prerender
