/-
What exactly is left of one element whose options keep out of each
other's way.

The options stand in a queue while they are worked off: each is taken
out at the front and what it becomes is put in at the end. Where no name
gets in the way, nothing that is still to come is replaced and nothing
that is done is moved, so in the end the map lists what the options
became in the order in which they were written, and the key stands where
the first reactive one had its turn (`OptionMap.finished`). The
invariant is `Turns`: of the options to come it says that they have
neither each other, nor what is done, nor the key in their way. An
option that has its turn keeps it (`Turns.next`), so the queue is
followed by two inductions:

1. once the key is there, every option becomes its attribute behind what
   is done (`Host.applyOptions_entries_keyed`);
2. before that, plain options do, and the first reactive one puts the
   key in front of its own (`Host.applyOptions_entries_unkeyed`).

Meanwhile the children go through the options that stand for content as
through a fold (`Element.fill`), and only what that leaves is resolved.
This half needs no condition on names: it holds for all options
(`Element.resolve_filled`).

What is left of an element is an equation, not a bundle of properties:
the entries in order, the bindings in order, and the children as the
outcome of resolving the filled ones (`Element.resolve_outcome`).
-/
import Prerender.Proofs.Resolve.Settled
import Prerender.Proofs.Resolve.Straighten
import Prerender.Proofs.Resolve.WrittenKeys

namespace Prerender

-- ==================================================== what is left of it

namespace OptionValue

/-- The name of the attribute that an option written as `name` becomes, if it
becomes one. -/
def attributeName? (name : String) (value : OptionValue) : Option String :=
  (value.attribute? name).map Prod.fst

end OptionValue

namespace OptionMap

/-- What options become, one after the other. -/
def attributes (options : List (String × OptionValue)) :
    List (String × OptionValue) :=
  options.filterMap fun option =>
    (option.2.attribute? option.1).map fun attr => (attr.1, .literal attr.2)

/-- What options become, and the key before the place of the first reactive
one. -/
def finished (key : ElementKey) (options : List (String × OptionValue)) :
    List (String × OptionValue) :=
  attributes (options.takeWhile fun option => !option.2.isReactive)
    ++ match options.dropWhile fun option => !option.2.isReactive with
      | [] => []
      | reactive :: rest => (OptionName.key, key.toOption)
          :: attributes (reactive :: rest)

/-- The first option becomes its attribute first. -/
theorem attributes_cons (option : String × OptionValue)
    (rest : List (String × OptionValue)) :
    attributes (option :: rest) = attributes [option] ++ attributes rest := by
  show attributes ([option] ++ rest) = _
  exact List.filterMap_append

/-- A plain option at the front has no key before it. -/
theorem finished_cons_plain {key : ElementKey} {option : String × OptionValue}
    (plain : option.2.isReactive = false) (rest : List (String × OptionValue)) :
    finished key (option :: rest) = attributes [option]
      ++ finished key rest := by
  unfold finished
  rw [List.takeWhile_cons_of_pos (by simp [plain]), List.dropWhile_cons_of_pos
    (by simp [plain]), attributes_cons, List.append_assoc]

/-- A reactive one has, and then all is done without another. -/
theorem finished_cons_reactive {key : ElementKey}
    {option : String × OptionValue}
    (reactive : option.2.isReactive = true)
    (rest : List (String × OptionValue)) :
    finished key (option :: rest)
      = (OptionName.key, key.toOption) :: attributes (option :: rest) := by
  unfold finished
  rw [List.takeWhile_cons_of_neg (by simp [reactive]),
    List.dropWhile_cons_of_neg (by simp [reactive])]
  rfl

end OptionMap

namespace Element

/-- The children after an option: a plain text goes in front of them, and
every other value that stands for content takes their place. -/
def fill (children : Option (List Node)) (option : String × OptionValue) :
    Option (List Node) :=
  match option.2.content? option.1, option.2.data? with
  | some .text, some data =>
      if option.2.isReactive then some [.ofJson data]
      else children.map (.ofJson data :: ·)
  | some .markup, some data => some [.ofMarkup data]
  | _, _ => children

/-- The children of the element once all of its options have had their turn,
before they are resolved themselves. -/
def filled (e : Element) : Option (List Node) := e.written.foldl fill e.children

/-- Whether no option of the element is named `key` and none becomes an
attribute under a name that another one has or becomes an attribute under. -/
structure Separate (e : Element) : Prop where
  avoids : e.AvoidsKey
  apart : ∀ a ∈ e.written, ∀ b ∈ e.written, a.1 ≠ b.1 →
    ∀ final ∈ a.2.attributeName? a.1, final ≠ b.1
      ∧ final ∉ b.2.attributeName? b.1

instance : DecidablePred Separate := fun _ =>
  decidable_of_iff _ ⟨fun h => ⟨h.1, h.2⟩, fun h => And.intro h.avoids h.apart⟩

end Element

-- ============================================================= the queue

/-- Whether the options that are still to come have nothing in their way:
neither each other nor what is done already, nor the key. -/
structure Turns (pending done : List (String × OptionValue)) : Prop where
  apart : pending.Pairwise fun a b =>
    ∀ final ∈ a.2.attributeName? a.1, final ≠ b.1
      ∧ final ∉ b.2.attributeName? b.1
  avoids : ∀ option ∈ pending, OptionName.key ∉ option.2.attributeName? option.1
  fresh : ∀ option ∈ pending, ∀ final ∈ option.2.attributeName? option.1,
    final ∉ done.map Prod.fst

namespace Turns

variable {option : String × OptionValue}
  {rest done : List (String × OptionValue)}

/-- What an option becomes stands under its attribute's name. -/
theorem mem_names_attributes {name : String}
    (h : name ∈ (OptionMap.attributes [option]).map Prod.fst) :
    name ∈ option.2.attributeName? option.1 := by
  unfold OptionMap.attributes at h
  unfold OptionValue.attributeName?
  cases hattr : option.2.attribute? option.1 <;> simp_all

/-- After its turn an option is done, and with it perhaps the key. -/
theorem next (h : Turns (option :: rest) done)
    (key : List (String × OptionValue))
    (keyed : ∀ entry ∈ key, entry.1 = OptionName.key) :
    Turns rest (done ++ key ++ OptionMap.attributes [option]) := by
  obtain ⟨hapart, hrest⟩ := List.pairwise_cons.1 h.apart
  refine ⟨hrest, (List.forall_mem_cons.1 h.avoids).2,
    fun other hother final hfinal hdone => ?_⟩
  rw [List.map_append, List.map_append, List.mem_append, List.mem_append]
    at hdone
  rcases hdone with (hdone | hkey) | hown
  · exact h.fresh other (List.mem_cons_of_mem _ hother) final hfinal hdone
  · obtain ⟨entry, hentry, rfl⟩ := List.mem_map.1 hkey
    rw [keyed entry hentry] at hfinal
    exact h.avoids other (List.mem_cons_of_mem _ hother) hfinal
  · exact (hapart other hother final (mem_names_attributes hown)).2 hfinal

end Turns

/-- An option at the front is taken out, and what it becomes is put in at the
end. -/
theorem OptionMap.entries_rewrite {options : OptionMap}
    {option : String × OptionValue}
    {rest : List (String × OptionValue)}
    (entries : options.entries = option :: rest)
    (fresh : ∀ final ∈ option.2.attributeName? option.1,
      final ∉ rest.map Prod.fst) :
    (options.rewrite option.1 (option.2.attribute? option.1)).entries
      = rest ++ OptionMap.attributes [option] := by
  have hdistinct := options.distinct
  rw [entries, List.map_cons, List.nodup_cons] at hdistinct
  have herased : (options.erase option.1).entries = rest := by
    show (options.entries.filter fun entry => entry.1 ≠ option.1) = rest
    rw [entries, List.filter_cons_of_neg (by simp), List.filter_eq_self]
    intro entry hentry
    exact decide_eq_true fun heq =>
      hdistinct.1 (heq ▸ List.mem_map_of_mem hentry)
  unfold OptionMap.rewrite OptionMap.attributes
  unfold OptionValue.attributeName? at fresh
  cases hattr : option.2.attribute? option.1 with
  | none => simpa [hattr] using herased
  | some attr =>
      rw [hattr] at fresh
      show OrderedMap.put attr.1 _ (options.erase option.1).entries = _
      rw [herased, OrderedMap.put_of_not_mem _ (fresh attr.1 rfl)]
      simp [hattr]

namespace Host

variable {host host' : Host} {option : String × OptionValue}
  {rest pending done : List (String × OptionValue)} {pass pass' : Pass}

/-- One option has its turn, and perhaps the key is put in before its
attribute. -/
theorem applyOption_entries (h : host.applyOption option pass = .ok host' pass')
    (entries : host.options.entries = option :: rest ++ done)
    (turns : Turns (option :: rest) done)
    (key : List (String × OptionValue))
    (keyed : ∀ entry ∈ key, entry.1 = OptionName.key)
    (taken : (host.keyedOptions pass.nextKey option.2).entries
      = host.options.entries ++ key) :
    host'.options.entries = rest
      ++ (done ++ key ++ OptionMap.attributes [option])
      ∧ Turns rest (done ++ key ++ OptionMap.attributes [option]) := by
  refine ⟨?_, turns.next key keyed⟩
  have hentries : (host.keyedOptions pass.nextKey option.2).entries
      = option :: (rest ++ (done ++ key)) := by
    rw [taken, entries, List.append_assoc, List.cons_append]
  rw [(applyOption_ok h).2.1, OptionMap.entries_rewrite hentries,
    List.append_assoc]
  intro final hfinal hmem
  rw [List.map_append, List.map_append, List.mem_append, List.mem_append]
    at hmem
  rcases hmem with hmem | hmem | hmem
  · obtain ⟨other, hother, rfl⟩ := List.mem_map.1 hmem
    exact ((List.pairwise_cons.1 turns.apart).1 other hother _ hfinal).1 rfl
  · exact turns.fresh option List.mem_cons_self final hfinal hmem
  · obtain ⟨entry, hentry, rfl⟩ := List.mem_map.1 hmem
    rw [keyed entry hentry] at hfinal
    exact turns.avoids option List.mem_cons_self hfinal

/-- One option has its turn and takes no key. -/
theorem applyOption_entries_of_not_takesKey
    (h : host.applyOption option pass = .ok host' pass')
    (entries : host.options.entries = option :: rest ++ done)
    (turns : Turns (option :: rest) done)
    (takes : host.takesKey option.2 = false) :
    host'.options.entries = rest ++ (done ++ OptionMap.attributes [option])
      ∧ Turns rest (done ++ OptionMap.attributes [option]) := by
  have htaken : (host.keyedOptions pass.nextKey option.2).entries
    = host.options.entries ++ [] := by
    rw [keyedOptions, takes, if_neg Bool.false_ne_true, List.append_nil]
  have hstep := applyOption_entries h entries turns []
    (List.forall_mem_nil _) htaken
  rwa [List.append_nil] at hstep

/-- Once the key is there, every option becomes its attribute behind what is
done. -/
theorem applyOptions_entries_keyed {key : ElementKey}
    (h : host.applyOptions pending pass = .ok host' pass')
    (entries : host.options.entries = pending ++ done)
    (turns : Turns pending done)
    (held : (OptionName.key, key.toOption) ∈ done) :
    host'.options.entries = done ++ OptionMap.attributes pending := by
  induction pending generalizing host pass done with
  | nil =>
      cases h
      rw [entries]
      exact (List.append_nil _).symm
  | cons option rest ih =>
      obtain ⟨mid, midPass, hfirst, hrest⟩ := applyOptions_cons_ok.1 h
      have hkey : host.key? = some key := by
        have hget : host.options.get? OptionName.key = some key.toOption := by
          rw [OrderedMap.get?_eq_some_iff, entries]
          exact List.mem_append_right _ held
        rw [key?, hget, Option.bind_some, ElementKey.ofOption?_toOption]
      have htakes : host.takesKey option.2 = false := by
        rw [takesKey, hkey, Option.isNone_some, Bool.and_false]
      obtain ⟨hmid, hturns⟩ :=
        applyOption_entries_of_not_takesKey hfirst entries turns htakes
      rw [ih hrest hmid hturns (List.mem_append_left _ held),
        OptionMap.attributes_cons option rest, List.append_assoc]

/-- Before the key is there, plain options become their attributes; the first
reactive one puts the key in front of its own. -/
theorem applyOptions_entries_unkeyed
    (h : host.applyOptions pending pass = .ok host' pass')
    (entries : host.options.entries = pending ++ done)
    (turns : Turns pending done)
    (unkeyed : OptionName.key ∉ host.options.entries.map Prod.fst) :
    host'.options.entries = done
      ++ OptionMap.finished ⟨pass.nextKey⟩ pending := by
  induction pending generalizing host pass done with
  | nil =>
      cases h
      rw [entries]
      exact (List.append_nil _).symm
  | cons option rest ih =>
      obtain ⟨mid, midPass, hfirst, hrest⟩ := applyOptions_cons_ok.1 h
      have hkey : host.key? = none := by
        have hget : host.options.get? OptionName.key = none :=
          OrderedMap.get?_eq_none_iff.2 fun value hmem =>
            unkeyed (List.mem_map_of_mem hmem)
        rw [key?, hget, Option.bind_none]
      cases hreactive : option.2.isReactive with
      | true =>
          -- the key is put in at the end of the queue, where the attribute
          -- comes next
          have htaken : (host.keyedOptions pass.nextKey option.2).entries
              = host.options.entries
                ++ [(OptionName.key, ElementKey.toOption ⟨pass.nextKey⟩)] := by
            rw [keyedOptions, takesKey, hkey, hreactive, Option.isNone_none,
              Bool.and_true, if_pos rfl]
            exact OrderedMap.put_of_not_mem _ unkeyed
          have hkeyed :
              ∀ entry ∈ [(OptionName.key, ElementKey.toOption ⟨pass.nextKey⟩)],
                entry.1 = OptionName.key := List.forall_mem_singleton.2 rfl
          obtain ⟨hmid, hturns⟩ :=
            applyOption_entries hfirst entries turns _ hkeyed htaken
          have hheld : (OptionName.key, ElementKey.toOption ⟨pass.nextKey⟩)
              ∈ done ++ [(OptionName.key, ElementKey.toOption ⟨pass.nextKey⟩)]
                ++ OptionMap.attributes [option] := by simp
          rw [applyOptions_entries_keyed hrest hmid hturns hheld,
            OptionMap.finished_cons_reactive hreactive,
            OptionMap.attributes_cons option rest]
          simp only [List.append_assoc, List.cons_append, List.nil_append]
      | false =>
          have htakes : host.takesKey option.2 = false := by
            rw [takesKey, hreactive, Bool.false_and]
          obtain ⟨hmid, hturns⟩ :=
            applyOption_entries_of_not_takesKey hfirst entries turns htakes
          -- a plain option takes no key, so the next new one is still to be
          -- taken
          have hpass : midPass.nextKey = pass.nextKey := by
            rw [(applyOption_ok hfirst).2.2.2, passAfter, htakes,
              if_neg Bool.false_ne_true]
          have hunkeyed : OptionName.key
            ∉ mid.options.entries.map Prod.fst := by
            rw [entries, List.map_append, List.mem_append, not_or] at unkeyed
            obtain ⟨hpending, hdone⟩ := unkeyed
            rw [hmid, List.map_append, List.map_append, List.mem_append,
              List.mem_append]
            intro hmem
            rcases hmem with hmem | hmem | hmem
            · exact hpending (List.mem_cons_of_mem _ hmem)
            · exact hdone hmem
            · exact turns.avoids option List.mem_cons_self
                (Turns.mem_names_attributes hmem)
          rw [ih hrest hmid hturns hunkeyed, hpass,
            OptionMap.finished_cons_plain hreactive, List.append_assoc]

end Host

-- ========================================================== the children

/-- An option does to the children what it does to the content. -/
theorem Content.children_take? {name : String} {value : OptionValue}
    {content content' : Content}
    (h : content.take? name value = some content')
    (written : Option (List Node)) :
    content'.children written
      = Element.fill (content.children written) (name, value) := by
  unfold take? at h
  unfold Element.fill
  cases hkind : value.content? name with
  | none =>
      rw [hkind] at h
      cases h
      rfl
  | some kind =>
      cases hdata : value.data? with
      | none =>
          rw [hkind, hdata] at h
          cases h
          cases kind <;> rfl
      | some data =>
          rw [hkind, hdata] at h
          cases hreactive : value.isReactive with
          | true =>
              simp only [hreactive, if_true] at h
              cases h
              cases kind <;> rfl
          | false =>
              simp only [hreactive, Bool.false_eq_true, if_false] at h
              cases content with
              | absent => cases h
              | list lead keeps => cases kind <;> cases h <;> rfl

/-- Options do to the children what they do to the content. -/
theorem Host.children_applyOptions {host host' : Host}
    {options : List (String × OptionValue)}
    {pass pass' : Pass} (h : host.applyOptions options pass = .ok host' pass')
    (written : Option (List Node)) :
    host'.content.children written
      = options.foldl Element.fill (host.content.children written) := by
  induction options generalizing host pass with
  | nil =>
      cases h
      rfl
  | cons option rest ih =>
      obtain ⟨mid, midPass, hfirst, hrest⟩ := applyOptions_cons_ok.1 h
      rw [ih hrest, Content.children_take? (applyOption_ok hfirst).2.2.1,
        List.foldl_cons]

/-- The content before any option is what was written. -/
theorem Content.children_ofChildren (written : Option (List Node)) :
    (ofChildren written).children written = written := by
  cases written <;> rfl

/-- What stands in front without an element in it resolves to itself. -/
theorem Node.resolveAll_append_of_lead {lead row rest : List Node}
    {pass pass' : Pass}
    (bare : Node.rowElements lead = [])
    (h : Node.resolveAll row pass = .ok rest pass') :
    Node.resolveAll (lead ++ row) pass = .ok (lead ++ rest) pass' := by
  induction lead with
  | nil => exact h
  | cons node lead ih =>
      obtain ⟨hnode, hlead⟩ := List.append_eq_nil_iff.1 bare
      have hstill : node.resolve pass = .ok node pass :=
        node.resolve_still (by rw [hnode]; nofun) pass
      exact Node.resolveAll_cons_ok.2
        ⟨node, pass, lead ++ rest, hstill, ih hlead, rfl⟩

-- ============================================================ the outcome

namespace Element

/-- The pass once the options of an element without `key` have been worked
off: a reactive element has taken the next key and left its bindings under
it. -/
def passAfter (e : Element) (pass : Pass) : Pass where
  nextKey := if e.isReactive then pass.nextKey + 1 else pass.nextKey
  bindings := pass.bindings ++ e.bindings ⟨pass.nextKey⟩

variable {tag : String} {map : OptionMap} {children : Option (List Node)}
  {pass pass' : Pass}

/-- At the start every option has nothing in its way. -/
theorem Separate.turns (separate : Separate ⟨tag, .options map, children⟩) :
    Turns map.entries [] := by
  refine ⟨?_, fun option hoption hfinal => ?_, nofun⟩
  · have hdistinct : map.entries.Pairwise fun a b => a.1 ≠ b.1 :=
      List.pairwise_map.1 map.distinct
    exact hdistinct.imp_of_mem fun ha hb hne => separate.apart _ ha _ hb hne
  · obtain ⟨⟨final, data⟩, hattr, rfl⟩ := Option.map_eq_some_iff.1 hfinal
    exact option.2.finalName_ne_key (separate.avoids option hoption)
      (OptionValue.attribute?_eq_some_iff.1 hattr).2.2

/-- The options of an element without `key` leave the pass as
`Element.passAfter` has it. -/
theorem AvoidsKey.passAfter_eq
    (avoids : AvoidsKey ⟨tag, .options map, children⟩) {host : Host}
    (h : Host.applyOptions ⟨tag, map, .ofChildren children⟩ map.entries pass
      = .ok host pass') :
    pass' = passAfter ⟨tag, .options map, children⟩ pass := by
  have hleft : WorkedOff pass ⟨tag, .options map, children⟩
      ⟨tag, .options host.options, some host.content.lead⟩ pass' := by
    refine ⟨host, h, rfl, rfl, fun lead hcontent => ?_⟩
    rw [hcontent]
    rfl
  obtain ⟨-, hnext, hbindings⟩ := hleft.course
  rw [course_of_keepsKey avoids.keepsKey] at hnext hbindings
  simp only [isNumbered, keyAt, avoids.key?, Option.isNone_none, Bool.and_true,
    Option.getD_none] at hnext hbindings
  cases pass'
  cases hnext
  cases hbindings
  rfl

/-- What is resolved after the options of an element is its filled children. -/
theorem resolve_filled {o : Element}
    (h : Element.resolve ⟨tag, .options map, children⟩ pass = .ok o pass') :
    ∃ host mid rest,
      Host.applyOptions ⟨tag, map, .ofChildren children⟩ map.entries pass
        = .ok host mid
        ∧ Node.resolveChildren (filled ⟨tag, .options map, children⟩) mid
          = .ok rest pass'
        ∧ o = ⟨tag, .options host.options,
            (filled ⟨tag, .options map, children⟩).map fun _ => rest⟩ := by
  obtain ⟨host, mid, hoptions, hends⟩ := resolve_options_ok h
  have hlead := Host.rowElements_lead hoptions
  have hfilled : filled ⟨tag, .options map, children⟩
    = host.content.children children := by
    rw [Host.children_applyOptions hoptions, Content.children_ofChildren]
    rfl
  rw [hfilled]
  -- no list of children; one that options brought; the written one behind
  -- what options put in
  rcases hends with ⟨-, hcontent, -, rfl, rfl⟩ | ⟨lead, hcontent, -, rfl, rfl⟩
    | ⟨lead, rest, hcontent, -, hrest, rfl⟩
  · rw [hcontent]
    exact ⟨host, mid, [], hoptions, rfl, rfl⟩
  · rw [hcontent] at hlead ⊢
    have hresolve : Node.resolveAll (lead ++ []) mid = .ok (lead ++ []) mid :=
      Node.resolveAll_append_of_lead hlead rfl
    exact ⟨host, mid, lead, hoptions, hresolve.trans (by rw [List.append_nil]),
      rfl⟩
  · rw [hcontent] at hlead ⊢
    rw [← Node.resolveAll_getD] at hrest
    exact ⟨host, mid, lead ++ rest, hoptions,
      Node.resolveAll_append_of_lead hlead hrest, rfl⟩

/-- What is left of an element with options that keep out of each other's way.
The options list what the written ones became, in the written order, the key
before the place of the first reactive one. The bindings of the element come
in the same order, all under the next key of the pass, and those of its
children after them. The children are the resolved ones out of what the
options that stand for content have made of the written ones, one after the
other. -/
theorem resolve_outcome {e o : Element} (slot : e.slot = .options map)
    (separate : e.Separate) (h : e.resolve pass = .ok o pass') :
    ∃ options rest later,
      o = ⟨e.tag, .options options, e.filled.map fun _ => rest⟩
      ∧ options.entries = OptionMap.finished ⟨pass.nextKey⟩ map.entries
      ∧ Node.resolveChildren e.filled (e.passAfter pass) = .ok rest pass'
      ∧ pass'.bindings = pass.bindings ++ e.bindings ⟨pass.nextKey⟩
        ++ later := by
  obtain ⟨tag, _, children⟩ := e
  cases slot
  obtain ⟨host, mid, rest, hoptions, hrest, rfl⟩ := resolve_filled h
  obtain rfl := separate.avoids.passAfter_eq hoptions
  have hunkeyed : OptionName.key ∉ map.entries.map Prod.fst := by
    intro hmem
    obtain ⟨option, hoption, hkey⟩ := List.mem_map.1 hmem
    exact separate.avoids option hoption (hkey ▸ OptionName.lowercase_key)
  have hentries := Host.applyOptions_entries_unkeyed hoptions
    (List.append_nil _).symm
    separate.turns hunkeyed
  exact ⟨host.options, rest, _, rfl, hentries, hrest,
    (Node.resolveChildren_workedOff hrest).courses.2⟩

/-- A card with every kind of option. Two of them stand for content: the text
of the first goes in front of the child, which is reactive itself. -/
def sampleCard : Element :=
  let a : OptionValue := .reactive (.state ⟨⟨0⟩, .literal (.str "a"), none⟩)
  let tap : OptionValue := .reactive (.state ⟨⟨1⟩, .source "() => 0", none⟩)
  let count : OptionValue := .reactive
    (.observer ⟨⟨"x => x.length", fun arguments => .int arguments.length⟩,
      [⟨⟨0⟩, none⟩], [.str "a"]⟩)
  let mark : OptionValue := .reactive (.reference ⟨.bool true⟩)
  ⟨"article", .options
    (.ofList [("dataFoo", .literal (.int 1)), ("onClick", tap), ("Title", a),
      ("innerText", .literal (.str "b")), ("tabIndex", .literal (.int 2)),
      ("Value", count),
      ("card", mark)]),
    some [.element ⟨"b", .options (.ofList [("title", a)]), some []⟩]⟩

/-- Its listener leaves nothing but the place of the key. -/
theorem sampleCard_outcome : ∃ o pass', sampleCard.resolve ⟨4, []⟩ = .ok o pass'
    ∧ ∃ options rest later, o = ⟨"article", .options options,
      sampleCard.filled.map fun _ => rest⟩
      ∧ options.names = ["data-foo", "key", "title", "tab-index",
        "value", "ref"]
      ∧ Node.resolveChildren sampleCard.filled (sampleCard.passAfter ⟨4, []⟩)
        = .ok rest pass'
      ∧ pass'.bindings = [] ++ sampleCard.bindings ⟨4⟩ ++ later := by
  have resolves : sampleCard.resolve ⟨4, []⟩ = .ok _ _ := rfl
  have separate : sampleCard.Separate := by decide
  obtain ⟨options, rest, later, ho, hentries, hrest, hbindings⟩ :=
    resolve_outcome rfl separate resolves
  refine ⟨_, _, resolves, options, rest, later, ho, ?_, hrest, hbindings⟩
  rw [OrderedMap.names, hentries]
  decide

end Element

end Prerender
