/-
The first paint and the hydration data agree.

The document of a page shows, wherever a binding will put a value later
on, the value that the client starts with: the literal that the scope
lists for a cell, and what an observer makes of the values listed for
its cells. Were it otherwise, the first thing that a client does would
be to change a page that nobody has touched.

Two arguments meet here:

1. On the side of the tree it is a frame argument. The options of an
   element are rewritten in place, so what one of them has become must
   survive the ones after it (`Host.applyOptions_get?_of_ne`,
   `Host.applyOptions_content_of_none`). It does if the options keep out
   of each other's way (`Element.Unmixed`), and then the element shows
   each of its reactive values that has data
   (`Element.WorkedOff.paints`).
2. On the side of the scope, values are copied when they are given out,
   and `Session.Reached.backs` says that they are still right at the
   end, whatever page code did in between.

That a binding finds its element at all is the numbering of keys
(`Element.WorkedOffAll.numbering`): the key it is noted under is the one
that its element got. That it finds no other one needs that the numbers
have not gone round, and the statement asks for room there and nowhere
else.
-/
import Prerender.Proofs.Reactive.Session
import Prerender.Proofs.Resolve.Numbering

namespace Prerender

-- =========================================== what the other options leave

namespace Host

variable {host host' : Host} {options : List (String × OptionValue)}
  {pass pass' : Pass}

/-- An option that is neither written nor ends under a name leaves what stands
there. -/
theorem applyOption_get?_of_ne {option : String × OptionValue} {k : String}
    (h : host.applyOption option pass = .ok host' pass')
    (notKey : k ≠ OptionName.key)
    (written : k ≠ option.1) (final : k ≠ option.2.finalName option.1) :
    host'.options.get? k = host.options.get? k := by
  obtain ⟨name, value⟩ := option
  have hkeyed : (host.keyedOptions pass.nextKey value).get? k
    = host.options.get? k := by
    unfold keyedOptions
    split
    · rw [OrderedMap.get?_insert, if_neg notKey]
    · rfl
  rw [(applyOption_ok h).2.1, OptionMap.get?_rewrite, hkeyed]
  cases hattr : value.attribute? name with
  | none => exact if_neg written
  | some attr =>
      obtain ⟨end_, data⟩ := attr
      obtain ⟨-, -, rfl⟩ := OptionValue.attribute?_eq_some_iff.1 hattr
      show (if k = value.finalName name then _ else _) = _
      rw [if_neg final, if_neg written]

theorem applyOptions_get?_of_ne {k : String}
    (h : host.applyOptions options pass = .ok host' pass')
    (notKey : k ≠ OptionName.key)
    (apart : ∀ option ∈ options, k ≠ option.1
      ∧ k ≠ option.2.finalName option.1) :
    host'.options.get? k = host.options.get? k := by
  refine applyOptions_keeps (P :=
    fun mid => mid.options.get? k = host.options.get? k) ?_ h rfl
  intro option hmem mid mid' midPass midPass' hmid hstep
  obtain ⟨hwritten, hfinal⟩ := apart option hmem
  rw [applyOption_get?_of_ne hstep notKey hwritten hfinal, hmid]

/-- Options that stand for no content leave the content. -/
theorem applyOptions_content_of_none
    (h : host.applyOptions options pass = .ok host' pass')
    (apart : ∀ option ∈ options, option.2.content? option.1 = none) :
    host'.content = host.content := by
  refine applyOptions_keeps (P :=
    fun mid => mid.content = host.content) ?_ h rfl
  intro option hmem mid mid' midPass midPass' hmid hstep
  have htake := (applyOption_ok hstep).2.2.1
  rw [Content.take?, apart _ hmem] at htake
  exact (Option.some.inj htake).symm.trans hmid

end Host

-- ===================================================== unmixed elements

/-- Whether the options of an element keep out of each other's way: none is
named `key`, at most one is named as if it stood for content, and none ends
under a name that another one has or ends under. -/
structure Element.Unmixed (e : Element) : Prop where
  avoids : e.AvoidsKey
  content : ∀ a ∈ e.written, ∀ b ∈ e.written, OptionName.content? a.1 ≠ none →
    OptionName.content? b.1 ≠ none → a.1 = b.1
  apart : ∀ a ∈ e.written, ∀ b ∈ e.written, a.1 ≠ b.1 →
    a.2.finalName a.1 ≠ b.2.finalName b.1 ∧ a.2.finalName a.1 ≠ b.1

instance : DecidablePred Element.Unmixed := fun _ =>
  decidable_of_iff _
    ⟨fun h => ⟨h.1, h.2.1, h.2.2⟩, fun h =>
      And.intro h.avoids (And.intro h.content h.apart)⟩

/-- Whether the element shows `data` in the place of an attribute, which for
two names is the place of its children. -/
def Element.Paints (o : Element) (attributeName : String) (data : Json) :
    Prop :=
  if attributeName = "innertext" then o.children = some [Node.ofJson data]
  else if attributeName = "innerhtml" then
    o.children = some [Node.ofMarkup data]
  else o.slot.optionsOrEmpty.get? attributeName = some (.literal data)

/-- A name that stands for no content stands for none with any value. -/
theorem OptionValue.content?_of_none {name : String} (value : OptionValue)
    (h : OptionName.content? name = none) : value.content? name = none := by
  cases value with
  | literal data => exact h
  | reactive value => cases value with
    | state link => exact h
    | observer o => exact h
    | reference handle => rfl

/-- A value that is content is so by its name. -/
theorem OptionValue.content?_name {name : String} {value : OptionValue}
    {kind : OptionName.Content}
    (h : value.content? name = some kind) :
    OptionName.content? name = some kind := by
  cases value with
  | literal data => exact h
  | reactive value => cases value with
    | state link => exact h
    | observer o => exact h
    | reference handle => cases h

/-- Which content a reactive value stands for can be told from its final
name. -/
theorem OptionValue.content?_of_finalName {name : String} {value : OptionValue}
    (reactive : value.isReactive = true) :
    value.content? name = if value.finalName name = "innertext" then some .text
      else if value.finalName name = "innerhtml" then some .markup
      else none := by
  cases value with
  | literal data => cases reactive
  | reactive value => cases value with
    | state link => rfl
    | observer o => rfl
    | reference handle => rfl

/-- A reactive value is painted in the place of its final name if its
attribute has the data or, where it stands for content, the children are the
data alone. -/
theorem OptionValue.paints_of {name : String} {value : OptionValue}
    {data : Json} {o : Element}
    (reactive : value.isReactive = true) (held : value.data? = some data)
    (shows : ∀ final, value.attribute? name = some (final, data) →
      o.slot.optionsOrEmpty.get? final = some (.literal data))
    (content : ∀ kind lead, value.content? name = some kind →
      Content.only kind data = .list lead false → o.children = some lead) :
    o.Paints (value.finalName name) data := by
  have hcontent : value.content? name = _ := content?_of_finalName reactive
  unfold Element.Paints
  by_cases htext : value.finalName name = "innertext"
  · rw [if_pos htext] at hcontent ⊢
    exact content .text _ hcontent rfl
  · by_cases hmarkup : value.finalName name = "innerhtml"
    · rw [if_neg htext, if_pos hmarkup] at hcontent ⊢
      exact content .markup _ hcontent rfl
    · rw [if_neg htext, if_neg hmarkup] at hcontent ⊢
      exact shows _ (attribute?_eq_some_iff.2 ⟨hcontent, held, rfl⟩)

/-- An unmixed element shows each of its reactive values that has data. -/
theorem Element.WorkedOff.paints {e o : Element} {pass pass' : Pass}
    {name : String}
    {value : OptionValue} {data : Json} (h : e.WorkedOff pass o pass')
    (unmixed : e.Unmixed)
    (hmem : (name, value) ∈ e.written) (reactive : value.isReactive = true)
    (held : value.data? = some data) :
    o.Paints (value.finalName name) data := by
  obtain ⟨host, hrun, -, hslot, hchildren⟩ := h
  obtain ⟨before, after, hwritten⟩ := List.append_of_mem hmem
  have hafter : ∀ option ∈ after, option ∈ e.written ∧ name ≠ option.1 := by
    intro option hoption
    refine ⟨?_, Element.ne_of_mem_after hwritten option hoption⟩
    rw [hwritten]
    exact List.mem_append_right _ (List.mem_cons_of_mem _ hoption)
  rw [hwritten, Host.applyOptions_append_ok] at hrun
  obtain ⟨start, startPass, -, hrest⟩ := hrun
  obtain ⟨mid, midPass, hstep, hrest⟩ := Host.applyOptions_cons_ok.1 hrest
  obtain ⟨-, hoptions, hcontent, -⟩ := Host.applyOption_ok hstep
  refine OptionValue.paints_of reactive held ?_ ?_
  · -- an attribute: no later option is written or ends under its name
    intro final hattr
    obtain ⟨-, -, rfl⟩ := OptionValue.attribute?_eq_some_iff.1 hattr
    have hkept := Host.applyOptions_get?_of_ne hrest
      (value.finalName_ne_key (unmixed.avoids _ hmem)) fun option hoption => by
        obtain ⟨hin, hne⟩ := hafter option hoption
        exact (unmixed.apart _ hmem option hin hne).symm
    rw [hslot]
    show host.options.get? _ = _
    rw [hkept, hoptions, OptionMap.get?_rewrite, hattr]
    exact if_pos rfl
  · -- content: no later option is content, whatever its kind
    intro kind lead hkind honly
    have hkept := Host.applyOptions_content_of_none hrest
      fun option hoption => by
      obtain ⟨hin, hne⟩ := hafter option hoption
      refine option.2.content?_of_none
        (Classical.byContradiction fun hsome => hne ?_)
      refine unmixed.content _ hmem option hin ?_ hsome
      rw [OptionValue.content?_name hkind]
      exact Option.some_ne_none kind
    rw [Content.take?, hkind, held] at hcontent
    simp only [reactive, if_true, Option.some.injEq] at hcontent
    refine hchildren lead ?_
    rw [hkept, ← hcontent, honly]

-- ======================================================== the first paint

/-- Whether the value is the scope's, if it is a link or an observer. Handles
are free. -/
def OptionValue.ComesFrom (session : Session) : OptionValue → Prop
  | .literal _ | .reactive (.reference _) => True
  | .reactive value => value ∈ session.returned

/-- Whether the element shows what the client will take a binding to have at
first: the literal listed for its cell, or what its observer makes of the
values listed for the observed cells. -/
def Binding.PaintedOn (scope : Scope) (o : Element) (b : Binding) : Prop :=
  match b.source with
  | .state link => ∃ cell ∈ scope.cells, ∃ data, cell.id = link.cell
      ∧ cell.value = .literal data ∧ o.Paints b.attributeName data
  | .observer observer => ∃ cells, List.Forall₂ scope.Lists observer.cells cells
      ∧ o.Paints (Text.lowercase b.attributeName)
          (observer.update.evaluate (cells.map Cell.argument))
  | .reference handle => o.Paints b.attributeName handle.value

/-- An unmixed element shows each of its bindings as the scope has them at the
end. -/
theorem Element.WorkedOff.paintedOn {session : Session}
    (reached : session.Reached)
    {e o : Element} {pass pass' : Pass} (h : e.WorkedOff pass o pass')
    (unmixed : e.Unmixed)
    (own : ∀ option ∈ e.written, option.2.ComesFrom session) {key : ElementKey}
    {b : Binding} (hb : b ∈ e.bindings key) : b.PaintedOn session.scope o := by
  obtain ⟨⟨name, value⟩, hmem, hbinding⟩ := List.mem_filterMap.1 hb
  have howned := own _ hmem
  have hpaints : ∀ data, value.data? = some data →
    o.Paints (value.finalName name) data :=
    fun _ => h.paints unmixed hmem (OptionValue.isReactive_of_binding? hbinding)
  cases value with
  | literal data => cases hbinding
  | reactive value =>
      cases value with
      | state link =>
          -- a link is true to its cell, and a listener leaves no binding
          obtain ⟨cell, hlisted, rfl⟩ := reached.backs _ howned
          cases hvalue : cell.value with
          | source code =>
              simp only [OptionValue.binding?, Cell.link, hvalue,
                CellValue.isSource, if_true] at hbinding
              cases hbinding
          | literal data =>
              simp only [OptionValue.binding?, Cell.link, hvalue,
                CellValue.isSource, Bool.false_eq_true, if_false] at hbinding
              cases hbinding
              refine ⟨cell, hlisted, data, rfl, hvalue, hpaints data ?_⟩
              show cell.value.literal? = _
              rw [hvalue]
              rfl
      | observer observer =>
          cases hbinding
          -- an observer was computed from the values that its cells still
          -- have
          obtain ⟨cells, hlisted, harguments⟩ := reached.backs _ howned
          refine ⟨cells, hlisted, ?_⟩
          rw [← harguments]
          exact hpaints _ rfl
      | reference handle =>
          cases hbinding
          exact hpaints _ rfl

/-- The two elements in the same place of a run are one, before and after. -/
theorem Element.WorkedOffAll.getElem? {pass pass' : Pass} {es os : List Element}
    (run : Element.WorkedOffAll pass es os pass') {i : Nat} {e o : Element}
    (he : es[i]? = some e) (ho : os[i]? = some o) :
    ∃ mid mid', e.WorkedOff mid o mid' := by
  induction run generalizing i with
  | nil => cases he
  | cons first _ ih =>
      cases i with
      | zero =>
          cases he
          cases ho
          exact ⟨_, _, first⟩
      | succ i => exact ih he ho

/-- The first paint agrees with the hydration data. Let page code do what it
likes with a new scope, and let a tree be made of what the scope gave out, its
elements unmixed. If the tree resolves, every new binding finds an element
under its key that shows what the scope lists at the end. No two cells are
listed under one number, and no other element has that key, as long as the
numbers last. -/
theorem Session.Reached.firstPaint {session : Session}
    (reached : session.Reached)
    {node out : Node} {pass pass' : Pass}
    (unmixed : ∀ e ∈ node.elements, e.Unmixed)
    (own : ∀ e ∈ node.elements, ∀ option ∈ e.written,
      option.2.ComesFrom session)
    (h : node.resolve pass = .ok out pass') :
    (∃ new, pass'.bindings = pass.bindings ++ new
      ∧ ∀ b ∈ new, ∃ o ∈ out.elements, o.keyOption? = some b.key.toOption
        ∧ b.PaintedOn session.scope o
        ∧ (pass.nextKey.toNat + node.visited.countP Element.isReactive
          ≤ UInt32.size →
            ∀ o' ∈ out.elements, o'.keyOption? = some b.key.toOption → o' = o))
      ∧ (session.scope.cells.length ≤ UInt32.size →
        (session.scope.cells.map Cell.id).Nodup) := by
  refine ⟨?_, reached.cells_distinct⟩
  have run := Node.resolve_workedOff h
  obtain ⟨new, m, hnew, -, hnumbering⟩ := run.numbering
    (fun e he => (unmixed e (node.visited_sublist.subset he)).avoids)
    UInt32.ofNat_toNat.symm
  refine ⟨new, hnew, fun b hb => ?_⟩
  obtain ⟨i, e, o, he, ho, hkey, hleft⟩ := hnumbering.left_by b hb
  have hin := node.visited_sublist.subset (List.mem_of_getElem? he)
  obtain ⟨mid, mid', hworked⟩ := run.getElem? he ho
  refine ⟨o, List.mem_of_getElem? ho, hkey,
    hworked.paintedOn reached (unmixed e hin) (own e hin) hleft,
    fun room o' hmem hkey' => ?_⟩
  -- with room, two elements with one key stand in one place
  rw [← hnumbering.last_eq] at room
  obtain ⟨j, hj⟩ := List.getElem?_of_mem hmem
  have hsame := hnumbering.keys_distinct room hj ho hkey' hkey
  rw [hsame, ho] at hj
  exact (Option.some.inj hj).symm

/-- A cell, a listener, an observer of both, and a cell of a group that is
made after it. -/
def Session.sample : Session :=
  fresh
    |>.perform (.addState (.str "a") none)
    |>.perform (.addListener "() => 0" [⟨⟨0⟩, none⟩])
    |>.perform (.observe [⟨⟨1⟩, none⟩, ⟨⟨0⟩, none⟩] ⟨"(f, a) => [f, a]", .arr⟩)
    |>.perform (.addState (.int 5) (some ⟨"list"⟩))
    |>.perform (.addHook "a => 1" [⟨⟨0⟩, none⟩])

/-- Each of its operations is one that page code can perform. -/
theorem Session.sample_reached : Session.sample.Reached := by
  unfold Session.sample
  refine .step
    (.step (.step (.step (.step .fresh trivial) trivial) ?_) trivial) trivial
  intro ref href
  rcases List.mem_cons.1 href with rfl | href
  · exact ⟨_, .tail _ (.head _), rfl⟩
  · cases List.mem_singleton.1 href
    exact ⟨_, .head _, rfl⟩

/-- A page made of what the sample session gave out. -/
def Node.samplePage : Node :=
  let given (i : Nat) : OptionValue :=
    .reactive (Session.sample.returned.getD i (.reference ⟨.null⟩))
  .element ⟨"ul",
    .options (.ofList
      [("className", .literal (.str "all")), ("title", given 0)]),
    some [.element ⟨"li",
      .options (.ofList [("innerHTML", given 2), ("onClick", given 1),
        ("dataCount", given 3)]),
      some [.text "old"]⟩]⟩

/-- It shows its three bindings: one on the list, two on the entry. -/
theorem Node.samplePage_firstPaint :
    ∃ out pass', Node.samplePage.resolve .fresh = .ok out pass'
    ∧ ∃ new, new.length = 3 ∧ pass'.bindings = [] ++ new
      ∧ ∀ b ∈ new, ∃ o ∈ out.elements, o.keyOption? = some b.key.toOption
        ∧ b.PaintedOn Session.sample.scope o := by
  have unmixed : ∀ e ∈ Node.samplePage.elements, e.Unmixed := by decide
  have own : ∀ e ∈ Node.samplePage.elements, ∀ option ∈ e.written,
      option.2.ComesFrom Session.sample := by
    refine List.forall_mem_cons.2 ⟨?_, List.forall_mem_cons.2 ⟨?_, nofun⟩⟩
    · exact List.forall_mem_cons.2
        ⟨trivial, List.forall_mem_cons.2 ⟨.head _, nofun⟩⟩
    · exact List.forall_mem_cons.2
        ⟨.tail _ (.tail _ (.head _)), List.forall_mem_cons.2
        ⟨.tail _ (.head _), List.forall_mem_cons.2
          ⟨.tail _ (.tail _ (.tail _ (.head _))), nofun⟩⟩⟩
  have resolves : Node.samplePage.resolve .fresh = .ok _ _ := rfl
  obtain ⟨⟨new, hnew, hpaints⟩, -⟩ :=
    Session.sample_reached.firstPaint unmixed own resolves
  refine ⟨_, _, resolves, new, ?_, hnew, fun b hb => ?_⟩
  · rw [show new = _ from hnew.symm]
    rfl
  · obtain ⟨o, ho, hkey, hpainted, -⟩ := hpaints b hb
    exact ⟨o, ho, hkey, hpainted⟩

end Prerender
