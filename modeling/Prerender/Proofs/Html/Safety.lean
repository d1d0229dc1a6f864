/-
Data never becomes markup.

A tree without markup, whose tags and options have names, can be read
back from its document (`Proofs/Html/Events`). Here it is shown that
resolving keeps it so. Two things change in a resolved tree.

1. Options end under other names: in small letters, in kebab case, as
   `key` or as the name for handles. These are names again, since no
   letter has its small form among the signs of markup
   (`isNameChar_of_mem_lowerChar`). For a letter beyond ASCII this is
   read off the table of small letters.
2. Options put content into elements. What comes of data holds neither
   markup nor elements (`Node.isReadable_ofJson`). The one way to markup
   is an option that sets it, which the author has to write
   (`Node.setsMarkup`).

The options are worked off one by one, with an invariant on the element
under way: its tag and the names of its options are names, and what was
put in front of its children is readable (`Host.IsReadable`). From there
the tree follows by induction (`Node.isReadable_resolve`).

The document of a resolved tree is therefore read as its events, with
every text and every value as it was (`Node.read_render_resolve`).
-/
import Prerender.Proofs.Html.Events
import Prerender.Proofs.Resolve.Success
import Prerender.Proofs.Tree.OptionName

namespace Prerender

-- ====================================================== names stay names

namespace Html

/-- Every character from the small letters on may stand in names. -/
theorem isNameChar_of_le {c : Char} (h : 97 ≤ c.toNat) :
    isNameChar c = true := by
  refine Classical.byContradiction fun hbad => ?_
  simp only [isNameChar, Bool.not_eq_true', Bool.not_eq_false, Bool.or_eq_true,
    beq_iff_eq] at hbad
  rcases hbad with
    (((((((((rfl | rfl) | rfl) | rfl) | rfl) | rfl) | rfl) | rfl) | rfl) | rfl)
      | rfl
  all_goals exact absurd h (by decide)

/-- No letter has its small form among the signs of markup. -/
theorem isNameChar_of_mem_lowerChar {c d : Char} (h : isNameChar c = true)
    (hd : d ∈ Text.lowerChar c) : isNameChar d = true := by
  rcases Text.lowerChar_cases c with
    ⟨hascii, heq⟩ | ⟨-, ⟨e, heq, rfl | hbeyond⟩ | heq⟩
  · have hall : isNameChar c = true → isNameChar c.toLower = true :=
      Text.forall_ascii (p :=
        fun c => isNameChar c = true → isNameChar c.toLower = true)
        (by decide) hascii
    rw [heq, List.mem_singleton] at hd
    rw [hd]
    exact hall h
  · rw [heq, List.mem_singleton] at hd
    rw [hd]
    rfl
  · rw [heq, List.mem_singleton] at hd
    rw [hd]
    exact isNameChar_of_le (by omega)
  · simp only [heq, List.mem_cons, List.not_mem_nil, or_false] at hd
    rcases hd with rfl | rfl <;> rfl

/-- A name in small letters is a name. -/
theorem isName_lowercase {s : String} (h : isName s = true) :
    isName (Text.lowercase s) = true := by
  obtain ⟨hne, hall⟩ := isName_iff.1 h
  rw [isName_iff, Text.lowercase, String.toList_ofList]
  refine ⟨?_, Text.forall_mem_lowerAfter (fun _ => ⟨rfl, rfl⟩) fun c hc d hd =>
    isNameChar_of_mem_lowerChar (hall c hc) hd⟩
  cases hlist : s.toList with
  | nil => exact absurd hlist hne
  | cons c rest =>
      rw [Text.lowerAfter]
      refine List.append_ne_nil_of_left_ne_nil ?_ _
      split
      · exact List.cons_ne_nil _ _
      · exact Text.lowerChar_ne_nil c

/-- A name in kebab case is a name. -/
theorem isName_kebab {s : String} (h : isName s = true) :
    isName (OptionName.kebab s) = true := by
  obtain ⟨hne, hall⟩ := isName_iff.1 h
  rw [isName_iff, OptionName.kebab, String.toList_ofList]
  refine ⟨?_, OptionName.forall_mem_kebabAfter rfl fun c hc d hd =>
    isNameChar_of_mem_lowerChar (hall c hc) hd⟩
  cases hlist : s.toList with
  | nil => exact absurd hlist hne
  | cons c rest =>
      rw [OptionName.kebabAfter]
      refine List.append_ne_nil_of_left_ne_nil ?_ _
      exact List.append_ne_nil_of_right_ne_nil _ (Text.lowerChar_ne_nil c)

end Html

/-- Every option ends under a name. -/
theorem OptionValue.isName_finalName {name : String}
    (h : Html.isName name = true)
    (value : OptionValue) : Html.isName (value.finalName name) = true := by
  cases value with
  | literal data => exact Html.isName_kebab h
  | reactive value =>
      cases value with
      | state link => exact Html.isName_lowercase h
      | observer o => exact Html.isName_lowercase h
      | reference handle =>
          show Html.isName OptionName.reference = true
          decide

/-- Whether every name of an option is a name of the document. -/
def OptionMap.IsNamed (options : OptionMap) : Prop :=
  ∀ option ∈ options.entries, Html.isName option.1 = true

namespace OptionMap.IsNamed

variable {options : OptionMap}

theorem erase (h : options.IsNamed) (name : String) :
    IsNamed (options.erase name) :=
  fun _ hmem => h _ (List.mem_filter.1 hmem).1

/-- An option more, if it has a name. -/
theorem insert (h : options.IsNamed) {name : String}
    (named : Html.isName name = true)
    (value : OptionValue) : IsNamed (options.insert name value) := by
  intro option hmem
  rcases OrderedMap.mem_names_put.1 (List.mem_map_of_mem hmem) with heq | hold
  · rw [heq]
    exact named
  · obtain ⟨old, hmem, heq⟩ := List.mem_map.1 hold
    rw [← heq]
    exact h old hmem

/-- An option for another one, if it has a name. -/
theorem rewrite (h : options.IsNamed) {name : String}
    (named : Html.isName name = true)
    (value : OptionValue) :
    (options.rewrite name (value.attribute? name)).IsNamed := by
  cases hattribute : value.attribute? name with
  | none => exact h.erase name
  | some shown =>
      obtain ⟨final, data⟩ := shown
      obtain ⟨-, -, rfl⟩ := OptionValue.attribute?_eq_some_iff.1 hattribute
      exact (h.erase name).insert (OptionValue.isName_finalName named value) _

end OptionMap.IsNamed

-- =========================================== resolving keeps trees readable

instance : DecidablePred Node.IsReadable
  | .text _ | .number _ | .bool _ | .fragment _ => isTrue trivial
  | .markup _ => isFalse id
  | .element _ => inferInstanceAs (Decidable (_ ∧ _))

/-- Whether a node sets the markup of an element through an option. -/
def Node.setsMarkup : Node → Bool
  | .element e => e.slot.optionsOrEmpty.entries.any fun option =>
      OptionName.content? option.1 == some .markup
  | _ => false

namespace Node

mutual

/-- Data holds neither markup nor elements. -/
theorem isReadable_ofJson : ∀ data : Json,
    ∀ part ∈ (ofJson data).parts, part.IsReadable
  | .null | .bool _ | .int _ | .double _ | .str _ | .obj _ => by
      unfold ofJson parts
      exact List.forall_mem_cons.2 ⟨trivial, nofun⟩
  | .arr items => by
      rw [ofJson, parts]
      exact List.forall_mem_cons.2 ⟨trivial, isReadable_ofJsonItems items⟩

theorem isReadable_ofJsonItems : ∀ items : List Json,
    ∀ part ∈ rowParts (ofJsonItems items), part.IsReadable
  | [] => nofun
  | item :: rest => by
      rw [ofJsonItems, rowParts, List.forall_mem_append]
      exact ⟨isReadable_ofJson item, isReadable_ofJsonItems rest⟩

end

end Node

/-- What the reader needs of an element whose options are being worked off. -/
structure Host.IsReadable (host : Host) : Prop where
  tag : Html.isName host.tag = true
  options : host.options.IsNamed
  lead : ∀ part ∈ Node.rowParts host.content.lead, part.IsReadable

namespace Host.IsReadable

theorem keyedOptions {host : Host} (h : host.IsReadable) (next : UInt32)
    (value : OptionValue) :
    (host.keyedOptions next value).IsNamed := by
  unfold Host.keyedOptions
  split
  · exact h.options.insert rfl _
  · exact h.options

/-- One option keeps the element readable, unless it sets markup. -/
theorem applyOption {host host' : Host} {name : String} {value : OptionValue}
    {pass pass' : Pass} (h : host.IsReadable) (named : Html.isName name = true)
    (plain : OptionName.content? name ≠ some .markup)
    (step : host.applyOption (name, value) pass = .ok host' pass') :
    host'.IsReadable := by
  obtain ⟨htag, hoptions, hcontent, -⟩ := Host.applyOption_ok step
  refine ⟨?_, ?_, ?_⟩
  · rw [htag]
    exact h.tag
  · rw [hoptions]
    exact (h.keyedOptions _ value).rewrite named value
  · rcases Content.take?_cases hcontent with
      ⟨heq, -⟩ | ⟨kind, data, hkind, -, hput⟩
    · rw [heq]
      exact h.lead
    · have hname : OptionName.content? name = some kind := by
        unfold OptionValue.content? at hkind
        split at hkind
        · cases hkind
        · exact hkind
      have htext : kind = .text := by
        cases kind with
        | text => rfl
        | markup => exact absurd hname plain
      subst htext
      rcases hput with ⟨-, heq⟩ | ⟨-, rest, keeps, hbefore, heq⟩
      · rw [heq]
        exact List.forall_mem_append.2 ⟨Node.isReadable_ofJson data, nofun⟩
      · rw [heq]
        refine List.forall_mem_append.2 ⟨Node.isReadable_ofJson data, ?_⟩
        have hlead := h.lead
        rw [hbefore] at hlead
        exact hlead

end Host.IsReadable

mutual

/-- Resolving keeps a tree readable, if no option of it sets markup. -/
theorem Node.isReadable_resolve : ∀ {node out : Node} {pass pass' : Pass},
    (∀ part ∈ node.parts, part.IsReadable ∧ part.setsMarkup = false) →
    node.resolve pass = .ok out pass' → ∀ part ∈ out.parts, part.IsReadable
  | .text _, _, _, _, plain, h | .markup _, _, _, _, plain, h | .number _, _,
      _, _, plain, h
  | .bool _, _, _, _, plain, h | .fragment _, _, _, _, plain, h => by
      cases h
      exact fun part hpart => (plain part hpart).1
  | .element e, out, pass, pass', plain, h => by
      obtain ⟨o, hresolve, rfl⟩ := Node.resolve_element_ok.1 h
      rw [Node.parts, List.forall_mem_cons] at plain
      rw [Node.parts, List.forall_mem_cons]
      exact e.isReadable_resolve plain.1 plain.2 hresolve

/-- An element stays readable, and so does what is in it. -/
theorem Element.isReadable_resolve :
    ∀ (e : Element) {o : Element} {pass pass' : Pass},
    (Node.element e).IsReadable ∧ (Node.element e).setsMarkup = false →
    (∀ part ∈ e.parts, part.IsReadable ∧ part.setsMarkup = false) →
    e.resolve pass = .ok o pass' →
      (Node.element o).IsReadable ∧ ∀ part ∈ o.parts, part.IsReadable
  | ⟨tag, .child node, children⟩, o, pass, pass', own, plain, h => by
      rw [Element.parts, Slot.parts, List.forall_mem_append] at plain
      obtain ⟨-, first, mid, rest, hfirst, hrest, rfl⟩ :=
        Element.resolve_child_ok.1 h
      rw [Element.parts, Slot.parts, List.nil_append, Node.childParts,
        Node.rowParts, List.forall_mem_append]
      exact ⟨⟨own.1.1, nofun⟩, Node.isReadable_resolve plain.1 hfirst,
        Node.isReadable_resolveChildren plain.2 hrest⟩
  | ⟨tag, .options map, children⟩, o, pass, pass', own, plain, h => by
      rw [Element.parts, Slot.parts, List.nil_append] at plain
      obtain ⟨host, mid, hoptions, hends⟩ := Element.resolve_options_ok h
      have hstart : Host.IsReadable ⟨tag, map, .ofChildren children⟩ := by
        refine ⟨own.1.1, own.1.2, ?_⟩
        cases children <;> nofun
      have hhost : host.IsReadable := by
        refine Host.applyOptions_keeps ?_ hoptions hstart
        intro option hmem mid mid' midPass midPass' hmid hstep
        refine hmid.applyOption (own.1.2 option hmem) (fun hmarkup => ?_) hstep
        have hnone := List.any_eq_false.1 own.2 option hmem
        exact hnone (beq_iff_eq.2 hmarkup)
      have hlead := hhost.lead
      rcases hends with ⟨-, -, -, rfl, -⟩ | ⟨lead, hcontent, -, rfl, -⟩
        | ⟨lead, rest, hcontent, -, hrest, rfl⟩
      · exact ⟨⟨own.1.1, hhost.options⟩, nofun⟩
      · rw [hcontent] at hlead
        exact ⟨⟨own.1.1, hhost.options⟩, hlead⟩
      · rw [hcontent] at hlead
        refine ⟨⟨own.1.1, hhost.options⟩, ?_⟩
        rw [Element.parts, Slot.parts, List.nil_append, Node.childParts,
          Node.rowParts_append, List.forall_mem_append]
        exact ⟨hlead, Node.isReadable_resolveChildren plain hrest⟩

theorem Node.isReadable_resolveChildren :
    ∀ {children : Option (List Node)} {nodes : List Node}
    {pass pass' : Pass},
    (∀ part ∈ Node.childParts children, part.IsReadable
      ∧ part.setsMarkup = false) →
    Node.resolveChildren children pass = .ok nodes pass' →
      ∀ part ∈ Node.rowParts nodes, part.IsReadable
  | none, _, _, _, _, h => by
      cases h
      nofun
  | some children, _, _, _, plain, h => by
      rw [Node.resolveChildren] at h
      rw [Node.childParts] at plain
      exact Node.isReadable_resolveAll plain h

theorem Node.isReadable_resolveAll :
    ∀ {row nodes : List Node} {pass pass' : Pass},
    (∀ part ∈ Node.rowParts row, part.IsReadable ∧ part.setsMarkup = false) →
    Node.resolveAll row pass = .ok nodes pass' →
    ∀ part ∈ Node.rowParts nodes, part.IsReadable
  | [], _, _, _, _, h => by
      cases h
      nofun
  | node :: rest, nodes, pass, pass', plain, h => by
      rw [Node.rowParts, List.forall_mem_append] at plain
      obtain ⟨first, mid, others, hfirst, hothers, rfl⟩ :=
        Node.resolveAll_cons_ok.1 h
      rw [Node.rowParts, List.forall_mem_append]
      exact ⟨Node.isReadable_resolve plain.1 hfirst,
        Node.isReadable_resolveAll plain.2 hothers⟩

end

/-- The document of a resolved tree is read as the events of that tree, which
are well nested, as long as the tree has no markup and no option that sets
any, and its tags and options have names: whatever stands in texts and values
comes back as it was. -/
theorem Node.read_render_resolve {node out : Node} {pass pass' : Pass}
    (readable : ∀ part ∈ node.parts, part.IsReadable)
    (plain : ∀ part ∈ node.parts, part.setsMarkup = false)
    (h : node.resolve pass = .ok out pass') :
    Html.read (Html.render out) = some (Html.mergeTexts (Html.events out))
      ∧ Html.WellNested (Html.mergeTexts (Html.events out)) := by
  have hout := Node.isReadable_resolve
    (fun part hpart => ⟨readable part hpart, plain part hpart⟩) h
  exact ⟨Html.read_render hout, Html.wellNested_mergeTexts out⟩

/-- A paragraph full of signs of markup: in an attribute, in a text that
follows a cell, and in the text of a child. Its `hidden` has a value that
stands for false. -/
def Node.sampleQuote : Node :=
  let words : Json := .arr [.str "</p>", .bool true, .str "&lt;"]
  .element ⟨"p", .options (.ofList [
    ("innerText", .reactive (.state ⟨⟨0⟩, .literal words, none⟩)),
    ("dataTitle", .literal (.str "\x22><b id='c")),
    ("hidden", .literal (.str "0"))]), some [.text "<br />"]⟩

/-- The child is gone, since the cell takes its place; everything else is
found as it was. -/
theorem Node.sampleQuote_read :
    ∃ out pass', Node.sampleQuote.resolve .fresh = .ok out pass'
    ∧ Html.read (Html.render out) = some [
        .opening "p" [("key", some "0"), ("data-title", some "\x22><b id='c")],
        .text "</p>&lt;", .closing "p"] := by
  have hresolve : Node.sampleQuote.resolve .fresh = .ok _ _ := rfl
  have hread := (Node.read_render_resolve (by decide) (by decide) hresolve).1
  exact ⟨_, _, hresolve, hread⟩

end Prerender
