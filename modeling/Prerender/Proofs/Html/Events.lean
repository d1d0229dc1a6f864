/-
The events of a tree, and that reading the written tree gives them back.

`events` says of each node what a reader is to find, without a look at
the renderer: an element with content opens and closes around it, any
other is a single tag, fragments are flat and booleans nothing, and an
attribute is there with its text, or without one, or not at all
(`readValue?`).

Neighbouring texts cannot be told apart in a document, nor can an empty
one be seen. `settle` merges texts while it goes through the events,
with the text that is not complete yet in hand, and reading keeps step
with it (`run_render`): between two nodes the reader stands in a text,
of which the one in hand is what it decodes to. This is the invariant of
the induction over the tree. It holds behind any text, so that rows are
read node by node (`run_settle_append`).

Within a tag the reader is at a place where the tag may end or go on
(`Reading.IsIn`). Each attribute leads from such a place to another one,
with one attribute more (`Reading.run_attributeText`); its value is read
up to the quote, whatever is in it, because escaping leaves no quote.

That the events are well nested needs no reader. Every element closes
what it opens, and what stands between is nested by induction
(`leftOpen_events`); texts make no difference.
-/
import Prerender.Html.Renderer
import Prerender.Proofs.Html.Reader
import Prerender.Proofs.Number.Digits
import Prerender.Proofs.Tree.Parts

namespace Prerender

namespace Html

-- ======================================================= what a reader finds

/-- The text of data in an attribute: text is itself, and everything else its
JSON. -/
def dataText : Json → String
  | .str s => s
  | data => data.compact

/-- What a reader finds of an option named `name`: nothing where its value is
null, false or not resolved, or reads as false in an attribute that means
something by being there at all; else the name, without a value where the
value is true. -/
def readValue? (name : String) : OptionValue → Option (Option String)
  | .reactive _ | .literal .null | .literal (.bool false) => none
  | .literal (.bool true) => some none
  | .literal data =>
      if booleanAttributes.contains name && isFalsy (dataText data) then none
      else some (some (dataText data))

/-- The attributes that a reader finds on an element, in the order of its
options. A child in the place of the options shows nothing. -/
def readAttributes : Slot → List (String × Option String)
  | .options map => map.entries.filterMap fun option =>
      (readValue? option.1 option.2).map (option.1, ·)
  | .child _ => []

mutual

/-- The events of a node, one for each text. -/
def events : Node → List Event
  | .text s | .markup s => [.text s]
  | .number d => [.text (numberText d)]
  | .bool _ => []
  | .fragment items => rowEvents items
  | .element e => elementEvents e

/-- The events of an element: a single one where it has no list of children or
never has content. -/
def elementEvents : Element → List Event
  | ⟨tag, slot, none⟩ => [.selfClosed tag (readAttributes slot)]
  | ⟨tag, slot, some children⟩ =>
      if voidTags.contains tag then [.selfClosed tag (readAttributes slot)]
      else .opening tag (readAttributes slot)
        :: (rowEvents children ++ [.closing tag])

/-- The events of nodes in a row. -/
def rowEvents : List Node → List Event
  | [] => []
  | node :: rest => events node ++ rowEvents rest

end

/-- The events with neighbouring texts as one, and the text at the end,
`pending` being the text in front. -/
def settle (pending : List Char) : List Event → List Event × List Char
  | [] => ([], pending)
  | .text s :: rest => settle (pending ++ s.toList) rest
  | tag :: rest =>
      (textEvent pending ++ tag :: (settle [] rest).1, (settle [] rest).2)

/-- The events with neighbouring texts as one and without empty texts. -/
def mergeTexts (all : List Event) : List Event :=
  (settle [] all).1 ++ textEvent (settle [] all).2

/-- Events may be gone through in two goes. -/
theorem settle_append (pending : List Char) (front back : List Event) :
    settle pending (front ++ back)
      = ((settle pending front).1 ++ (settle (settle pending front).2 back).1,
          (settle (settle pending front).2 back).2) := by
  induction front generalizing pending with
  | nil => rfl
  | cons event rest ih =>
      cases event with
      | text s => exact ih _
      | opening tag attributes | closing tag | selfClosed tag attributes =>
          simp only [List.cons_append, settle, ih, List.append_assoc]

-- ============================================================= reading tags

/-- What a reader finds of an attribute, as the document shows it. -/
def Shown.read? : Shown → Option (Option String)
  | .nothing => none
  | .bare => some none
  | .valued text => some (some text)

/-- A reader finds of an option what the renderer shows of it. -/
theorem readValue?_eq (name : String) (value : OptionValue) :
    readValue? name value = (shown name value).read? := by
  have htext : ∀ text, (shownText name text).read?
      = if booleanAttributes.contains name && isFalsy text then none else some
        (some text) :=
    fun text => apply_ite Shown.read? _ _ _
  cases value with
  | reactive _ => rfl
  | literal data =>
      cases data with
      | null => rfl
      | bool b => cases b <;> rfl
      | str s => exact (htext s).symm
      | int | double | arr | obj => exact (htext _).symm

/-- What is written for an option, by what a reader is to find. -/
theorem attributeText_eq (name : String) (value : OptionValue) :
    attributeText name value = match readValue? name value with
      | none => ""
      | some none => " " ++ name
      | some (some text) => " " ++ name ++ "=\x22" ++ escape text
          ++ "\x22" := by
  rw [readValue?_eq, attributeText]
  cases shown name value <;> rfl

namespace Reading

/-- Whether the reader is in a start tag that may end or go on here, the tag
being `tag` if it ends. -/
structure IsIn (r : Reading) (tag : StartTag) : Prop where
  blank : r.step ' ' = some ([], .gap tag)
  bracket : r.step '>' = some ([tag.opening], .text [])

theorem isIn_name (n : List Char) : IsIn (name n) ⟨n, []⟩ := ⟨rfl, rfl⟩

/-- The name of an attribute may be at the end of its tag, without a value. -/
theorem isIn_attributeName (tag : StartTag) (n : List Char) :
    IsIn (attributeName tag n) (tag.add n none) := ⟨rfl, rfl⟩

theorem isIn_behind (tag : StartTag) : IsIn (behind tag) tag := ⟨rfl, rfl⟩

/-- Characters of names mean nothing in a tag. -/
theorem ne_of_isNameChar {c : Char} (h : isNameChar c = true) :
    c ≠ ' ' ∧ c ≠ '>' ∧ c ≠ '=' ∧ c ≠ '/' := by
  refine ⟨?_, ?_, ?_, ?_⟩ <;> (rintro rfl; cases h)

theorem run_name {cs : List Char} (all : ∀ c ∈ cs, isNameChar c = true)
    (read : List Char) :
    (name read).run cs = some ([], name (read ++ cs)) := by
  refine run_collect (fun read c hc => ?_) all read
  obtain ⟨hblank, hbracket, -, -⟩ := ne_of_isNameChar hc
  simp [step, hblank, hbracket, continueName, hc]

theorem run_closing {cs : List Char} (all : ∀ c ∈ cs, isNameChar c = true)
    (read : List Char) :
    (closing read).run cs = some ([], closing (read ++ cs)) := by
  refine run_collect (fun read c hc => ?_) all read
  obtain ⟨-, hbracket, -, -⟩ := ne_of_isNameChar hc
  simp [step, hbracket, continueName, hc]

theorem run_attributeName {cs : List Char} (all : ∀ c ∈ cs, isNameChar c = true)
    (tag : StartTag) (read : List Char) :
    (attributeName tag read).run cs
      = some ([], attributeName tag (read ++ cs)) := by
  refine run_collect (fun read c hc => ?_) all read
  obtain ⟨hblank, hbracket, hequals, -⟩ := ne_of_isNameChar hc
  simp [step, hblank, hbracket, hequals, continueName, hc]

/-- A text is read up to its end, whatever is in it: its brackets are
escaped. -/
theorem run_text (cs raw : List Char) :
    (text raw).run (escapeChars cs)
      = some ([], text (raw ++ escapeChars cs)) := by
  refine run_collect (p := fun c => c ≠ '<') (fun read c hc => ?_) ?_ raw
  · simp [step, hc]
  · exact fun c hc => (ne_of_mem_escapeChars hc).1

/-- A value is read up to its end, whatever is in it: its quotes are escaped. -/
theorem run_value (tag : StartTag) (n cs raw : List Char) :
    (value tag n raw).run (escapeChars cs)
      = some ([], value tag n (raw ++ escapeChars cs)) := by
  refine run_collect (p := fun c => c ≠ '\x22') (fun read c hc => ?_) ?_ raw
  · simp [step, hc]
  · exact fun c hc => (ne_of_mem_escapeChars hc).2

end Reading

/-- The first character of a name, and the others. -/
theorem exists_of_isName {s : String} (h : isName s = true) :
    ∃ c rest, s.toList = c :: rest ∧ isNameChar c = true
      ∧ ∀ c ∈ rest, isNameChar c = true := by
  obtain ⟨hne, hall⟩ := isName_iff.1 h
  cases hlist : s.toList with
  | nil => exact absurd hlist hne
  | cons c rest =>
      rw [hlist] at hall
      exact ⟨c, rest, rfl, List.forall_mem_cons.1 hall⟩

namespace Reading

theorem run_gap {tag : StartTag} {s : String} (named : isName s = true) :
    (gap tag).run s.toList = some ([], attributeName tag s.toList) := by
  obtain ⟨c, rest, hlist, hc, hrest⟩ := exists_of_isName named
  obtain ⟨-, -, -, hslash⟩ := ne_of_isNameChar hc
  rw [hlist]
  refine run_cons_silent ?_ (run_attributeName hrest tag [c])
  simp [step, hslash, continueName, hc]

/-- An option is read as the attribute that it shows. -/
theorem run_attributeText {r : Reading} {tag : StartTag} (inTag : r.IsIn tag)
    {name : String} (named : isName name = true) (data : OptionValue) :
    ∃ r', r.run (attributeText name data).toList = some ([], r')
      ∧ r'.IsIn ⟨tag.name,
          tag.attributes ++ ((readValue? name data).map (name, ·)).toList⟩ := by
  have hadd : ∀ shown, tag.add name.toList shown
      = ⟨tag.name, tag.attributes ++ [(name, shown)]⟩ := by
    intro shown
    rw [StartTag.add, String.ofList_toList]
  have hname : r.run (' ' :: name.toList)
      = some ([], attributeName tag name.toList) :=
    run_cons_of inTag.blank (run_gap named)
  rw [attributeText_eq]
  cases readValue? name data with
  | none =>
      refine ⟨r, rfl, ?_⟩
      rw [Option.map_none, Option.toList_none, List.append_nil]
      exact inTag
  | some shown =>
      rw [Option.map_some, Option.toList_some, ← hadd]
      -- the name alone, or with a text, which is read up to its quote and
      -- decoded
      cases shown with
      | none =>
          refine ⟨_, ?_, isIn_attributeName tag name.toList⟩
          rw [String.toList_append]
          exact hname
      | some text =>
          have hvalue : (value tag name.toList []).run
            (escapeChars text.toList ++ ['\x22'])
              = some ([], behind (tag.add name.toList (some text))) := by
            refine run_append_of (run_value tag name.toList text.toList []) ?_
            refine run_cons_silent ?_ rfl
            rw [List.nil_append, step, if_pos rfl, decode_escapeChars,
              String.ofList_toList]
          refine ⟨_, ?_, isIn_behind (tag.add name.toList (some text))⟩
          simp only [String.toList_append, toList_escape, List.append_assoc]
          show r.run
            ((' ' :: name.toList) ++ '=' :: '\x22' :: (_ ++ ['\x22'])) = _
          refine run_append_of hname (run_cons_silent rfl ?_)
          exact run_cons_silent rfl hvalue

/-- Options are read as the attributes that they show. -/
theorem run_attributesText {r : Reading} {tag : StartTag} (inTag : r.IsIn tag)
    {options : List (String × OptionValue)}
    (named : ∀ option ∈ options, isName option.1 = true) :
    ∃ r', r.run (attributesText options).toList = some ([], r')
      ∧ r'.IsIn ⟨tag.name, tag.attributes
          ++ options.filterMap fun option =>
            (readValue? option.1 option.2).map (option.1, ·)⟩ := by
  induction options generalizing r tag with
  | nil =>
      refine ⟨r, rfl, ?_⟩
      rw [List.filterMap_nil, List.append_nil]
      exact inTag
  | cons option rest ih =>
      obtain ⟨name, value⟩ := option
      obtain ⟨hname, hrest⟩ := List.forall_mem_cons.1 named
      obtain ⟨mid, hfirst, hmid⟩ := run_attributeText inTag hname value
      obtain ⟨last, hothers, hlast⟩ := ih hmid hrest
      refine ⟨last, ?_, ?_⟩
      · rw [attributesText, String.toList_append]
        exact run_append_of hfirst hothers
      · rw [List.append_assoc] at hlast
        rw [List.filterMap_cons]
        cases hvalue : (readValue? name value).map (name, ·) <;> simpa
          [hvalue] using hlast

/-- The beginning of an element is read up to where its start tag may end, the
text in front of it being complete. -/
theorem run_openingText (pending : List Char) {tag : String} {slot : Slot}
    (named : isName tag = true)
    (options : ∀ option ∈ slot.optionsOrEmpty.entries, isName option.1 = true) :
    ∃ r, (text (escapeChars pending)).run (openingText tag slot).toList
        = some (textEvent pending, r)
      ∧ r.IsIn ⟨tag.toList, readAttributes slot⟩ := by
  have hbegin : (text (escapeChars pending)).run ('<' :: tag.toList)
      = some (textEvent pending, name tag.toList) := by
    obtain ⟨c, rest, hlist, hc, hrest⟩ := exists_of_isName named
    obtain ⟨-, -, -, hslash⟩ := ne_of_isNameChar hc
    have hname : angle.run (c :: rest) = some ([], name (c :: rest)) := by
      refine run_cons_silent ?_ (run_name hrest [c])
      simp [step, hslash, continueName, hc]
    rw [hlist, ← List.append_nil (textEvent pending)]
    refine run_cons_of ?_ hname
    rw [step, if_pos rfl, decode_escapeChars]
  cases slot with
  | child node =>
      refine ⟨_, ?_, isIn_name tag.toList⟩
      rw [openingText, String.toList_append]
      exact hbegin
  | options map =>
      obtain ⟨r, hrun, hin⟩ := run_attributesText (isIn_name tag.toList) options
      refine ⟨r, ?_, ?_⟩
      · rw [openingText, String.toList_append, String.toList_append,
          ← List.append_nil (textEvent _)]
        exact run_append_of hbegin hrun
      · exact hin

theorem run_selfClosing {r : Reading} {tag : StartTag} (inTag : r.IsIn tag) :
    r.run " />".toList = some ([tag.selfClosed], text []) :=
  run_cons_silent inTag.blank rfl

theorem run_opened {r : Reading} {tag : StartTag} (inTag : r.IsIn tag) :
    r.run ">".toList = some ([tag.opening], text []) :=
  run_cons_of inTag.bracket rfl

/-- An end tag completes the text in front of it. -/
theorem run_endTag (pending : List Char) {tag : String}
    (named : isName tag = true) :
    (text (escapeChars pending)).run ("</" ++ tag ++ ">").toList
      = some (textEvent pending ++ [.closing tag], text []) := by
  obtain ⟨c, rest, hlist, hc, hrest⟩ := exists_of_isName named
  have hname : (closing []).run tag.toList = some ([], closing tag.toList) := by
    rw [hlist]
    exact run_closing (List.forall_mem_cons.2 ⟨hc, hrest⟩) []
  have hclose :
      (closing tag.toList).run ['>'] = some ([.closing tag], text []) := by
    have hstep :
        (closing tag.toList).step '>' = some ([.closing tag], text []) := by
      rw [step, if_pos ⟨rfl, by rw [hlist]; nofun⟩, String.ofList_toList]
    exact run_cons_of hstep rfl
  have hwritten :
      ("</" ++ tag ++ ">").toList = '<' :: '/' :: (tag.toList ++ ['>']) := by
    rw [String.toList_append, String.toList_append]
    rfl
  rw [hwritten]
  have hangle :
      (text (escapeChars pending)).step '<'
        = some (textEvent pending, angle) := by
    rw [step, if_pos rfl, decode_escapeChars]
  have hslash :
      angle.run ('/' :: (tag.toList ++ ['>']))
        = some ([.closing tag], text []) :=
    run_cons_silent rfl (run_append_silent hname hclose)
  exact run_cons_of hangle hslash

end Reading

-- ============================================================ reading trees

/-- No character of numbers is written as an entity. -/
theorem isSpecial_of_isNumeralChar {c : Char}
    (h : Double.isNumeralChar c = true) :
    isSpecial c = false := by
  refine Bool.eq_false_iff.2 fun hspecial => ?_
  simp only [isSpecial, Bool.or_eq_true, beq_iff_eq] at hspecial
  rcases hspecial with (((rfl | rfl) | rfl) | rfl) | rfl
  all_goals exact absurd h (by decide)

/-- Fixed texts without entities can be checked. -/
theorem isSpecial_of_mem {cs : List Char}
    (h : (cs.all fun c => !isSpecial c) = true) :
    ∀ c ∈ cs, isSpecial c = false :=
  fun c hc => Bool.not_eq_eq_eq_not.1 (List.all_eq_true.1 h c hc)

/-- A number is written without characters that are read specially. -/
theorem isSpecial_of_mem_numberText {d : Double} :
    ∀ c ∈ (numberText d).toList, isSpecial c = false := by
  unfold numberText
  split
  · exact isSpecial_of_mem rfl
  · split
    · split <;> exact isSpecial_of_mem rfl
    · split
      · exact isSpecial_of_mem rfl
      · intro c hc
        exact isSpecial_of_isNumeralChar
          (Double.Layout.isNumeralChar_of_mem_text _ d c hc)

end Html

/-- Whether the node can be read back from the document: it is no markup, and
tag and options of an element are names. -/
def Node.IsReadable : Node → Prop
  | .markup _ => False
  | .element e => Html.isName e.tag = true
      ∧ ∀ option ∈ e.slot.optionsOrEmpty.entries, Html.isName option.1 = true
  | _ => True

namespace Html

variable {pending : List Char}

/-- A text comes behind the text in front of it. -/
theorem run_escape (pending : List Char) (s : String) :
    (Reading.text (escapeChars pending)).run (escape s).toList
      = some ((settle pending [.text s]).1,
        .text (escapeChars (settle pending [.text s]).2)) := by
  rw [toList_escape, Reading.run_text, ← escapeChars_append]
  rfl

/-- Reading what comes behind. -/
theorem run_settle_append {front back : List Event} {written rest : List Char}
    (first : (Reading.text (escapeChars pending)).run written
      = some ((settle pending front).1,
        .text (escapeChars (settle pending front).2)))
    (then_ : ∀ pending, (Reading.text (escapeChars pending)).run rest
      = some ((settle pending back).1,
        .text (escapeChars (settle pending back).2))) :
    (Reading.text (escapeChars pending)).run (written ++ rest)
      = some ((settle pending (front ++ back)).1,
          .text (escapeChars (settle pending (front ++ back)).2)) := by
  rw [settle_append]
  exact Reading.run_append_of first (then_ _)

mutual

/-- Reading a node that is written gives its events, behind any text. -/
theorem run_render :
    ∀ (node : Node), (∀ part ∈ node.parts, part.IsReadable) → ∀ pending,
    (Reading.text (escapeChars pending)).run (render node).toList
      = some ((settle pending (events node)).1,
        .text (escapeChars (settle pending (events node)).2))
  | .text s, _, pending => run_escape pending s
  | .markup s, readable, _ => (readable _ (.head _)).elim
  | .number d, _, pending => by
      have hplain : (escape (numberText d)) = numberText d := by
        rw [← String.toList_inj, toList_escape]
        exact escapeChars_of_not_special isSpecial_of_mem_numberText
      rw [render, ← hplain, run_escape]
      rfl
  | .bool _, _, _ => rfl
  | .fragment items, readable, pending => by
      rw [Node.parts, List.forall_mem_cons] at readable
      exact run_renderAll items readable.2 pending
  | .element e, readable, pending => by
      rw [Node.parts, List.forall_mem_cons] at readable
      exact run_renderElement e readable.1 readable.2 pending

/-- An element is read as its tags with what is read between them. -/
theorem run_renderElement : ∀ (e : Element), (Node.element e).IsReadable →
    (∀ part ∈ e.parts, part.IsReadable) → ∀ pending,
    (Reading.text (escapeChars pending)).run (renderElement e).toList
      = some ((settle pending (elementEvents e)).1,
          .text (escapeChars (settle pending (elementEvents e)).2))
  | ⟨tag, slot, children⟩, named, readable, pending => by
      obtain ⟨htag, hoptions⟩ := named
      obtain ⟨r, hopening, hin⟩ := Reading.run_openingText pending htag hoptions
      have hself : (Reading.text (escapeChars pending)).run
        (openingText tag slot ++ " />").toList
          = some (textEvent pending ++ [.selfClosed tag (readAttributes slot)],
            .text []) := by
        rw [String.toList_append]
        have h := Reading.run_append_of hopening (Reading.run_selfClosing hin)
        rw [StartTag.selfClosed, String.ofList_toList] at h
        exact h
      cases children with
      | none => exact hself
      | some children =>
          rw [renderElement, elementEvents]
          cases hvoid : voidTags.contains tag with
          | true => exact hself
          | false =>
              rw [Element.parts, Node.childParts, List.forall_mem_append]
                at readable
              have hchildren := run_renderAll children readable.2 []
              have hend :=
                Reading.run_endTag (settle [] (rowEvents children)).2 htag
              have hinside := Reading.run_append_of hchildren hend
              have hopened :=
                Reading.run_append_of hopening (Reading.run_opened hin)
              have hall := Reading.run_append_of hopened hinside
              rw [StartTag.opening, String.ofList_toList] at hall
              simp only [String.toList_append, Bool.false_eq_true, if_false,
                settle, settle_append, List.append_assoc] at hall ⊢
              exact hall

/-- Nodes in a row are read one after the other. -/
theorem run_renderAll :
    ∀ (row : List Node), (∀ part ∈ Node.rowParts row, part.IsReadable) →
    ∀ pending, (Reading.text (escapeChars pending)).run (renderAll row).toList
      = some ((settle pending (rowEvents row)).1,
        .text (escapeChars (settle pending (rowEvents row)).2))
  | [], _, _ => rfl
  | node :: rest, readable, pending => by
      rw [Node.rowParts, List.forall_mem_append] at readable
      rw [renderAll, rowEvents, String.toList_append]
      exact run_settle_append (run_render node readable.1 pending)
        fun pending => run_renderAll rest readable.2 pending

end

/-- Reading a written tree gives its events, neighbouring texts as one. -/
theorem read_render {node : Node}
    (readable : ∀ part ∈ node.parts, part.IsReadable) :
    read (render node) = some (mergeTexts (events node)) := by
  have hrun := run_render node readable []
  rw [escapeChars, List.flatMap_nil] at hrun
  rw [read, hrun]
  show some (_ ++ textEvent (decode (escapeChars _))) = _
  rw [decode_escapeChars]
  rfl

-- ============================================================== nesting

/-- The tags that are still open after some events, the innermost first;
`inside` are those that were open before. An end tag closes the innermost one
and no other. -/
def leftOpen (inside : List String) : List Event → Option (List String)
  | [] => some inside
  | .opening tag _ :: rest => leftOpen (tag :: inside) rest
  | .closing tag :: rest =>
      match inside with
      | [] => none
      | innermost :: outer =>
          if innermost = tag then leftOpen outer rest else none
  | .text _ :: rest | .selfClosed _ _ :: rest => leftOpen inside rest

/-- Whether every tag that opens closes again, after those that opened later. -/
def WellNested (all : List Event) : Prop := leftOpen [] all = some []

/-- Tags that events in a row leave open. -/
theorem leftOpen_append (inside : List String) (front back : List Event) :
    leftOpen inside (front ++ back)
      = (leftOpen inside front).bind (leftOpen · back) := by
  induction front generalizing inside with
  | nil => rfl
  | cons event rest ih =>
      cases event with
      | text s => exact ih inside
      | selfClosed tag attributes => exact ih inside
      | opening tag attributes => exact ih (tag :: inside)
      | closing tag =>
          cases inside with
          | nil => rfl
          | cons innermost outer =>
              rw [List.cons_append, leftOpen, leftOpen]
              by_cases h : innermost = tag
              · rw [if_pos h, if_pos h]
                exact ih outer
              · rw [if_neg h, if_neg h]
                rfl

theorem leftOpen_textEvent_append (inside : List String) (cs : List Char)
    (back : List Event) :
    leftOpen inside (textEvent cs ++ back) = leftOpen inside back := by
  unfold textEvent
  split <;> rfl

/-- Merging texts leaves the same tags open. -/
theorem leftOpen_settle (inside : List String) (pending : List Char)
    (all : List Event) :
    leftOpen inside (settle pending all).1 = leftOpen inside all := by
  induction all generalizing inside pending with
  | nil => rfl
  | cons event rest ih =>
      cases event with
      | text s => exact ih inside _
      | selfClosed tag attributes =>
          show leftOpen inside (textEvent pending ++ .selfClosed tag attributes
            :: (settle [] rest).1) = _
          rw [leftOpen_textEvent_append]
          exact ih inside []
      | opening tag attributes =>
          show leftOpen inside (textEvent pending ++ .opening tag attributes
            :: (settle [] rest).1) = _
          rw [leftOpen_textEvent_append]
          exact ih (tag :: inside) []
      | closing tag =>
          show leftOpen inside
            (textEvent pending ++ .closing tag :: (settle [] rest).1) = _
          rw [leftOpen_textEvent_append]
          cases inside with
          | nil => rfl
          | cons innermost outer =>
              rw [leftOpen, leftOpen]
              by_cases h : innermost = tag
              · rw [if_pos h, if_pos h]
                exact ih outer []
              · rw [if_neg h, if_neg h]

mutual

/-- A node leaves open what was open before. -/
theorem leftOpen_events : ∀ (node : Node) (inside : List String),
    leftOpen inside (events node) = some inside
  | .text _, _ | .markup _, _ | .number _, _ | .bool _, _ => rfl
  | .fragment items, inside => leftOpen_rowEvents items inside
  | .element e, inside => leftOpen_elementEvents e inside

theorem leftOpen_elementEvents : ∀ (e : Element) (inside : List String),
    leftOpen inside (elementEvents e) = some inside
  | ⟨_, _, none⟩, _ => rfl
  | ⟨tag, slot, some children⟩, inside => by
      rw [elementEvents]
      cases voidTags.contains tag with
      | true => rfl
      | false =>
          show leftOpen (tag :: inside) (rowEvents children ++ [.closing tag])
            = some inside
          rw [leftOpen_append, leftOpen_rowEvents children]
          exact if_pos rfl

theorem leftOpen_rowEvents : ∀ (row : List Node) (inside : List String),
    leftOpen inside (rowEvents row) = some inside
  | [], _ => rfl
  | node :: rest, inside => by
      rw [rowEvents, leftOpen_append, leftOpen_events node]
      exact leftOpen_rowEvents rest inside

end

/-- The events of a tree are well nested, whatever texts and values it holds. -/
theorem wellNested_mergeTexts (node : Node) :
    WellNested (mergeTexts (events node)) := by
  rw [WellNested, mergeTexts, leftOpen_append, leftOpen_settle, leftOpen_events]
  rw [← List.append_nil (textEvent _)]
  exact leftOpen_textEvent_append [] _ []

end Html
end Prerender
