/-
A reader of documents that knows tags and text and nothing else.

It goes through the characters with a state (`Reading`): in a text,
behind the `<` of a tag, in a name, in a value, and so on. It reports an
event for every tag that closes and for every text in front of a tag,
and it refuses what is no tag behind a `<`. Nothing in it depends on the
renderer, so it can be asked what a document says.

What it makes of written texts is the other half of escaping. Entities
are decoded once, from left to right, which gives back what was escaped
(`decode_escapeChars`), because an escaped character begins with the
only `&` that was not there before. And an escaped text never leaves the
state that it is read in, since neither a `<` nor a quote is left in it
(`ne_of_mem_escapeChars`).

Readings of texts in a row are put together from those of the texts
(`Reading.run_append_of`), which lets proofs follow a document in the
order in which it is written.
-/
import Prerender.Html.Escape

namespace Prerender.Html

-- ============================================================== entities

/-- The characters that a written text stands for: entities are decoded,
once. -/
def decode : List Char → List Char
  | '&' :: 'a' :: 'm' :: 'p' :: ';' :: rest => '&' :: decode rest
  | '&' :: 'l' :: 't' :: ';' :: rest => '<' :: decode rest
  | '&' :: 'g' :: 't' :: ';' :: rest => '>' :: decode rest
  | '&' :: 'q' :: 'u' :: 'o' :: 't' :: ';' :: rest => '\x22' :: decode rest
  | '&' :: '#' :: 'x' :: '2' :: '7' :: ';' :: rest => '\x27' :: decode rest
  | c :: rest => c :: decode rest
  | [] => []

/-- The written form of some characters. -/
def escapeChars (cs : List Char) : List Char := cs.flatMap escapeChar

/-- Texts are escaped character by character. -/
theorem toList_escape (s : String) : (escape s).toList = escapeChars s.toList :=
  String.toList_ofList

/-- Texts in a row are escaped each by itself. -/
theorem escapeChars_append (front back : List Char) :
    escapeChars (front ++ back) = escapeChars front ++ escapeChars back :=
  List.flatMap_append

/-- The characters that are written as entities. -/
def isSpecial (c : Char) : Bool :=
  c == '&' || c == '<' || c == '>' || c == '\x22' || c == '\x27'

/-- Only special characters have an entity. -/
theorem escapeChar_of_not_special {c : Char} (h : isSpecial c = false) :
    escapeChar c = [c] := by
  simp only [isSpecial, Bool.or_eq_false_iff, beq_eq_false_iff_ne] at h
  obtain ⟨⟨⟨⟨hamp, hlt⟩, hgt⟩, hquote⟩, hapostrophe⟩ := h
  unfold escapeChar
  split
  · exact absurd rfl hamp
  · exact absurd rfl hlt
  · exact absurd rfl hgt
  · exact absurd rfl hquote
  · exact absurd rfl hapostrophe
  · rfl

/-- A text without special characters is written as it is. -/
theorem escapeChars_of_not_special {cs : List Char}
    (h : ∀ c ∈ cs, isSpecial c = false) :
    escapeChars cs = cs := by
  induction cs with
  | nil => rfl
  | cons c rest ih =>
      obtain ⟨hc, hrest⟩ := List.forall_mem_cons.1 h
      rw [escapeChars, List.flatMap_cons, escapeChar_of_not_special hc]
      exact congrArg (c :: ·) (ih hrest)

/-- Nothing but an ampersand begins an entity. -/
theorem decode_cons_of_ne {c : Char} (h : c ≠ '&') (rest : List Char) :
    decode (c :: rest) = c :: decode rest := by
  conv => lhs; unfold decode
  split <;> simp_all

/-- A written character is decoded to itself, whatever follows. -/
theorem decode_escapeChar_append (c : Char) (rest : List Char) :
    decode (escapeChar c ++ rest) = c :: decode rest := by
  unfold escapeChar
  split
  · rfl
  · rfl
  · rfl
  · rfl
  · rfl
  · next hamp _ _ _ _ => exact decode_cons_of_ne hamp rest

@[simp] theorem decode_escapeChars (cs : List Char) :
    decode (escapeChars cs) = cs := by
  induction cs with
  | nil => rfl
  | cons c rest ih =>
      rw [escapeChars, List.flatMap_cons, decode_escapeChar_append]
      exact congrArg (c :: ·) ih

/-- Neither a `<` nor a quote is left in an escaped text. -/
theorem ne_of_mem_escapeChars {cs : List Char} {c : Char}
    (h : c ∈ escapeChars cs) :
    c ≠ '<' ∧ c ≠ '\x22' := by
  obtain ⟨d, -, hd⟩ := List.mem_flatMap.1 h
  unfold escapeChar at hd
  split at hd
  case h_6 =>
    next hlt _ hquote _ =>
    cases List.mem_singleton.1 hd
    exact ⟨hlt, hquote⟩
  all_goals
    exact ⟨fun heq => absurd (heq ▸ hd) (by decide), fun heq =>
      absurd (heq ▸ hd) (by decide)⟩

-- =================================================================== names

/-- Whether a character may stand in the name of a tag or an attribute: it is
no blank, no quote and none of the signs that tags are made with. -/
def isNameChar (c : Char) : Bool :=
  !(c == ' ' || c == '\t' || c == '\n' || c == '\x0c' || c == '\r'
    || c == '\x22' || c == '\x27' || c == '/' || c == '<' || c == '='
    || c == '>')

/-- Whether a text may be the name of a tag or an attribute. -/
def isName (s : String) : Bool := !s.toList.isEmpty && s.toList.all isNameChar

/-- A name is not empty and has characters of names. -/
theorem isName_iff {s : String} :
    isName s = true ↔ s.toList ≠ [] ∧ ∀ c ∈ s.toList, isNameChar c = true := by
  rw [isName, Bool.and_eq_true, Bool.not_eq_true', List.isEmpty_eq_false_iff,
    List.all_eq_true]

-- ================================================================= reading

/-- What a reader comes by. -/
inductive Event where
  | text (s : String)
  /-- The start tag of an element whose content follows. -/
  | opening (tag : String) (attributes : List (String × Option String))
  | closing (tag : String)
  /-- The tag of an element without content. -/
  | selfClosed (tag : String) (attributes : List (String × Option String))
deriving DecidableEq

/-- A start tag as far as it is read. -/
structure StartTag where
  name : List Char
  attributes : List (String × Option String)

namespace StartTag

/-- The tag with a further attribute. -/
def add (tag : StartTag) (name : List Char) (value : Option String) :
    StartTag :=
  { tag with attributes := tag.attributes ++ [(String.ofList name, value)] }

/-- The event of the tag, if it ends here. -/
def opening (tag : StartTag) : Event :=
  .opening (String.ofList tag.name) tag.attributes

/-- The event of the tag, if it closes itself. -/
def selfClosed (tag : StartTag) : Event :=
  .selfClosed (String.ofList tag.name) tag.attributes

end StartTag

/-- Where the reader is. -/
inductive Reading where
  /-- In a text, of which `raw` is read. -/
  | text (raw : List Char)
  /-- Behind a `<`. -/
  | angle
  /-- In the name of an end tag. -/
  | closing (name : List Char)
  /-- In the name of a start tag. -/
  | name (name : List Char)
  /-- Behind a blank in a start tag. -/
  | gap (tag : StartTag)
  /-- In the name of an attribute. -/
  | attributeName (tag : StartTag) (name : List Char)
  /-- Behind the `=` of an attribute. -/
  | equals (tag : StartTag) (name : List Char)
  /-- In the value of an attribute, of which `raw` is read. -/
  | value (tag : StartTag) (name raw : List Char)
  /-- Behind the value of an attribute. -/
  | behind (tag : StartTag)
  /-- Behind the `/` of a tag that closes itself. -/
  | slash (tag : StartTag)

/-- The event of a text; an empty one is none. -/
def textEvent (cs : List Char) : List Event :=
  if cs.isEmpty then [] else [.text (String.ofList cs)]

namespace Reading

/-- The reading that continues a name, if the character may stand in one. -/
def continueName (c : Char) (reading : Reading) :
    Option (List Event × Reading) :=
  if isNameChar c then some ([], reading) else none

/-- What one character does: the events it completes, and where the reader is
then. -/
def step : Reading → Char → Option (List Event × Reading)
  | text raw, c =>
      if c = '<' then some (textEvent (decode raw), angle)
      else some ([], text (raw ++ [c]))
  | angle, c =>
      if c = '/' then some ([], closing []) else continueName c (name [c])
  | closing n, c =>
      if c = '>' ∧ n ≠ [] then some ([.closing (String.ofList n)], text [])
      else continueName c (closing (n ++ [c]))
  | name n, c =>
      if c = ' ' then some ([], gap ⟨n, []⟩)
      else if c = '>' then some ([StartTag.opening ⟨n, []⟩], text [])
      else continueName c (name (n ++ [c]))
  | gap tag, c =>
      if c = '/' then some ([], slash tag)
      else continueName c (attributeName tag [c])
  | attributeName tag n, c =>
      if c = ' ' then some ([], gap (tag.add n none))
      else if c = '>' then some ([(tag.add n none).opening], text [])
      else if c = '=' then some ([], equals tag n)
      else continueName c (attributeName tag (n ++ [c]))
  | equals tag n, c => if c = '\x22' then some ([], value tag n []) else none
  | value tag n raw, c =>
      if c = '\x22' then
        some ([], behind (tag.add n (some (String.ofList (decode raw)))))
      else some ([], value tag n (raw ++ [c]))
  | behind tag, c =>
      if c = ' ' then some ([], gap tag)
      else if c = '>' then some ([tag.opening], text [])
      else none
  | slash tag, c => if c = '>' then some ([tag.selfClosed], text []) else none

/-- What a row of characters does. -/
def run (reading : Reading) : List Char → Option (List Event × Reading)
  | [] => some ([], reading)
  | c :: rest => do
      let (events, reading) ← reading.step c
      let (more, reading) ← reading.run rest
      return (events ++ more, reading)

-- ============================================================ steps in a row

variable {r mid last : Reading} {events more : List Event}

theorem run_cons_of {c : Char} {rest : List Char}
    (first : r.step c = some (events, mid))
    (then_ : mid.run rest = some (more, last)) :
    r.run (c :: rest) = some (events ++ more, last) := by
  simp [run, first, then_]

theorem run_cons_silent {c : Char} {rest : List Char}
    (first : r.step c = some ([], mid))
    (then_ : mid.run rest = some (more, last)) :
    r.run (c :: rest) = some (more, last) :=
  run_cons_of first then_

/-- Characters in a row may be read in two goes. -/
theorem run_append_of {front back : List Char}
    (first : r.run front = some (events, mid))
    (then_ : mid.run back = some (more, last)) :
    r.run (front ++ back) = some (events ++ more, last) := by
  induction front generalizing r events with
  | nil =>
      cases first
      exact then_
  | cons c rest ih =>
      simp only [run, Option.bind_eq_bind, Option.bind_eq_some_iff] at first
      obtain ⟨⟨now, next⟩, hstep, ⟨later, final⟩, hrest, heq⟩ := first
      cases heq
      rw [List.append_assoc]
      exact run_cons_of hstep (ih hrest)

/-- The first of which may complete nothing. -/
theorem run_append_silent {front back : List Char}
    (first : r.run front = some ([], mid))
    (then_ : mid.run back = some (more, last)) :
    r.run (front ++ back) = some (more, last) :=
  run_append_of first then_

/-- Characters that a state only collects. -/
theorem run_collect {state : List Char → Reading} {p : Char → Prop}
    (collects : ∀ read c, p c →
      (state read).step c = some ([], state (read ++ [c])))
    {cs : List Char} (all : ∀ c ∈ cs, p c) (read : List Char) :
    (state read).run cs = some ([], state (read ++ cs)) := by
  induction cs generalizing read with
  | nil => rw [run, List.append_nil]
  | cons c rest ih =>
      obtain ⟨hc, hrest⟩ := List.forall_mem_cons.1 all
      rw [← List.singleton_append, ← List.append_assoc]
      exact run_cons_of (collects read c hc) (ih hrest _)

end Reading

/-- The events of a document. It ends in a text. -/
def read (document : String) : Option (List Event) :=
  match Reading.run (.text []) document.toList with
  | some (events, .text raw) => some (events ++ textEvent (decode raw))
  | _ => none

end Prerender.Html
