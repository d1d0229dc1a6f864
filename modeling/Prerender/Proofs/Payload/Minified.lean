/-
Minified payloads.

Minification trims a text and merges each run of blanks that has a line
feed (`Proofs/Script/Minify`). It knows nothing of what it minifies: a
line feed within a quoted text would go the same way as one between two
statements. Why is it harmless to the data of a payload?

1. Data never has a line feed in its text, since quoting escapes it
   (`Json.oneLine_compact`).
2. The signs that a payload puts around a source are not blank, so that
   no run of blanks goes over the end of a source (`Script.Opening`,
   `Script.Closing`).

So all that there is to merge lies within a source. Merging is followed
from the whole payload down to the sources: it may be done in each
section, in each entry and in each value by itself, and changes nothing
but what is client code. A minified payload is therefore the payload of
minified sources (`Builder.plainTransform_minified`). The same function
is done to the sources of a page and of its payload, which have the same
ones (`Payload.ofPage_mapSource`).
-/
import Mathlib.Data.List.Basic
import Prerender.Proofs.Payload.Entries
import Prerender.Proofs.Payload.Groups
import Prerender.Proofs.Script.Minify
import Prerender.Site.Builder

namespace Prerender

open Json (commaSeparated quoted)
open Script (mergeBreaks Opening Closing mergeBreaks_between
  mergeBreaks_of_oneLine)
open Text (FirmEnd OneLine oneLine_commaSeparated)

-- ==================================================== data on one line

namespace Json

/-- No character is quoted with a line feed. -/
theorem ne_of_mem_quotedChar {c d : Char} (h : d ∈ quotedChar c) :
    '\n' ≠ d := by
  unfold quotedChar at h
  split at h
  case h_8 _ _ _ _ hbreak _ _ =>
    split at h
    · next hcontrol =>
      have hdigits : ∀ n < 16, '\n' ≠ hexDigit n := by decide
      simp only [List.mem_cons, List.not_mem_nil, or_false] at h
      rcases h with rfl | rfl | rfl | rfl | rfl | rfl
      · decide
      · decide
      · decide
      · decide
      · exact hdigits _ (by omega)
      · exact hdigits _ (by omega)
    · rw [List.mem_singleton.1 h]
      exact fun heq => hbreak heq.symm
  all_goals
    rintro rfl
    revert h
    decide

theorem oneLine_quoted (s : String) : OneLine (quoted s) := by
  rw [OneLine, quoted, String.toList_ofList]
  intro h
  rcases List.mem_append.1 (List.mem_of_ne_of_mem (by decide) h) with h | h
  · obtain ⟨c, -, hc⟩ := List.mem_flatMap.1 h
    exact ne_of_mem_quotedChar hc rfl
  · cases List.mem_singleton.1 h

theorem oneLine_number {j : Json} (h : j.IsNumber) : OneLine j.compact := by
  intro hmem
  cases isNumeralChar_of_mem_compact h hmem

mutual

theorem oneLine_compact : (value : Json) → OneLine value.compact
  | .null => by decide
  | .bool true => by decide
  | .bool false => by decide
  | .int n => oneLine_number (j := .int n) trivial
  | .double d => by
      cases hd : d.isFinite with
      | true => exact oneLine_number (j := .double d) hd
      | false =>
          have hnull : OneLine "null" := by decide
          rwa [compact, doubleText, if_neg (by rw [hd]; nofun)]
  | .str s => oneLine_quoted s
  | .arr items => by
      rw [compact]
      exact (OneLine.append (by decide)
        (oneLine_commaSeparated (oneLine_compactItems items))).append
        (by decide)
  | .obj members => by
      rw [compact]
      exact (OneLine.append (by decide)
        (oneLine_commaSeparated (oneLine_compactMembers members))).append
        (by decide)

theorem oneLine_compactItems :
    (items : List Json) → ∀ s ∈ compactItems items, OneLine s
  | [] => nofun
  | item :: rest => by
      rw [compactItems]
      exact List.forall_mem_cons.2
        ⟨oneLine_compact item, oneLine_compactItems rest⟩

/-- The members of an object are of one line, with their names. -/
theorem oneLine_compactMembers : (members : List (String × Json)) →
    ∀ s ∈ compactMembers members, OneLine s
  | [] => nofun
  | (name, value) :: rest => by
      rw [compactMembers]
      refine List.forall_mem_cons.2 ⟨?_, oneLine_compactMembers rest⟩
      exact ((oneLine_quoted name).append (by decide)).append
        (oneLine_compact value)

end

end Json

theorem oneLine_nat (n : Nat) : OneLine (toString n) := by
  intro h
  cases Text.isDigit_of_mem_toString h

/-- A label is an identifier, digits, or quoted. -/
theorem GroupKey.oneLine_label (key : GroupKey) : OneLine key.label := by
  rw [label]
  split
  · next h =>
    obtain ⟨c, rest, htext, hall⟩ := exists_of_isVerbatim h
    intro hmem
    rw [htext] at hmem
    cases hall _ hmem
  · exact Json.oneLine_quoted _

theorem GroupKey.oneLine_field (group : Option GroupKey) :
    OneLine (field group) := by
  cases group with
  | none => decide
  | some key => exact OneLine.append (by decide) key.oneLine_label

namespace Payload

theorem oneLine_refEntry (ref : CellRef) : OneLine (refEntry ref) :=
  ((OneLine.append (by decide) (oneLine_nat _)).append
    (GroupKey.oneLine_field _)).append (by decide)

theorem oneLine_refEntries (refs : List CellRef) :
    OneLine (commaSeparated (refs.map refEntry)) :=
  oneLine_commaSeparated
    (List.forall_mem_map.2 fun ref _ => oneLine_refEntry ref)

end Payload

-- ============================================================== sources

section
variable (f : String → String)

/-- The value with `f` done to its source. -/
def CellValue.mapSource : CellValue → CellValue
  | .literal value => .literal value
  | .source code => .source (f code)

/-- The cell with `f` done to its source, if it has one. -/
def Cell.mapSource (cell : Cell) : Cell :=
  { cell with value := cell.value.mapSource f }

/-- The link to such a cell. -/
def StateLink.mapSource (link : StateLink) : StateLink :=
  { link with value := link.value.mapSource f }

/-- The observer with `f` done to the source of its update. -/
def Observer.mapSource (observer : Observer) : Observer :=
  { observer with update := { observer.update with
    source := f observer.update.source } }

/-- The reactive value with `f` done to its source. -/
def Reactive.mapSource : Reactive → Reactive
  | .state link => .state (link.mapSource f)
  | .observer o => .observer (o.mapSource f)
  | .reference handle => .reference handle

/-- The binding to such a value. -/
def Binding.mapSource (binding : Binding) : Binding :=
  { binding with source := binding.source.mapSource f }

/-- The hook with `f` done to its source. -/
def LoadHook.mapSource (hook : LoadHook) : LoadHook :=
  { hook with source := f hook.source }

/-- The payload with `f` done to each source in it. -/
def Payload.mapSource (payload : Payload) : Payload where
  url := payload.url
  cells := payload.cells.map (Cell.mapSource f)
  groups := payload.groups.map fun group =>
    (group.1, group.2.map (Cell.mapSource f))
  states := payload.states.map fun record =>
    { record with link := record.link.mapSource f }
  observers := payload.observers.map fun record =>
    { record with observer := record.observer.mapSource f }
  hooks := payload.hooks.map (LoadHook.mapSource f)

end

/-- The source, if the value is one. -/
def CellValue.source? : CellValue → Option String
  | .literal _ => none
  | .source code => some code

/-- The source that a binding brings into the payload. -/
def Reactive.source? : Reactive → Option String
  | .state link => link.value.source?
  | .observer o => some o.update.source
  | .reference _ => none

namespace Payload

/-- The sources in the payload of a page. -/
def sources (cells : List Cell) (bindings : List Binding)
    (hooks : List LoadHook) : List String :=
  cells.filterMap (fun cell => cell.value.source?)
    ++ bindings.filterMap (fun binding => binding.source.source?)
    ++ hooks.map LoadHook.source

variable {f : String → String} {url : String} {cells : List Cell}
  {bindings : List Binding} {hooks : List LoadHook}

/-- The payload does not depend on sources but by having them. -/
theorem ofPage_mapSource (f : String → String) (url : String)
    (cells : List Cell) (bindings : List Binding) (hooks : List LoadHook) :
    ofPage url (cells.map (Cell.mapSource f))
        (bindings.map (Binding.mapSource f)) (hooks.map (LoadHook.mapSource f))
      = (ofPage url cells bindings hooks).mapSource f := by
  have hgroups : groupCells (cells.map (Cell.mapSource f))
      = (groupCells cells).map fun group =>
        (group.1, group.2.map (Cell.mapSource f)) := by
    rw [groupCells_eq, groupCells_eq, List.filterMap_map, List.map_map]
    refine List.map_congr_left fun key _ => Prod.ext rfl ?_
    rw [List.filter_map]
    rfl
  have hcells : (cells.map (Cell.mapSource f)).filter
    (fun cell => cell.group.isNone)
      = (cells.filter fun cell => cell.group.isNone).map (Cell.mapSource f) :=
        List.filter_map
  have hstates : (bindings.map (Binding.mapSource f)).filterMap
    Binding.stateRecord?
      = (bindings.filterMap Binding.stateRecord?).map fun record =>
        { record with link := record.link.mapSource f } := by
    rw [List.filterMap_map, List.map_filterMap]
    refine List.filterMap_congr fun binding _ => ?_
    obtain ⟨key, name, source⟩ := binding
    cases source <;> rfl
  have hobservers : (bindings.map (Binding.mapSource f)).filterMap
    Binding.observerRecord?
      = (bindings.filterMap Binding.observerRecord?).map fun record =>
        { record with observer := record.observer.mapSource f } := by
    rw [List.filterMap_map, List.map_filterMap]
    refine List.filterMap_congr fun binding _ => ?_
    obtain ⟨key, name, source⟩ := binding
    cases source <;> rfl
  rw [ofPage, hgroups, hcells, hstates, hobservers]
  rfl

/-- What is done to sources leaves everything else as it is. -/
theorem mapSource_mapSource (f g : String → String) (payload : Payload) :
    (payload.mapSource f).mapSource g = payload.mapSource (g ∘ f) := by
  have hvalue : ∀ value : CellValue, (value.mapSource f).mapSource g
    = value.mapSource (g ∘ f) := by
    rintro (value | code) <;> rfl
  have hcell : ∀ cell : Cell,
      (cell.mapSource f).mapSource g = cell.mapSource (g ∘ f) := by
    intro cell
    rw [Cell.mapSource, Cell.mapSource, hvalue]
    rfl
  have hlink : ∀ link : StateLink, (link.mapSource f).mapSource g
    = link.mapSource (g ∘ f) := by
    intro link
    rw [StateLink.mapSource, StateLink.mapSource, hvalue]
    rfl
  simp only [mapSource, List.map_map, Function.comp_def, hcell, hlink]
  rfl

/-- Nothing is done to a value whose source is left as it is. -/
theorem mapSource_value (value : CellValue) (h : ∀ s ∈ value.source?, f s = s) :
    value.mapSource f = value := by
  cases value with
  | literal value => rfl
  | source code => rw [CellValue.mapSource, h code rfl]

/-- Nothing is done to a payload by what does nothing to its sources. -/
theorem ofPage_of_sources (h : ∀ s ∈ sources cells bindings hooks, f s = s) :
    ofPage url (cells.map (Cell.mapSource f))
        (bindings.map (Binding.mapSource f)) (hooks.map (LoadHook.mapSource f))
      = ofPage url cells bindings hooks := by
  unfold sources at h
  obtain ⟨hvalues, hhooks⟩ := List.forall_mem_append.1 h
  obtain ⟨hcells, hbindings⟩ := List.forall_mem_append.1 hvalues
  have hcell : ∀ cell ∈ cells, cell.mapSource f = cell := by
    intro cell hmem
    rw [Cell.mapSource, mapSource_value cell.value fun s hs =>
      hcells s (List.mem_filterMap.2 ⟨cell, hmem, hs⟩)]
  have hbinding : ∀ binding ∈ bindings, binding.mapSource f = binding := by
    intro binding hmem
    have hsource := fun s hs =>
      hbindings s (List.mem_filterMap.2 ⟨binding, hmem, hs⟩)
    obtain ⟨key, name, source⟩ := binding
    cases source with
    | state link =>
        rw [Binding.mapSource, Reactive.mapSource, StateLink.mapSource,
          mapSource_value link.value hsource]
    | observer o =>
        rw [Binding.mapSource, Reactive.mapSource, Observer.mapSource,
        hsource _ rfl]
    | reference handle => rfl
  have hhook : ∀ hook ∈ hooks, hook.mapSource f = hook := by
    intro hook hmem
    rw [LoadHook.mapSource, hhooks _ (List.mem_map_of_mem hmem)]
  rw [List.map_congr_left hcell, List.map_congr_left hbinding,
    List.map_congr_left hhook, List.map_id', List.map_id', List.map_id']

-- ============================================================== merging

/-- Of a stored value only a source is touched. -/
theorem mergeBreaks_storedCode (value : CellValue) :
    mergeBreaks value.storedCode
      = (value.mapSource mergeBreaks).storedCode := by
  cases value with
  | literal value =>
      rw [CellValue.mapSource, storedCode_literal]
      exact mergeBreaks_of_oneLine (Json.oneLine_compact _)
  | source code => rfl

theorem mergeBreaks_valueCode (value : CellValue) :
    mergeBreaks value.code = (value.mapSource mergeBreaks).code := by
  cases value with
  | literal value => exact mergeBreaks_of_oneLine (Json.oneLine_compact _)
  | source code => rfl

/-- What ends an entry behind a part that may be missing. -/
theorem closing_dependencyField (refs : List CellRef) :
    Closing (dependencyField refs ++ "\x7d") := by
  unfold dependencyField
  split
  · exact ⟨by decide, by decide⟩
  · have hopen : Closing ",deps:[" := ⟨by decide, by decide⟩
    exact ((hopen.append (oneLine_refEntries refs)).append (by decide)).append
      (by decide)

/-- The same with a group that may be missing. -/
theorem closing_field (group : Option GroupKey) :
    Closing (GroupKey.field group ++ "\x7d") := by
  cases group with
  | none => exact ⟨by decide, by decide⟩
  | some key =>
      have hopen : Closing ",bind:" := ⟨by decide, by decide⟩
      exact (hopen.append key.oneLine_label).append (by decide)

/-- Of the entry of a cell only its source is touched. -/
theorem mergeBreaks_cellEntry (cell : Cell) :
    mergeBreaks (cellEntry cell) = cellEntry (cell.mapSource mergeBreaks) := by
  have hopening : Opening
    ("\x7bid:" ++ toString cell.id.number.toNat ++ ",value:") :=
    Opening.append (OneLine.append (by decide) (oneLine_nat _))
      ⟨by decide, by decide⟩
  rw [cellEntry, @String.append_assoc _ (dependencyField _),
    mergeBreaks_between hopening (closing_dependencyField _),
    mergeBreaks_storedCode, ← String.append_assoc]
  rfl

/-- Of that of a group only those of its cells. -/
theorem mergeBreaks_groupEntry (group : GroupKey × List Cell) :
    mergeBreaks (groupEntry group)
      = groupEntry (group.1, group.2.map (Cell.mapSource mergeBreaks)) := by
  have hopening : Opening (group.1.label ++ ":[") :=
    Opening.append group.1.oneLine_label ⟨by decide, by decide⟩
  rw [groupEntry, mergeBreaks_between hopening ⟨by decide, by decide⟩,
    Script.mergeBreaks_commaSeparated, List.map_map, groupEntry, List.map_map]
  simp only [Function.comp_def, mergeBreaks_cellEntry]

/-- What an entry of an attribute begins with. -/
theorem oneLine_attribute (key : ElementKey) (name : String) :
    OneLine ("\x7bkey:" ++ toString key.number.toNat ++ ",attribute:"
      ++ quoted name) :=
  ((OneLine.append (by decide) (oneLine_nat _)).append (by decide)).append
    (Json.oneLine_quoted _)

/-- Of a record only a source in it. -/
theorem mergeBreaks_stateEntry (record : StateRecord) :
    mergeBreaks (stateEntry record)
    = stateEntry { record with link := record.link.mapSource mergeBreaks } := by
  have hopening : Opening ("\x7bkey:" ++ toString record.key.number.toNat
    ++ ",attribute:"
      ++ quoted record.attributeName ++ ",id:"
        ++ toString record.link.cell.number.toNat ++ ",value:") :=
    Opening.append
      (((oneLine_attribute _ _).append (by decide)).append (oneLine_nat _))
      ⟨by decide, by decide⟩
  have hentry : stateEntry record = _ :=
    @String.append_assoc _ (GroupKey.field record.link.group) "\x7d"
  rw [hentry, mergeBreaks_between hopening (closing_field _),
    mergeBreaks_valueCode, ← String.append_assoc]
  rfl

/-- Of that of an observer only its update. -/
theorem mergeBreaks_observerEntry (record : ObserverRecord) :
    mergeBreaks (observerEntry record)
    = observerEntry { record with
      observer := record.observer.mapSource mergeBreaks } := by
  have hopening : Opening ("\x7bkey:" ++ toString record.key.number.toNat
    ++ ",attribute:"
      ++ quoted record.attributeName ++ ",update:") :=
    Opening.append (oneLine_attribute _ _) ⟨by decide, by decide⟩
  have hopen : Closing ",refs:[" := ⟨by decide, by decide⟩
  have hclosing :=
    (hopen.append (oneLine_refEntries record.observer.cells)).append
    (show OneLine "]\x7d" by decide)
  rw [observerEntry, @String.append_assoc _ ",refs:[", @String.append_assoc _
    (",refs:[" ++ _), mergeBreaks_between hopening hclosing,
    ← String.append_assoc, ← String.append_assoc]
  rfl

/-- Of that of a hook only its function. -/
theorem mergeBreaks_hookEntry (hook : LoadHook) :
    mergeBreaks (hookEntry hook) = hookEntry (hook.mapSource mergeBreaks) := by
  have hopening : Opening "\x7bfn:" := ⟨by decide, by decide⟩
  have hopen : Closing ",bind:" := ⟨by decide, by decide⟩
  have hclosing :=
    (hopen.append
      (Json.oneLine_quoted ((hook.group.map GroupKey.text).getD ""))).append
    (closing_dependencyField hook.dependencies).oneLine
  rw [hookEntry, @String.append_assoc _ (dependencyField _),
    @String.append_assoc _ ",bind:", @String.append_assoc _ (",bind:" ++ _),
    mergeBreaks_between hopening hclosing, ← String.append_assoc,
    ← String.append_assoc, ← String.append_assoc]
  rfl

/-- A section is there or not, and ends by itself. -/
theorem mergeBreaks_append_listSection {s opening closing : String}
    (hs : FirmEnd s.toList) (name : String) (hname : OneLine name)
    (hopening : Opening opening) (hclosing : Closing closing)
    (entries : List String) :
    mergeBreaks (s ++ listSection name opening closing entries)
        = mergeBreaks s ++ listSection name opening closing
          (entries.map mergeBreaks)
      ∧ FirmEnd (s ++ listSection name opening closing entries).toList := by
  unfold listSection
  rw [List.isEmpty_map]
  split
  · rw [String.append_empty, String.append_empty]
    exact ⟨rfl, hs⟩
  · have hopen : Opening (name ++ ":" ++ opening) :=
      Opening.append (hname.append (by decide)) hopening
    have hclose : Closing (closing ++ ",") := hclosing.append (by decide)
    constructor
    · rw [Script.mergeBreaks_append_of_firmEnd hs, String.append_assoc,
        mergeBreaks_between hopen hclose, Script.mergeBreaks_commaSeparated]
      simp only [String.append_assoc]
    · rw [String.toList_append, String.toList_append]
      exact ((show FirmEnd ",".toList by decide).append _).append _

/-- What the statement of a payload begins with. -/
theorem opening_code (url : String) :
    Opening (dictionary ++ "[" ++ quoted url ++ "]=\x7b") :=
  Opening.append
    ((OneLine.append (by decide) (by decide)).append (Json.oneLine_quoted url))
    ⟨by decide, by decide⟩

/-- Merging the code of a payload is merging its sources. -/
theorem mergeBreaks_code (payload : Payload) :
    mergeBreaks payload.code = (payload.mapSource mergeBreaks).code := by
  have hbracket : Opening "[" := ⟨by decide, by decide⟩
  have hbracket' : Closing "]" := ⟨by decide, by decide⟩
  have hbrace : Opening "\x7b" := ⟨by decide, by decide⟩
  have hbrace' : Closing "\x7d" := ⟨by decide, by decide⟩
  have hend : Closing "\x7d;" := ⟨by decide, by decide⟩
  have hurl := opening_code payload.url
  obtain ⟨hcells, hbehind⟩ :=
    mergeBreaks_append_listSection hurl.firmEnd "state" (by decide)
    hbracket hbracket' (payload.cells.map cellEntry)
  obtain ⟨hgroups, hbehind⟩ :=
    mergeBreaks_append_listSection hbehind "binds" (by decide)
    hbrace hbrace' (payload.groups.map groupEntry)
  obtain ⟨hstates, hbehind⟩ :=
    mergeBreaks_append_listSection hbehind "soa" (by decide)
    hbracket hbracket' (payload.states.map stateEntry)
  obtain ⟨hobservers, hbehind⟩ :=
    mergeBreaks_append_listSection hbehind "ooa" (by decide)
    hbracket hbracket' (payload.observers.map observerEntry)
  obtain ⟨hhooks, -⟩ := mergeBreaks_append_listSection hbehind "lh" (by decide)
    hbracket hbracket' (payload.hooks.map hookEntry)
  rw [code, Script.mergeBreaks_append_of_firmStart hend.firmStart, hhooks,
    hobservers, hstates, hgroups, hcells, mergeBreaks_of_oneLine hurl.oneLine,
    mergeBreaks_of_oneLine hend.oneLine]
  simp only [List.map_map, Function.comp_def, mergeBreaks_cellEntry,
    mergeBreaks_groupEntry,
    mergeBreaks_stateEntry, mergeBreaks_observerEntry, mergeBreaks_hookEntry,
    code, mapSource]

/-- So is minifying it, for it begins and ends with signs that are not blank.
-/
theorem minify_code (payload : Payload) :
    Script.minify payload.code = (payload.mapSource mergeBreaks).code := by
  rw [Script.minify_eq, mergeBreaks_code]
  · unfold code
    simp only [String.append_assoc]
    rw [String.toList_append]
    exact Text.FirmStart.append (by decide) _
  · rw [code, String.toList_append]
    exact FirmEnd.append (by decide) _

end Payload

open Payload in
/-- Minification reaches nothing but sources. Whatever a payload is made of,
minifying its code gives the code of the payload whose sources have every run
of blanks with a line feed put down to one line feed; all else, the data,
names, keys and numbers, is what it was, and without a line feed in any source
the code stays as it is. -/
theorem Builder.plainTransform_minified (options : Script.Options)
    (url : String) (cells : List Cell)
    (bindings : List Binding) (hooks : List LoadHook) :
    let payload := ofPage url cells bindings hooks
    let minified := ofPage url (cells.map (Cell.mapSource mergeBreaks))
      (bindings.map (Binding.mapSource mergeBreaks))
      (hooks.map (LoadHook.mapSource mergeBreaks))
    let transformed := plainTransform payload.code { options with
      minify := true }
    transformed = .ok minified.code
      ∧ minified.mapSource (fun _ => "") = payload.mapSource (fun _ => "")
      ∧ ((∀ source ∈ sources cells bindings hooks, '\n' ∉ source.toList) →
        transformed = .ok payload.code) := by
  intro payload minified transformed
  have hminified : minified = payload.mapSource mergeBreaks :=
    ofPage_mapSource ..
  have htransformed : transformed = .ok (payload.mapSource mergeBreaks).code :=
    congrArg Except.ok (minify_code payload)
  refine ⟨hminified ▸ htransformed, ?_, fun h => ?_⟩
  · rw [hminified, mapSource_mapSource]
    rfl
  · have hsame : minified = payload :=
      ofPage_of_sources fun source hsource => mergeBreaks_of_oneLine
        (h source hsource)
    rw [htransformed, ← hminified, hsame]

/-- A text of two lines and a listener of four, one of which is blank. -/
def Payload.brokenCells : List Cell :=
  [⟨⟨0⟩, .literal (.str "a\n  b"), none, []⟩,
    ⟨⟨1⟩, .source "() => \x7b\n\t\n  go( )\n\x7d", none, []⟩]

/-- The text is left as it is, and of the listener, which alone would be
changed, the blanks between its lines go. -/
theorem Payload.brokenCells_minified : let options : Script.Options :=
  ⟨true, [], .esm, .browser, .js⟩
    Builder.plainTransform (ofPage "/" brokenCells [] []).code options
        = .ok ("pd[\x22/\x22]=\x7bstate:[\x7bid:0,value:"
          ++ "\x22\\\x22a\\\\n  b\\\x22\x22\x7d,\x7bid:1,value:"
          ++ "() => \x7b\ngo( )\n\x7d\x7d],\x7d;")
      ∧ Builder.plainTransform
        (ofPage "/" (brokenCells.take 1) [] []).code options
        = .ok (ofPage "/" (brokenCells.take 1) [] []).code := by
  intro options
  obtain ⟨hbroken, -, -⟩ :=
    Builder.plainTransform_minified options "/" brokenCells [] []
  obtain ⟨-, -, hcalm⟩ := Builder.plainTransform_minified options "/"
    (brokenCells.take 1) [] []
  exact ⟨hbroken.trans (by decide +kernel), hcalm (by decide)⟩

end Prerender
