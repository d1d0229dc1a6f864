/-
The entries of a payload tell what they are written from.

An entry is fields in braces, in a fixed order. The number of a cell
ends where its digits end, a name is quoted, and the closing brace is a
character that nothing in front of it goes on with. So the fields are
told one after the other, each up to the text that begins the next one
(`Text.Tells.upTo`).

Values are the difficulty. Data ends where its text ends. A source is
client code, which the payload takes as it is: what has to be known of
all sources for a value to be told is that none of them is the text of
data, and that in front of a comma or a brace they and the texts of data
end in one way only (`Legible`). This is a condition on the sources of a
whole page, not on one.

The text of a cell is quoted twice, since the client parses it a second
time. So texts in cells look different from other data, but are told all
the same (`storedCode_inj`).
-/
import Prerender.Proofs.Payload.Fields

namespace Prerender

open Json (quoted commaSeparated)
open Text (StartsWith Tells startsWith_append)

-- =============================================================== values

/-- Whether the value is data, or one of the sources. -/
def CellValue.LiesIn (sources : String → Prop) : CellValue → Prop
  | .literal value => value.IsFinite
  | .source code => sources code

/-- Whether the value is data. -/
def CellValue.IsData (value : CellValue) : Prop := value.LiesIn fun _ => False

/-- Whether the text is a source or stands for data. -/
def IsValueText (sources : String → Prop) (s : String) : Prop :=
  sources s ∨ ∃ value : Json, value.IsFinite
    ∧ (CellValue.literal value).storedCode = s

/-- Sources that a payload can take as they are: none is the text of data, and
in front of a comma or a brace they and the texts of data end in one way
only. -/
structure Legible (sources : String → Prop) : Prop where
  not_data : ∀ value : Json, value.IsFinite →
    ¬ sources (CellValue.literal value).storedCode
  ends : ∀ s t, IsValueText sources s → IsValueText sources t →
    ∀ u v, EndsValue u → EndsValue v →
    s ++ u = t ++ v → s = t

namespace Payload

variable {sources : String → Prop} {next : String → Prop}

/-- Data as the client stores it, which is the data that is written. -/
def stored : Json → Json
  | .str s => .str (quoted s)
  | value => value

/-- What is written of data is the text of what the client stores. -/
theorem storedCode_literal (value : Json) :
    (CellValue.literal value).storedCode = (stored value).compact := by
  cases value <;> rfl

/-- That is data as well. -/
theorem stored_isFinite {value : Json} (h : value.IsFinite) :
    (stored value).IsFinite := by
  cases h with
  | null => exact .null
  | bool b => exact .bool b
  | int n => exact .int n
  | double finite => exact .double finite
  | str s => exact .str _
  | arr hitems => exact .arr hitems
  | obj hmembers => exact .obj hmembers

/-- Data that is stored alike is the same. -/
theorem storedCode_inj {a b : Json} (ha : a.IsFinite) (hb : b.IsFinite)
    (h : (CellValue.literal a).storedCode = (CellValue.literal b).storedCode) :
    a = b := by
  rw [storedCode_literal, storedCode_literal] at h
  have heq := Json.compact_inj (stored_isFinite ha) (stored_isFinite hb) h
  cases a with
  | str s =>
      cases b with
      | str t => rw [Json.quoted_inj (Json.str.inj heq)]
      | _ => cases heq
  | _ =>
      cases b with
      | str t => cases heq
      | _ => exact heq

/-- What a cell holds is told where values end. -/
theorem tells_storedCode (hsources : Legible sources) {value : CellValue}
    (h : value.LiesIn sources) :
    Tells (CellValue.LiesIn sources) EndsValue CellValue.storedCode
    id value := by
  have htext : ∀ value : CellValue, value.LiesIn sources →
      IsValueText sources value.storedCode := by
    intro value hvalue
    cases value with
    | literal value => exact Or.inr ⟨value, hvalue, rfl⟩
    | source code => exact Or.inl hvalue
  intro value' h' u v hu hv heq
  have hcode :=
    hsources.ends _ _ (htext value h) (htext value' h') u v hu hv heq
  refine ⟨?_, (String.append_right_inj _).1 (hcode ▸ heq)⟩
  cases value with
  | literal a =>
      cases value' with
      | literal b =>
          exact congrArg CellValue.literal (storedCode_inj h h' hcode)
      | source t =>
          exact absurd (show sources _ from hcode ▸ h') (hsources.not_data a h)
  | source s =>
      cases value' with
      | literal b =>
          exact absurd (show sources _ from hcode ▸ h) (hsources.not_data b h')
      | source t => exact congrArg CellValue.source hcode

theorem tells_source (hsources : Legible sources) {s : String} (h : sources s) :
    Tells sources EndsValue id id s := by
  intro t ht u v hu hv heq
  obtain rfl : s = t := hsources.ends s t (Or.inl h) (Or.inl ht) u v hu hv heq
  exact ⟨rfl, (String.append_right_inj _).1 heq⟩

theorem endsNumeral_of_endsValue {u : String} (hu : EndsValue u) :
    Json.EndsNumeral u :=
  Json.endsNumeral_of rfl hu

/-- Data in a record is told. -/
theorem tells_data {value : CellValue} (h : value.IsData) :
    Tells CellValue.IsData EndsValue CellValue.code id value := by
  intro value' h' u v hu hv heq
  cases value with
  | literal a =>
      cases value' with
      | literal b =>
          obtain ⟨hvalue, huv⟩ :=
            Json.tells_compact h h' (endsNumeral_of_endsValue hu)
            (endsNumeral_of_endsValue hv) heq
          exact ⟨congrArg CellValue.literal hvalue, huv⟩
      | source t => exact h'.elim
  | source s => exact h.elim

-- ================================================================ cells

/-- The cell without its group, which is told by its place in the payload. -/
def ungrouped (cell : Cell) : Cell := { cell with group := none }

/-- The entry of a cell tells everything but its group. -/
theorem tells_cellEntry (hsources : Legible sources) {cell : Cell}
    (h : cell.value.LiesIn sources) :
    Tells (fun cell => cell.value.LiesIn sources) next cellEntry
    ungrouped cell := by
  have hnumber : Tells (fun cell : Cell => cell.value.LiesIn sources)
    EndsNumber _
      (fun cell => cell.id.number) cell := tells_number _ cell
  have hid : Tells _ (fun _ => True) _ _ cell :=
    (hnumber.behind "\x7bid:").upTo ",value:" fun u _ =>
      startsWith_append ",value:" u rfl
  have hvalue : Tells (fun cell : Cell => cell.value.LiesIn sources) EndsValue _
    Cell.value cell :=
    (tells_storedCode hsources h).on fun _ => id
  have hdependencies : Tells
    (fun cell : Cell => cell.value.LiesIn sources) EndsEntry _
      Cell.dependencies cell :=
      (tells_dependencyField cell.dependencies).on fun _ _ => trivial
  have hfields := (hid.seq hvalue h fun _ _ _ _ => trivial).seq hdependencies h
    fun _ _ _ hu => endsValue_dependencyField _ hu
  refine (hfields.upTo "\x7d" fun u _ => startsWith_append "\x7d" u rfl).imp
    fun cell' _ htold => ?_
  simp only [Prod.mk.injEq] at htold
  obtain ⟨⟨n⟩, value, group, dependencies⟩ := cell
  obtain ⟨⟨m⟩, value', group', dependencies'⟩ := cell'
  obtain ⟨⟨hn, hvalue⟩, hdependencies⟩ := htold
  rw [ungrouped, ungrouped, show n = m from hn, show value = value' from hvalue,
    show dependencies = dependencies' from hdependencies]

/-- The entry of a cell begins with a brace. -/
theorem startsWith_cellEntry (cell : Cell) :
    StartsWith (fun c => c == '\x7b') (cellEntry cell) := by
  unfold cellEntry
  simp only [String.append_assoc]
  exact startsWith_append _ _ rfl

/-- The entry of a bind group tells its key and its cells. -/
theorem tells_groupEntry (hsources : Legible sources)
    {group : GroupKey × List Cell}
    (h : ∀ cell ∈ group.2, cell.value.LiesIn sources) :
    Tells (fun group => ∀ cell ∈ group.2, cell.value.LiesIn sources)
    next groupEntry
      (fun group => (group.1, group.2.map ungrouped)) group := by
  have hlabel : Tells (fun group : GroupKey × List Cell => ∀ cell ∈ group.2,
      cell.value.LiesIn sources) _ _ Prod.fst group :=
    (GroupKey.tells_label group.1).on fun _ _ => trivial
  have hkey : Tells _ (fun _ => True) _ _ group :=
    hlabel.upTo ":[" fun u _ => startsWith_append ":[" u rfl
  have hstarts : ∀ cell : Cell, cell.value.LiesIn sources →
      StartsWith (fun c => !(c == ']')) (cellEntry cell) := by
    refine fun cell _ => (startsWith_cellEntry cell).mono fun c hc => ?_
    rw [beq_iff_eq.1 hc]
    rfl
  have hcells : Tells (fun group : GroupKey × List Cell => ∀ cell ∈ group.2,
      cell.value.LiesIn sources) (StartsWith fun c => c == ']') _
      (fun group => group.2.map ungrouped) group :=
    Tells.on (Text.tells_commaSeparated rfl hstarts
      fun cell hcell => ⟨h cell hcell, tells_cellEntry hsources (h cell hcell)⟩)
      fun _ => id
  exact (hkey.seq hcells h fun _ _ _ _ => trivial).upTo "]" fun u _ =>
    startsWith_append "]" u rfl

/-- The entry of a group begins with its key. -/
theorem startsWith_groupEntry {p : Char → Bool} (hquote : p '\x22' = true)
    (hname : ∀ c, GroupKey.continuesIdentifier c = true → p c = true)
    (group : GroupKey × List Cell) : StartsWith p (groupEntry group) := by
  unfold groupEntry
  simp only [String.append_assoc]
  refine StartsWith.append ?_ _
  by_cases h : group.1.isVerbatim = true
  · exact (GroupKey.startsWith_label_of_isVerbatim h).mono hname
  · refine (GroupKey.startsWith_label_of_not_isVerbatim h).mono fun c hc => ?_
    rw [beq_iff_eq.1 hc, hquote]

-- ============================================================== records

/-- The element key and the attribute name with which a record begins. -/
theorem tells_attribute {α : Type} {valid : α → Prop} (number : α → UInt32)
    (name : α → String) {a : α} (ha : valid a) :
    Tells valid next (fun a => "\x7bkey:" ++ toString (number a).toNat
      ++ ",attribute:"
      ++ quoted (name a)) (fun a => (number a, name a)) a := by
  have hnumber : Tells valid EndsNumber _ number a := tells_number _ a
  have hkey : Tells _ (fun _ => True) _ _ a :=
    (hnumber.behind "\x7bkey:").upTo ",attribute:" fun u _ =>
      startsWith_append ",attribute:" u rfl
  have hname : Tells valid next (fun a => quoted (name a)) name a :=
    fun b _ u v _ _ heq => Json.eq_of_quoted_append heq
  exact hkey.seq hname ha fun _ _ _ _ => trivial

/-- The entry of an attribute that follows data tells the record. -/
theorem tells_stateEntry {record : StateRecord} (h : record.link.value.IsData) :
    Tells (fun record => record.link.value.IsData) next stateEntry id
    record := by
  have hattribute : Tells (fun record : StateRecord => record.link.value.IsData)
    (fun _ => True) _
      (fun record => (record.key.number, record.attributeName)) record :=
      tells_attribute _ _ h
  have hbehind : Tells _ (fun _ => True) _ _ record :=
    hattribute.upTo ",id:" fun _ _ => trivial
  have hcell : Tells (fun record : StateRecord => record.link.value.IsData)
    EndsNumber _
      (fun record => record.link.cell.number) record := tells_number _ record
  have hfollows : Tells _ (fun _ => True) _ _ record :=
    (hbehind.seq hcell h fun _ _ _ _ => trivial).upTo ",value:" fun u _ =>
      startsWith_append ",value:" u rfl
  have hvalue : Tells (fun record : StateRecord => record.link.value.IsData)
    EndsValue _ _ record :=
    Tells.on (f := fun record : StateRecord => record.link.value)
      (tells_data h) fun _ => id
  have hgroup : Tells (fun record : StateRecord => record.link.value.IsData)
    EndsEntry _ _ record :=
    Tells.on (f := fun record : StateRecord => record.link.group)
      (GroupKey.tells_field _)
      fun _ _ => trivial
  have hfields := (hfollows.seq hvalue h fun _ _ _ _ => trivial).seq hgroup h
    fun _ _ _ hu => GroupKey.endsValue_field _ hu
  refine (hfields.upTo "\x7d" fun u _ => startsWith_append "\x7d" u rfl).imp
    fun record' _ htold => ?_
  simp only [Prod.mk.injEq] at htold
  obtain ⟨⟨n⟩, name, ⟨c⟩, value, group⟩ := record
  obtain ⟨⟨m⟩, name', ⟨c'⟩, value', group'⟩ := record'
  obtain ⟨⟨⟨⟨hkey, hname⟩, hcell⟩, hvalue⟩, hgroup⟩ := htold
  rw [show n = m from hkey, show name = name' from hname,
    show c = c' from hcell, show value = value' from hvalue,
    show group = group' from hgroup]

/-- The entry of an attribute that an observer computes tells all but the
evaluator, which the client does not have, and the first arguments. -/
theorem tells_observerEntry (hsources : Legible sources)
    {record : ObserverRecord} (h : sources record.observer.update.source) :
    Tells (fun record => sources record.observer.update.source) next
      observerEntry (fun record =>
        (record.key, record.attributeName, record.observer.update.source,
          record.observer.cells)) record := by
  have hattribute : Tells
    (fun record : ObserverRecord => sources record.observer.update.source)
      (fun _ => True) _
      (fun record => (record.key.number, record.attributeName)) record :=
    tells_attribute _ _ h
  have hupdate : Tells _ (fun _ => True) _ _ record :=
    hattribute.upTo ",update:" fun _ _ => trivial
  have hsource : Tells
    (fun record : ObserverRecord => sources record.observer.update.source)
      EndsValue _ _ record :=
    Tells.on (f := fun record : ObserverRecord => record.observer.update.source)
      (tells_source hsources h) fun _ => id
  have hrefs : Tells
    (fun record : ObserverRecord => sources record.observer.update.source)
      (StartsWith fun c => c == ']') _ _ record :=
    Tells.on (f := fun record : ObserverRecord => record.observer.cells)
      (tells_refEntries _)
      fun _ _ => trivial
  have hlist : Tells _ (fun _ => True) _ _ record :=
    ((hupdate.seq hsource h fun _ _ _ _ => trivial).upTo ",refs:[" fun u _ =>
      startsWith_append ",refs:[" u rfl)
  have hfields := hlist.seq hrefs h fun _ _ _ _ => trivial
  refine (hfields.upTo "]\x7d" fun u _ => startsWith_append "]\x7d" u rfl).imp
    fun record' _ htold => ?_
  simp only [Prod.mk.injEq] at htold
  obtain ⟨⟨n⟩, name, observer⟩ := record
  obtain ⟨⟨m⟩, name', observer'⟩ := record'
  obtain ⟨⟨⟨hkey, hname⟩, hsource⟩, hcells⟩ := htold
  simp only [Prod.mk.injEq]
  exact ⟨congrArg ElementKey.mk hkey, hname, hsource, hcells⟩

theorem startsWith_stateEntry (record : StateRecord) :
    StartsWith (fun c => c == '\x7b') (stateEntry record) := by
  unfold stateEntry
  simp only [String.append_assoc]
  exact startsWith_append _ _ rfl

theorem startsWith_observerEntry (record : ObserverRecord) :
    StartsWith (fun c => c == '\x7b') (observerEntry record) := by
  unfold observerEntry
  simp only [String.append_assoc]
  exact startsWith_append _ _ rfl

theorem startsWith_hookEntry (hook : LoadHook) :
    StartsWith (fun c => c == '\x7b') (hookEntry hook) := by
  unfold hookEntry
  simp only [String.append_assoc]
  exact startsWith_append _ _ rfl

/-- Whether the source of a hook is one of those given and its bind group, if
any, is no empty text. -/
def IsBound (sources : String → Prop) (hook : LoadHook) : Prop :=
  sources hook.source ∧ hook.group ≠ some ⟨""⟩

/-- The text that stands for the group of a hook. -/
def groupText (hook : LoadHook) : String :=
  (hook.group.map GroupKey.text).getD ""

/-- A group is told from its text, if it is not the empty one, which stands
for none. -/
theorem group_eq_of_groupText {hook hook' : LoadHook}
    (h : hook.group ≠ some ⟨""⟩)
    (h' : hook'.group ≠ some ⟨""⟩) (heq : groupText hook = groupText hook') :
    hook.group = hook'.group := by
  unfold groupText at heq
  cases hgroup : hook.group with
  | none =>
      cases hgroup' : hook'.group with
      | none => rfl
      | some key =>
          rw [hgroup, hgroup'] at heq
          rw [hgroup', show key = ⟨""⟩ from congrArg GroupKey.mk heq.symm] at h'
          exact absurd rfl h'
  | some key =>
      cases hgroup' : hook'.group with
      | none =>
          rw [hgroup, hgroup'] at heq
          rw [hgroup, show key = ⟨""⟩ from congrArg GroupKey.mk heq] at h
          exact absurd rfl h
      | some key' =>
          rw [hgroup, hgroup'] at heq
          exact congrArg some (congrArg GroupKey.mk heq)

/-- The entry of a hook tells the hook. -/
theorem tells_hookEntry (hsources : Legible sources) {hook : LoadHook}
    (h : IsBound sources hook) :
    Tells (IsBound sources) next hookEntry id hook := by
  have hsource : Tells (IsBound sources) EndsValue
    (fun hook => "\x7bfn:" ++ hook.source)
      LoadHook.source hook :=
      Tells.on ((tells_source hsources h.1).behind "\x7bfn:") fun _ => And.left
  have hbind : Tells _ (fun _ => True) _ _ hook :=
    hsource.upTo ",bind:" fun u _ => startsWith_append ",bind:" u rfl
  have hgroup : Tells (IsBound sources) (fun _ => True)
    (fun hook => quoted (groupText hook)) groupText
      hook := fun _ _ _ _ _ _ heq => Json.eq_of_quoted_append heq
  have hdependencies : Tells
    (IsBound sources) EndsEntry _ LoadHook.dependencies hook :=
    (tells_dependencyField hook.dependencies).on fun _ _ => trivial
  have hfields :=
    (hbind.seq hgroup h fun _ _ _ _ => trivial).seq hdependencies h
    fun _ _ _ _ => trivial
  refine (hfields.upTo "\x7d" fun u _ => startsWith_append "\x7d" u rfl).imp
    fun hook' h' htold => ?_
  simp only [Prod.mk.injEq] at htold
  obtain ⟨⟨hsource, htext⟩, hdependencies⟩ := htold
  have hgroups := group_eq_of_groupText h.2 h'.2 htext
  obtain ⟨source, group, dependencies⟩ := hook
  obtain ⟨source', group', dependencies'⟩ := hook'
  rw [show source = source' from hsource, show group = group' from hgroups,
    show dependencies = dependencies' from hdependencies]

end Payload
end Prerender
