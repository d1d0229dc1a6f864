/-
The parts of payload entries tell what they are written from: numbers,
keys of bind groups, references to cells.

A number ends before anything but a digit. A key is written in one of
two ways. If it looks like an identifier or a number it stands for
itself, and ends where a name ends; otherwise it is quoted, and ends at
its quote. The two are told apart by how they begin, since no identifier
begins with a quote (`GroupKey.tells_label`).

Behind the value of a field there is a comma or the closing brace,
behind the last one the brace (`EndsValue`, `EndsEntry`). Fields that
may be left out begin with a comma, so that a text behind them that
begins with a brace shows whether they are there.
-/
import Prerender.Payload.Script
import Prerender.Proofs.Json.Compact

namespace Prerender

open Json (quoted)
open Text (StartsWith Tells startsWith_append)

-- ============================================================== endings

/-- Text that ends a whole number. -/
abbrev EndsNumber : String → Prop := StartsWith fun c => !c.isDigit

/-- Text behind the value of a field. -/
abbrev EndsValue : String → Prop := StartsWith fun c => c == ',' || c == '\x7d'

/-- Text behind the last field of an entry. -/
abbrev EndsEntry : String → Prop := StartsWith fun c => c == '\x7d'

-- ============================================================ group keys

namespace GroupKey

theorem continuesIdentifier_of_isDigit {c : Char} (h : c.isDigit = true) :
    continuesIdentifier c = true := by
  simp only [continuesIdentifier, Char.isAlphanum, h, Bool.or_true,
    Bool.true_or]

theorem continuesIdentifier_of_starts {c : Char}
    (h : startsIdentifier c = true) :
    continuesIdentifier c = true := by
  unfold startsIdentifier at h
  unfold continuesIdentifier Char.isAlphanum
  cases hletter : c.isAlpha with
  | true => rfl
  | false =>
      rw [hletter, Bool.false_or] at h
      rw [Bool.or_assoc, h, Bool.or_true]

/-- A key that stands for itself is not empty and consists of letters, digits
and signs of names. -/
theorem exists_of_isVerbatim {key : GroupKey} (h : key.isVerbatim = true) :
    ∃ c rest, key.text.toList = c :: rest
      ∧ ∀ d ∈ c :: rest, continuesIdentifier d = true := by
  unfold isVerbatim at h
  split at h
  · cases h
  · next c rest htext =>
    refine ⟨c, rest, htext, ?_⟩
    split at h
    · next hdigit =>
      exact List.forall_mem_cons.2 ⟨continuesIdentifier_of_isDigit hdigit,
        fun d hd => continuesIdentifier_of_isDigit (List.all_eq_true.1 h d hd)⟩
    · obtain ⟨hstart, hrest⟩ := Bool.and_eq_true_iff.1 h
      exact List.forall_mem_cons.2
        ⟨continuesIdentifier_of_starts hstart, List.all_eq_true.1 hrest⟩

/-- A label that stands for itself begins like a name. -/
theorem startsWith_label_of_isVerbatim {key : GroupKey}
    (h : key.isVerbatim = true) :
    StartsWith continuesIdentifier key.label := by
  obtain ⟨c, rest, htext, hall⟩ := exists_of_isVerbatim h
  rw [label, if_pos h]
  exact Text.startsWith_iff.2 ⟨c, rest, htext, hall c (.head _)⟩

theorem startsWith_label_of_not_isVerbatim {key : GroupKey}
    (h : ¬ key.isVerbatim = true) :
    StartsWith (fun c => c == '\x22') key.label := by
  rw [label, if_neg h]
  exact Json.startsWith_quoted rfl _

/-- A label tells its key: a quoted one ends by itself, and no other begins
like a quoted one. -/
theorem tells_label (key : GroupKey) :
    Tells (fun _ => True) (StartsWith fun c => !continuesIdentifier c)
      label id key := by
  have hclash : ∀ a b : GroupKey, a.isVerbatim = true →
    ¬ b.isVerbatim = true → ∀ u v,
      a.label ++ u ≠ b.label ++ v := by
    intro a b ha hb u v heq
    refine ((startsWith_label_of_isVerbatim ha).append u).not_disjoint
      (heq ▸ (startsWith_label_of_not_isVerbatim hb).append v) fun c hc => ?_
    rw [beq_eq_false_iff_ne]
    rintro rfl
    cases hc
  intro key' _ u v hu hv heq
  by_cases h : key.isVerbatim = true
  · by_cases h' : key'.isVerbatim = true
    · rw [label, label, if_pos h, if_pos h'] at heq
      obtain ⟨_, _, htext, hall⟩ := exists_of_isVerbatim h
      obtain ⟨_, _, htext', hall'⟩ := exists_of_isVerbatim h'
      obtain ⟨hkeys, huv⟩ := Text.eq_of_append_run (htext ▸ hall)
        (htext' ▸ hall') hu hv heq
      exact ⟨congrArg GroupKey.mk hkeys, huv⟩
    · exact (hclash key key' h h' u v heq).elim
  · by_cases h' : key'.isVerbatim = true
    · exact (hclash key' key h' h v u heq.symm).elim
    · rw [label, label, if_neg h, if_neg h'] at heq
      obtain ⟨hkeys, huv⟩ := Json.eq_of_quoted_append heq
      exact ⟨congrArg GroupKey.mk hkeys, huv⟩

/-- The group part of an entry tells the group. -/
theorem tells_field (group : Option GroupKey) :
    Tells (fun _ => True) EndsEntry field id group := by
  refine Text.tells_optional Option.isSome ?_ ?_ ?_ ?_
  · intro group habsent
    rw [Option.isSome_eq_false_iff, Option.isNone_iff_eq_none] at habsent
    rw [habsent, field]
  · intro group hpresent u
    obtain ⟨key, rfl⟩ := Option.isSome_iff_exists.1 hpresent
    rw [field, String.append_assoc]
    exact Text.not_startsWith_append _ _ rfl
  · intro a b ha hb
    rw [Option.isSome_eq_false_iff, Option.isNone_iff_eq_none] at ha hb
    rw [ha, hb]
  · intro hpresent group' hpresent' u v hu hv heq
    obtain ⟨key, rfl⟩ := Option.isSome_iff_exists.1 hpresent
    obtain ⟨key', rfl⟩ := Option.isSome_iff_exists.1 hpresent'.2
    simp only [field, String.append_assoc, String.append_right_inj] at heq
    have hends : ∀ w, EndsEntry w →
      StartsWith (fun c => !continuesIdentifier c) w := by
      refine fun w hw => hw.mono fun c hc => ?_
      rw [beq_iff_eq.1 hc]
      rfl
    obtain ⟨hkey, huv⟩ := tells_label key trivial (hends u hu) (hends v hv) heq
    exact ⟨congrArg some hkey, huv⟩

/-- The group part ends a value, be it there or not. -/
theorem endsValue_field (group : Option GroupKey) {u : String}
    (hu : EndsEntry u) :
    EndsValue (field group ++ u) := by
  cases group with
  | none =>
      rw [field, String.empty_append]
      exact hu.mono fun c hc => by rw [hc, Bool.or_true]
  | some key =>
      rw [field, String.append_assoc]
      exact startsWith_append _ _ rfl

end GroupKey

-- ============================================================ references

theorem EndsValue.endsNumber {u : String} (hu : EndsValue u) :
    EndsNumber u := by
  refine hu.mono fun c hc => ?_
  rcases Bool.or_eq_true_iff.1 hc with hc | hc
  · rw [beq_iff_eq.1 hc]
    rfl
  · rw [beq_iff_eq.1 hc]
    rfl

namespace Payload

variable {next : String → Prop}

/-- A number in an entry ends before anything but a digit. -/
theorem tells_number {α : Type} {valid : α → Prop}
    (number : α → UInt32) (a : α) :
    Tells valid EndsNumber (fun a => toString (number a).toNat) number a := by
  have htells : Tells valid EndsNumber (fun a => toString (number a).toNat)
      (fun a => (number a).toNat) a :=
    Tells.on (f := fun a => (number a).toNat) (Text.tells_nat _) fun _ _ =>
      trivial
  exact htells.imp fun b _ hnumber => UInt32.toNat_inj.1 hnumber

/-- The entry of a reference tells the reference. -/
theorem tells_refEntry (ref : CellRef) :
    Tells (fun _ => True) next refEntry id ref := by
  have hnumber : Tells (fun _ => True) EndsNumber _
    (fun ref : CellRef => ref.cell.number) ref :=
    tells_number _ ref
  have hgroup : Tells (fun _ => True) EndsEntry _ CellRef.group ref :=
    (GroupKey.tells_field ref.group).on fun _ _ => trivial
  have hfields := (hnumber.behind "\x7bid:").seq hgroup trivial
    fun _ _ _ hu => (GroupKey.endsValue_field _ hu).endsNumber
  refine (hfields.upTo "\x7d" fun u _ => startsWith_append "\x7d" u rfl).imp
    fun ref' _ htold => ?_
  simp only [Prod.mk.injEq] at htold
  obtain ⟨⟨n⟩, group⟩ := ref
  obtain ⟨⟨m⟩, group'⟩ := ref'
  rw [show n = m from htold.1, show group = group' from htold.2]

theorem startsWith_refEntry {p : Char → Bool} (hp : p '\x7b' = true)
    (ref : CellRef) :
    StartsWith p (refEntry ref) := by
  unfold refEntry
  simp only [String.append_assoc]
  exact startsWith_append _ _ hp

/-- References between commas tell themselves. -/
theorem tells_refEntries (refs : List CellRef) :
    Tells (fun _ => True) (StartsWith fun c => c == ']')
      (fun refs => Json.commaSeparated (refs.map refEntry)) id refs := by
  have hrefs : Tells (fun refs : List CellRef => ∀ ref ∈ refs, True)
    (StartsWith fun c => c == ']')
      (fun refs => Json.commaSeparated (refs.map refEntry))
      (List.map id) refs :=
    Text.tells_commaSeparated rfl (fun ref _ => startsWith_refEntry rfl ref)
      fun ref _ => ⟨trivial, tells_refEntry ref⟩
  rw [List.map_id_fun] at hrefs
  exact hrefs.mono (fun _ _ _ _ => trivial) fun _ => id

/-- The part with the cells, if there are any. -/
theorem dependencyField_of {refs : List CellRef} (h : (!refs.isEmpty) = true) :
    dependencyField refs
      = ",deps:[" ++ Json.commaSeparated (refs.map refEntry) ++ "]" := by
  rw [Bool.not_eq_true'] at h
  rw [dependencyField, if_neg (Bool.eq_false_iff.1 h)]

/-- The part with the cells that a function receives tells them. -/
theorem tells_dependencyField (refs : List CellRef) :
    Tells (fun _ => True) EndsEntry dependencyField id refs := by
  refine Text.tells_optional (fun refs => !refs.isEmpty) ?_ ?_ ?_ ?_
  · intro refs habsent
    rw [Bool.not_eq_false'] at habsent
    rw [dependencyField, if_pos habsent]
  · intro refs hpresent u
    rw [dependencyField_of hpresent, String.append_assoc, String.append_assoc]
    exact Text.not_startsWith_append _ _ rfl
  · intro a b ha hb
    rw [Bool.not_eq_false', List.isEmpty_iff] at ha hb
    rw [ha, hb]
  · intro hpresent refs' hpresent' u v hu hv heq
    rw [dependencyField_of hpresent, dependencyField_of hpresent'.2] at heq
    exact (((tells_refEntries refs).behind ",deps:[").upTo "]" fun w _ =>
      startsWith_append "]" w rfl) trivial hu hv heq

/-- It ends a value, be it there or not. -/
theorem endsValue_dependencyField (refs : List CellRef) {u : String}
    (hu : EndsEntry u) :
    EndsValue (dependencyField refs ++ u) := by
  unfold dependencyField
  split
  · rw [String.empty_append]
    exact hu.mono fun c hc => by rw [hc, Bool.or_true]
  · simp only [String.append_assoc]
    exact startsWith_append _ _ rfl

end Payload

end Prerender
