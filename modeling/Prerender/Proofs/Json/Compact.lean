/-
A JSON text tells its value.

Compact texts hold no blanks, so what follows a value is a comma, a
closing bracket or the end. Three things make that enough to find where
a value ends:

1. the first character of a text gives away the kind of value
   (`startsWith_compact`), so two values with texts in common are of one
   kind (`kind_eq_of_append`);
2. quoted texts and brackets close what they open, whatever follows them
   (`eq_of_quoted_append`);
3. a number ends where its characters end (`tells_number`), which is why
   a text behind it must not go on with one (`EndsNumeral`).

From these the value is told by induction on it (`tells_compact`); lists
and objects have the entries between commas told one after the other.

Numbers are of two sorts, whole ones and doubles. The text of a double
has a point or a power of ten and so is that of no whole number
(`toString_ne_doubleText`). Doubles with one text are one double because
the text reads back (`Double.Layout.ofText?_text`). What is not finite
has no number text at all and is left out (`IsFinite`).
-/
import Prerender.Proofs.Json.Quoted
import Prerender.Proofs.Number.Reading
import Prerender.Proofs.Text.Told

namespace Prerender.Json

open Double (isNumeralChar)
open Text (StartsWith Tells)

/-- A value that is data: every number in it is finite. -/
inductive IsFinite : Json → Prop
  | null : IsFinite .null
  | bool (b : Bool) : IsFinite (.bool b)
  | int (n : Int) : IsFinite (.int n)
  | double {d : Double} (finite : d.isFinite = true) : IsFinite (.double d)
  | str (s : String) : IsFinite (.str s)
  | arr {items : List Json} (h : ∀ item ∈ items, IsFinite item) :
      IsFinite (.arr items)
  | obj {members : List (String × Json)}
      (h : ∀ member ∈ members, IsFinite member.2) :
      IsFinite (.obj members)

-- ============================================================== numbers

/-- A finite number has the text of its digits. -/
theorem doubleText_eq {d : Double} (finite : d.isFinite = true) :
    doubleText d = Double.dataLayout.text d := if_pos finite

/-- Numbers with one text are one number. -/
theorem doubleText_inj {a b : Double} (ha : a.isFinite = true)
    (hb : b.isFinite = true) (h : doubleText a = doubleText b) : a = b := by
  rw [doubleText_eq ha, doubleText_eq hb] at h
  have hread := Double.dataLayout.ofText?_text ha
  rw [h, Double.dataLayout.ofText?_text hb] at hread
  exact (Option.some.inj hread).symm

/-- Whole numbers are written with digits and a sign. -/
def isWholeChar (c : Char) : Bool := c.isDigit || c == '-'

/-- The text of a whole number has no other characters. -/
theorem isWholeChar_of_mem_toString {n : Int} {c : Char}
    (h : c ∈ (toString n).toList) :
    isWholeChar c = true := by
  have hdigit : ∀ m : Nat, c ∈ (toString m).toList → isWholeChar c = true := by
    intro m hm
    rw [isWholeChar, Text.isDigit_of_mem_toString hm, Bool.true_or]
  cases n with
  | ofNat m => exact hdigit m h
  | negSucc m =>
      rw [show toString (Int.negSucc m) = "-" ++ toString (m + 1) from rfl,
        String.toList_append] at h
      rcases List.mem_append.1 h with hsign | hm
      · cases List.mem_singleton.1 hsign
        rfl
      · exact hdigit _ hm

/-- Whole numbers with one text are one number. -/
theorem toString_int_inj {m n : Int} (h : toString m = toString n) : m = n := by
  have hsign : ∀ a b : Nat, toString a ≠ "-" ++ toString b := by
    intro a b heq
    have hdigit : ('-' : Char).isDigit = true := by
      refine Text.isDigit_of_mem_toString (n := a) ?_
      rw [heq, String.toList_append]
      exact List.mem_append_left _ (List.mem_singleton.2 rfl)
    cases hdigit
  cases m with
  | ofNat a =>
      cases n with
      | ofNat b => rw [Text.toString_nat_inj.1 h]
      | negSucc b => exact absurd h (hsign a (b + 1))
  | negSucc a =>
      cases n with
      | ofNat b => exact absurd h.symm (hsign b (a + 1))
      | negSucc b =>
          have hpos : toString (a + 1) = toString (b + 1) :=
            (String.append_right_inj "-").1 h
          rw [Nat.succ.inj (Text.toString_nat_inj.1 hpos)]

/-- A double in which the point has its place shows a point. -/
theorem mem_positionalText (digits : List Char) (point : Int) :
    '.' ∈ Double.positionalText true digits point := by
  unfold Double.positionalText
  split
  · exact .tail _ (.head _)
  · split
    · exact List.mem_append_right _ (.head _)
    · exact List.mem_append_right _ (.head _)

/-- The text of a double is that of no whole number: it has a point or a power
of ten. -/
theorem exists_not_isWholeChar (d : Double) :
    ∃ c ∈ (Double.dataLayout.text d).toList, isWholeChar c = false := by
  unfold Double.Layout.text
  rw [String.toList_ofList]
  simp only [Double.dataLayout, List.mem_append]
  refine Exists.imp (fun _ hc => ⟨Or.inr hc.1, hc.2⟩)
    (?_ : ∃ c, c ∈ ite _ _ _ ∧ _)
  split
  · exact ⟨'.', mem_positionalText _ _, rfl⟩
  · exact ⟨'e', List.mem_append_right _ (.head _), rfl⟩

/-- No whole number has the text of a double. -/
theorem toString_ne_doubleText {n : Int} {d : Double}
    (finite : d.isFinite = true) :
    toString n ≠ doubleText d := by
  rw [doubleText_eq finite]
  intro h
  obtain ⟨c, hc, hwhole⟩ := exists_not_isWholeChar d
  rw [← h] at hc
  rw [isWholeChar_of_mem_toString hc] at hwhole
  cases hwhole

/-- A value that is a number. -/
def IsNumber : Json → Prop
  | .int _ => True
  | .double d => d.isFinite = true
  | _ => False

/-- Numbers of both sorts are written with the characters of numbers. -/
theorem isNumeralChar_of_mem_compact {j : Json} (h : j.IsNumber) {c : Char}
    (hc : c ∈ j.compact.toList) : isNumeralChar c = true := by
  cases j with
  | int n =>
      have hwhole := isWholeChar_of_mem_toString (n := n) hc
      unfold isWholeChar at hwhole
      unfold isNumeralChar
      rcases Bool.or_eq_true _ _ ▸ hwhole with hdigit | hsign
      · simp only [hdigit, Bool.true_or]
      · simp only [hsign, Bool.or_true, Bool.true_or]
  | double d =>
      rw [compact, doubleText_eq h] at hc
      exact Double.dataLayout.isNumeralChar_of_mem_text d c hc
  | _ => exact h.elim

/-- Numbers with one text are one number, of one sort. -/
theorem compact_number_inj {a b : Json} (ha : a.IsNumber) (hb : b.IsNumber)
    (h : a.compact = b.compact) : a = b := by
  cases a with
  | int m =>
      cases b with
      | int n => exact congrArg Json.int (toString_int_inj h)
      | double e => exact absurd h (toString_ne_doubleText hb)
      | _ => exact hb.elim
  | double d =>
      cases b with
      | int n => exact absurd h.symm (toString_ne_doubleText ha)
      | double e => exact congrArg Json.double (doubleText_inj ha hb h)
      | _ => exact hb.elim
  | _ => exact ha.elim

/-- No number has an empty text. -/
theorem compact_number_ne_empty {j : Json} (h : j.IsNumber) :
    j.compact.toList ≠ [] := by
  cases j with
  | int n =>
      cases n with
      | ofNat m =>
          show (toString m).toList ≠ []
          rw [show (toString m).toList = Nat.toDigits 10 m from Nat.toList_repr]
          exact Nat.toDigits_ne_nil
      | negSucc m =>
          rw [compact, show toString (Int.negSucc m) = "-"
            ++ toString (m + 1) from rfl, String.toList_append]
          exact List.cons_ne_nil _ _
  | double d =>
      obtain ⟨c, hc, -⟩ := exists_not_isWholeChar d
      rw [compact, doubleText_eq h]
      exact List.ne_nil_of_mem hc
  | _ => exact h.elim

-- ================================================================ kinds

/-- The kinds of values that the first character of their text tells apart. -/
inductive Kind where
  | null | true | false | number | text | array | object
deriving DecidableEq

/-- The kind of a value. -/
def kind : Json → Kind
  | .null => .null
  | .bool true => .true
  | .bool false => .false
  | .int _ => .number
  | .double _ => .number
  | .str _ => .text
  | .arr _ => .array
  | .obj _ => .object

/-- The kind of value whose texts begin with the character. -/
def kindOf? (c : Char) : Option Kind :=
  match c with
  | 'n' => some .null
  | 't' => some .true
  | 'f' => some .false
  | '\x22' => some .text
  | '[' => some .array
  | '\x7b' => some .object
  | c => if isNumeralChar c then some .number else none

/-- No other kind of value begins like a number. -/
theorem kindOf?_of_isNumeralChar {c : Char} (h : isNumeralChar c = true) :
    kindOf? c = some .number := by
  unfold kindOf?
  split
  · cases h
  · cases h
  · cases h
  · cases h
  · cases h
  · cases h
  · exact if_pos h

/-- A text begins as its kind of value does. -/
theorem startsWith_compact {j : Json} (h : j.IsFinite) :
    StartsWith (fun c => kindOf? c == some j.kind) j.compact := by
  have hnumber : j.IsNumber → j.kind = .number →
      StartsWith (fun c => kindOf? c == some j.kind) j.compact := by
    intro hj hkind
    obtain ⟨c, rest, hcons⟩ :=
      List.exists_cons_of_ne_nil (compact_number_ne_empty hj)
    refine Text.startsWith_iff.2 ⟨c, rest, hcons, ?_⟩
    rw [kindOf?_of_isNumeralChar
      (isNumeralChar_of_mem_compact hj (hcons ▸ .head _)), hkind]
    rfl
  cases h with
  | null => exact Text.startsWith_append "null" "" rfl
  | bool b => cases b <;> rfl
  | int n => exact hnumber trivial rfl
  | double finite => exact hnumber finite rfl
  | str s => exact startsWith_quoted rfl s
  | arr _ =>
      rw [compact, String.append_assoc]
      exact Text.startsWith_append _ _ rfl
  | obj _ =>
      rw [compact, String.append_assoc]
      exact Text.startsWith_append _ _ rfl

/-- A text begins with none of the characters that no value begins with. -/
theorem startsWith_compact_of {p : Char → Bool} {j : Json} (h : j.IsFinite)
    (hp : ∀ c, p c = false → kindOf? c = none) : StartsWith p j.compact := by
  refine (startsWith_compact h).mono fun c hc => ?_
  cases hpc : p c with
  | true => rfl
  | false =>
      rw [hp c hpc] at hc
      cases hc

/-- Values whose texts begin the same text are of one kind. -/
theorem kind_eq_of_append {a b : Json} (ha : a.IsFinite) (hb : b.IsFinite)
    {u v : String} (h : a.compact ++ u = b.compact ++ v) : a.kind = b.kind := by
  obtain ⟨c, rest, hcons, hc⟩ :=
    Text.startsWith_iff.1 ((startsWith_compact ha).append u)
  obtain ⟨d, rest', hcons', hd⟩ :=
    Text.startsWith_iff.1 ((startsWith_compact hb).append v)
  rw [h, hcons'] at hcons
  cases hcons
  exact Option.some.inj ((beq_iff_eq.1 hc).symm.trans (beq_iff_eq.1 hd))

-- ============================================================== telling

/-- The items of a list are written each by itself. -/
theorem compactItems_eq (items : List Json) :
    compactItems items = items.map compact := by
  induction items with
  | nil => rfl
  | cons item rest ih => rw [compactItems, ih, List.map_cons]

/-- The text of a member, with its name. -/
def compactMember (member : String × Json) : String :=
  quoted member.1 ++ ":" ++ compact member.2

theorem compactMembers_eq (members : List (String × Json)) :
    compactMembers members = members.map compactMember := by
  induction members with
  | nil => rfl
  | cons member rest ih =>
      obtain ⟨name, value⟩ := member
      rw [compactMembers, ih, List.map_cons]
      rfl

/-- A text that no number goes on with. -/
abbrev EndsNumeral : String → Prop := StartsWith fun c => !isNumeralChar c

/-- A number ends where its characters end. -/
theorem tells_number {a : Json} (ha : a.IsNumber) :
    Tells IsNumber EndsNumeral compact id a := by
  intro b hb u v hu hv h
  obtain ⟨heq, huv⟩ :=
    Text.eq_of_append_run (fun _ => isNumeralChar_of_mem_compact ha)
    (fun _ => isNumeralChar_of_mem_compact hb) hu hv h
  exact ⟨compact_number_inj ha hb heq, huv⟩

/-- A member tells its name and what its value tells. -/
theorem tells_compactMember {member : String × Json}
    (h : Tells IsFinite EndsNumeral compact id member.2) :
    Tells (fun member => member.2.IsFinite) EndsNumeral compactMember id
    member := by
  intro member' hvalid u v hu hv heq
  unfold compactMember at heq
  simp only [String.append_assoc] at heq
  obtain ⟨hname, hrest⟩ := eq_of_quoted_append heq
  obtain ⟨hvalue, huv⟩ := h hvalid hu hv ((String.append_right_inj _).1 hrest)
  exact ⟨Prod.ext hname hvalue, huv⟩

/-- Data that begins like a number is one. -/
theorem isNumber_of_kind {j : Json} (h : j.IsFinite)
    (hkind : j.kind = .number) : j.IsNumber := by
  cases h with
  | int n => trivial
  | double finite => exact finite
  | bool b => cases b <;> cases hkind
  | _ => cases hkind

/-- Neither a comma nor a closing bracket goes on with a number. -/
theorem endsNumeral_of {close : Char} (hclose : isNumeralChar close = false)
    {u : String}
    (hu : StartsWith (fun c => c == ',' || c == close) u) : EndsNumeral u := by
  refine hu.mono fun c hc => ?_
  rcases Bool.or_eq_true _ _ ▸ hc with hcomma | hclosing
  · rw [beq_iff_eq.1 hcomma]
    rfl
  · rw [beq_iff_eq.1 hclosing, hclose]
    rfl

variable {next : String → Prop}

/-- A list tells its items, if they can be told. -/
theorem tells_arr {items : List Json}
    (h : ∀ item ∈ items, item.IsFinite
      ∧ Tells IsFinite EndsNumeral compact id item) :
    Tells (fun items => ∀ item ∈ items, item.IsFinite) next
      (fun items => compact (.arr items)) id items := by
  have hstarts : ∀ item : Json, item.IsFinite →
    StartsWith (fun c => !(c == ']')) item.compact := by
    refine fun item hitem => startsWith_compact_of hitem fun c hc => ?_
    rw [Bool.not_eq_false', beq_iff_eq] at hc
    rw [hc]
    rfl
  have hbracketed : Tells (fun items => ∀ item ∈ items, item.IsFinite) next
      (fun items => "[" ++ commaSeparated (items.map compact) ++ "]")
      (List.map id) items :=
    Text.tells_bracketed rfl rfl hstarts fun item hitem =>
      ⟨(h item hitem).1, (h item hitem).2.mono (fun _ => id) fun _ =>
        endsNumeral_of rfl⟩
  simp only [List.map_id_fun] at hbracketed
  simpa only [compact, compactItems_eq] using hbracketed

/-- An object tells its members, if their values can be told. -/
theorem tells_obj {members : List (String × Json)}
    (h : ∀ member ∈ members, member.2.IsFinite
      ∧ Tells IsFinite EndsNumeral compact id member.2) :
    Tells (fun members => ∀ member ∈ members, member.2.IsFinite) next
      (fun members => compact (.obj members)) id members := by
  have hstarts : ∀ member : String × Json, member.2.IsFinite →
      StartsWith (fun c => !(c == '\x7d')) (compactMember member) := by
    intro member _
    unfold compactMember
    rw [String.append_assoc]
    exact (startsWith_quoted rfl member.1).append _
  have hbracketed : Tells
    (fun members => ∀ member ∈ members, member.2.IsFinite) next
      (fun members => "\x7b" ++ commaSeparated (members.map compactMember)
        ++ "\x7d") (List.map id)
      members :=
    Text.tells_bracketed rfl rfl hstarts fun member hmember =>
      ⟨(h member hmember).1,
      (tells_compactMember (h member hmember).2).mono (fun _ => id) fun _ =>
      endsNumeral_of rfl⟩
  simp only [List.map_id_fun] at hbracketed
  simpa only [compact, compactMembers_eq] using hbracketed

/-- A JSON text tells its value. -/
theorem tells_compact {a : Json} (h : a.IsFinite) :
    Tells IsFinite EndsNumeral compact id a := by
  -- the first character tells the kind of the other value, which leaves one
  -- case of its constructors each time
  induction h with
  | null =>
      intro b hb u v _ _ heq
      have hkind := kind_eq_of_append .null hb heq
      cases b with
      | null => exact ⟨rfl, (String.append_right_inj _).1 heq⟩
      | bool b => cases b <;> cases hkind
      | _ => cases hkind
  | bool a =>
      intro b hb u v _ _ heq
      have hkind := kind_eq_of_append (.bool a) hb heq
      cases b with
      | bool b =>
          cases a <;> cases b
          · exact ⟨rfl, (String.append_right_inj _).1 heq⟩
          · cases hkind
          · cases hkind
          · exact ⟨rfl, (String.append_right_inj _).1 heq⟩
      | _ => cases a <;> cases hkind
  | int n =>
      intro b hb u v hu hv heq
      have hkind := kind_eq_of_append (.int n) hb heq
      exact tells_number (show IsNumber (.int n) from trivial)
        (isNumber_of_kind hb hkind.symm) hu hv heq
  | double finite =>
      intro b hb u v hu hv heq
      have hkind := kind_eq_of_append (.double finite) hb heq
      exact tells_number (show IsNumber (.double _) from finite)
        (isNumber_of_kind hb hkind.symm) hu hv heq
  | str s =>
      intro b hb u v _ _ heq
      have hkind := kind_eq_of_append (.str s) hb heq
      cases b with
      | str t =>
          obtain ⟨hst, huv⟩ := eq_of_quoted_append heq
          exact ⟨congrArg Json.str hst, huv⟩
      | bool b => cases b <;> cases hkind
      | _ => cases hkind
  | arr h ih =>
      intro b hb u v hu hv heq
      have hkind := kind_eq_of_append (.arr h) hb heq
      cases hb with
      | arr hb =>
          obtain ⟨hitems, huv⟩ :=
            tells_arr (fun item hitem => ⟨h item hitem, ih item hitem⟩)
              hb hu hv heq
          exact ⟨congrArg Json.arr hitems, huv⟩
      | bool b => cases b <;> cases hkind
      | _ => cases hkind
  | obj h ih =>
      intro b hb u v hu hv heq
      have hkind := kind_eq_of_append (.obj h) hb heq
      cases hb with
      | obj hb =>
          obtain ⟨hmembers, huv⟩ :=
            tells_obj (fun member hmember =>
              ⟨h member hmember, ih member hmember⟩) hb hu hv heq
          exact ⟨congrArg Json.obj hmembers, huv⟩
      | bool b => cases b <;> cases hkind
      | _ => cases hkind

theorem compact_inj {a b : Json} (ha : a.IsFinite) (hb : b.IsFinite)
    (h : a.compact = b.compact) :
    a = b :=
  (tells_compact ha hb (Text.startsWith_append "," "" rfl)
    (Text.startsWith_append "," "" rfl) (congrArg (· ++ ("," ++ "")) h)).1

end Prerender.Json
