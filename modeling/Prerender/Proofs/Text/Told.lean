/-
Written forms that can be told apart.

A value is written in front of other text. If two such texts are the
same, what can be said of the two values, and of the texts behind them?
For a number alone nothing: `1` in front of `2;` is `12` in front of
`;`. But with text behind that does not begin with a digit the number
ends where its digits end, and then both are the same.

`Text.Tells` says this of one value. It has four parameters:

1. `valid`, which other values come into question;
2. `next`, how the text behind may begin;
3. `write`, the written form;
4. `told`, what the form tells, which may be less than the value itself.

Whatever other value is written to the same text then tells the same,
and the text behind is the same too. As the text behind matters, the
beginnings of texts are followed as well (`Text.StartsWith`,
`Text.BeginsWith`).

Forms put together tell what their pieces tell: with a fixed text in
front (`Tells.behind`) or behind (`Tells.upTo`), one after the other
(`Tells.seq`), left out or not (`tells_optional`), and in lists between
commas (`tells_commaSeparated`). So each format is taken apart piece by
piece, in the order in which it is written, and no proof ever looks for
the place where a piece ends.
-/
import Prerender.Json.Printer
import Prerender.Proofs.Number.Digits

namespace Prerender.Text

-- ========================================================== beginnings

/-- Whether the text begins with a character of the given kind. -/
def StartsWith (p : Char → Bool) (s : String) : Prop :=
  s.toList.head?.any p = true

variable {p q : Char → Bool} {s t u v : String}

/-- There is a first character, and it is of the kind. -/
theorem startsWith_iff :
    StartsWith p s ↔ ∃ c rest, s.toList = c :: rest ∧ p c = true := by
  unfold StartsWith
  cases s.toList with
  | nil => exact ⟨nofun, nofun⟩
  | cons c rest =>
      constructor
      · intro h
        exact ⟨c, rest, rfl, h⟩
      · intro h
        obtain ⟨_, _, heq, h⟩ := h
        cases heq
        exact h

/-- What follows does not change how a text begins. -/
theorem StartsWith.append (h : StartsWith p s) (t : String) :
    StartsWith p (s ++ t) := by
  obtain ⟨c, rest, hs, hc⟩ := startsWith_iff.1 h
  refine startsWith_iff.2 ⟨c, rest ++ t.toList, ?_, hc⟩
  rw [String.toList_append, hs, List.cons_append]

/-- A fixed text in front decides how a text begins. -/
theorem startsWith_append (s t : String) (h : s.toList.head?.any p = true) :
    StartsWith p (s ++ t) :=
  StartsWith.append h t

/-- A text that begins with a character of one kind begins with one of any
wider kind. -/
theorem StartsWith.mono (h : StartsWith p s)
    (imp : ∀ c, p c = true → q c = true) :
    StartsWith q s := by
  obtain ⟨c, rest, hs, hc⟩ := startsWith_iff.1 h
  exact startsWith_iff.2 ⟨c, rest, hs, imp c hc⟩

/-- A text does not begin in two ways that exclude each other. -/
theorem StartsWith.not_disjoint (hp : StartsWith p s) (hq : StartsWith q s)
    (disjoint : ∀ c, p c = true → q c = false) : False := by
  obtain ⟨c, rest, hs, hc⟩ := startsWith_iff.1 hp
  obtain ⟨d, rest', hs', hd⟩ := startsWith_iff.1 hq
  rw [hs] at hs'
  cases hs'
  rw [disjoint c hc] at hd
  cases hd

/-- A text that begins with another character does not begin so. -/
theorem not_startsWith_append (s t : String)
    (h : s.toList.head?.any (fun c => !p c) = true) :
    ¬ StartsWith p (s ++ t) := by
  intro hp
  refine (startsWith_append s t h).not_disjoint hp fun c hc => ?_
  rwa [Bool.not_eq_true'] at hc

/-- Whether the text begins with one of the given ones. -/
def BeginsWith (openings : List String) (u : String) : Prop :=
  ∃ s ∈ openings, ∃ rest, u = s ++ rest

/-- Texts of which none begins another do not begin the same text. -/
theorem append_ne_append (h : ¬ s.toList <+: t.toList)
    (h' : ¬ t.toList <+: s.toList) :
    s ++ u ≠ t ++ v := by
  intro heq
  have hs : s.toList <+: (s ++ u).toList := by
    rw [String.toList_append]
    exact List.prefix_append _ _
  have ht : t.toList <+: (s ++ u).toList := by
    rw [heq, String.toList_append]
    exact List.prefix_append _ _
  exact (List.prefix_or_prefix_of_prefix hs ht).elim h h'

-- ============================================================== telling

section Tells
variable {α β γ : Type} {valid valid' : α → Prop} {next next' : String → Prop}
  {write : α → String} {told : α → β} {a : α}

/-- What `a` tells when it is written in front of a text that begins as given:
whatever else could be written so that the same text comes of it tells the
same and ends at the same place. -/
def Tells (valid : α → Prop) (next : String → Prop) (write : α → String)
    (told : α → β) (a : α) :
    Prop :=
  ∀ ⦃b⦄, valid b → ∀ ⦃u v⦄, next u → next v → write a ++ u = write b ++ v →
    told a = told b ∧ u = v

/-- A form tells as much where fewer values and fewer texts behind come into
question. -/
theorem Tells.mono (h : Tells valid next write told a)
    (hvalid : ∀ b, valid' b → valid b)
    (hnext : ∀ u, next' u → next u) : Tells valid' next' write told a :=
  fun b hb u v hu hv heq => h (hvalid b hb) (hnext u hu) (hnext v hv) heq

/-- What is told tells whatever depends on it alone. -/
theorem Tells.imp {told' : α → γ} (h : Tells valid next write told a)
    (himp : ∀ b, valid b → told a = told b → told' a = told' b) :
    Tells valid next write told' a := by
  intro b hb u v hu hv heq
  obtain ⟨htold, huv⟩ := h hb hu hv heq
  exact ⟨himp b hb htold, huv⟩

theorem Tells.on {valid' : γ → Prop} {f : γ → α} {c : γ}
    (h : Tells valid next write told (f c))
    (hvalid : ∀ d, valid' d → valid (f d)) :
    Tells valid' next (fun c => write (f c)) (fun c => told (f c)) c :=
  fun d hd _ _ hu hv heq => h (hvalid d hd) hu hv heq

theorem Tells.behind (h : Tells valid next write told a) (s : String) :
    Tells valid next (fun a => s ++ write a) told a := by
  intro b hb u v hu hv heq
  rw [String.append_assoc, String.append_assoc, String.append_right_inj] at heq
  exact h hb hu hv heq

/-- A fixed text may stand behind what tells, if what tells can end in front
of it. -/
theorem Tells.upTo (h : Tells valid next' write told a) (s : String)
    (opens : ∀ u, next u → next' (s ++ u)) :
    Tells valid next (fun a => write a ++ s) told a := by
  intro b hb u v hu hv heq
  rw [String.append_assoc, String.append_assoc] at heq
  obtain ⟨htold, hrest⟩ := h hb (opens u hu) (opens v hv) heq
  exact ⟨htold, (String.append_right_inj s).1 hrest⟩

/-- Two forms one after the other, the second of which always begins as the
first one needs it. -/
theorem Tells.seq {write' : α → String} {told' : α → γ}
    (h : Tells valid next' write told a)
    (h' : Tells valid next write' told' a) (ha : valid a)
    (opens : ∀ b, valid b → ∀ u, next u → next' (write' b ++ u)) :
    Tells valid next (fun a => write a ++ write' a)
      (fun a => (told a, told' a)) a := by
  intro b hb u v hu hv heq
  rw [String.append_assoc, String.append_assoc] at heq
  obtain ⟨htold, heq'⟩ := h hb (opens a ha u hu) (opens b hb v hv) heq
  obtain ⟨htold', huv⟩ := h' hb hu hv heq'
  exact ⟨Prod.ext htold htold', huv⟩

/-- A part that may be left out, if the text behind never begins as the part
does. -/
theorem tells_optional (present : α → Bool)
    (absent : ∀ a, present a = false → write a = "")
    (clash : ∀ a, present a = true → ∀ u, ¬ next (write a ++ u))
    (same : ∀ a b, present a = false → present b = false → told a = told b)
    (h : present a = true →
      Tells (fun b => valid b ∧ present b = true) next write told a) :
    Tells valid next write told a := by
  have hclash : ∀ a b, present a = false → present b = true → ∀ u v, next u →
      write a ++ u ≠ write b ++ v := by
    intro a b ha hb u v hu heq
    rw [absent a ha, String.empty_append] at heq
    exact clash b hb v (heq ▸ hu)
  intro b hb u v hu hv heq
  -- both there, both left out, or one of each, which cannot be
  cases ha : present a with
  | true =>
      cases hb' : present b with
      | true => exact h ha ⟨hb, hb'⟩ hu hv heq
      | false => exact (hclash b a hb' ha v u hv heq.symm).elim
  | false =>
      cases hb' : present b with
      | true => exact (hclash a b ha hb' u v hu heq).elim
      | false =>
          rw [absent a ha, absent b hb', String.empty_append,
            String.empty_append] at heq
          exact ⟨same a b ha hb', heq⟩

end Tells

/-- Runs of characters of one kind, in front of characters that are not of
this kind, are the same if the whole is. -/
theorem append_run {cs ds us vs : List Char} (hcs : ∀ c ∈ cs, p c = true)
    (hds : ∀ c ∈ ds, p c = true) (hus : us.head?.any (fun c => !p c) = true)
    (hvs : vs.head?.any (fun c => !p c) = true) (h : cs ++ us = ds ++ vs) :
    cs = ds ∧ us = vs := by
  induction cs generalizing ds with
  | nil =>
      -- two runs that end together, or one that goes on over a character that
      -- is not of the kind
      cases ds with
      | nil => exact ⟨rfl, h⟩
      | cons d ds =>
          rw [List.nil_append] at h
          rw [h, List.cons_append, List.head?_cons, Option.any_some,
            hds d (.head _)] at hus
          cases hus
  | cons c cs ih =>
      cases ds with
      | nil =>
          rw [List.nil_append] at h
          rw [← h, List.cons_append, List.head?_cons, Option.any_some,
            hcs c (.head _)] at hvs
          cases hvs
      | cons d ds =>
          injection h with hhead htail
          obtain ⟨heq, hrest⟩ := ih (fun c hc => hcs c (.tail _ hc))
            (fun c hc => hds c (.tail _ hc))
            htail
          exact ⟨by rw [hhead, heq], hrest⟩

/-- Runs of characters of one kind end where the kind does. -/
theorem eq_of_append_run (hs : ∀ c ∈ s.toList, p c = true)
    (ht : ∀ c ∈ t.toList, p c = true)
    (hu : StartsWith (fun c => !p c) u) (hv : StartsWith (fun c => !p c) v)
    (h : s ++ u = t ++ v) :
    s = t ∧ u = v := by
  have hlist := congrArg String.toList h
  rw [String.toList_append, String.toList_append] at hlist
  obtain ⟨hst, huv⟩ := append_run hs ht hu hv hlist
  exact ⟨String.toList_inj.1 hst, String.toList_inj.1 huv⟩

theorem isDigit_of_mem_toString {n : Nat} {c : Char}
    (h : c ∈ (toString n).toList) :
    c.isDigit = true := by
  rw [show (toString n).toList = Nat.toDigits 10 n from Nat.toList_repr] at h
  exact Double.isDigit_of_mem_toDigits h

/-- A whole number ends where its digits end. -/
theorem tells_nat (n : Nat) :
    Tells (fun _ => True) (StartsWith fun c => !c.isDigit)
      (fun n : Nat => toString n) id n := by
  intro m _ u v hu hv h
  obtain ⟨hnm, huv⟩ := eq_of_append_run (fun _ => isDigit_of_mem_toString)
    (fun _ => isDigit_of_mem_toString) hu hv h
  exact ⟨toString_nat_inj.1 hnm, huv⟩

-- ================================================================ lists

open Json (commaSeparated)

/-- What follows the first entry. -/
def commaTail : List String → String
  | [] => ""
  | s :: rest => "," ++ commaSeparated (s :: rest)

/-- A list is its first entry and what follows. -/
theorem commaSeparated_cons (s : String) (rest : List String) :
    commaSeparated (s :: rest) = s ++ commaTail rest := by
  cases rest with
  | nil => exact String.append_empty.symm
  | cons t rest =>
      rw [commaTail, commaSeparated, String.append_assoc]
      nofun

/-- What follows the first entry begins with a comma, or is not there. -/
theorem startsWith_commaTail_append {close : Char → Bool}
    (hu : StartsWith close u)
    (rest : List String) :
    StartsWith (fun c => c == ',' || close c) (commaTail rest ++ u) := by
  cases rest with
  | nil =>
      rw [commaTail, String.empty_append]
      exact hu.mono fun c hc => by rw [hc, Bool.or_true]
  | cons s rest =>
      rw [commaTail]
      have hcomma : StartsWith (fun c => c == ',' || close c) "," := rfl
      exact (hcomma.append _).append u

/-- The first entry of a list that stands in front of a text. -/
theorem commaSeparated_cons_append (s : String) (rest : List String)
    (u : String) :
    commaSeparated (s :: rest) ++ u = s ++ (commaTail rest ++ u) := by
  rw [commaSeparated_cons, String.append_assoc]

theorem commaTail_cons_append (s : String) (rest : List String) (u : String) :
    commaTail (s :: rest) ++ u = "," ++ (s ++ (commaTail rest ++ u)) := by
  rw [commaTail, String.append_assoc, commaSeparated_cons_append]

section
variable {α β : Type} {valid : α → Prop} {close : Char → Bool}
  {write : α → String} {told : α → β}

/-- The entries behind the first one tell what each of them tells: another
list goes on where this one does, since what stands behind does not begin with
a comma. -/
theorem tells_commaTail (comma : close ',' = false) {l : List α}
    (hl : ∀ a ∈ l, Tells valid
      (StartsWith fun c => c == ',' || close c) write told a) :
    Tells (fun l => ∀ a ∈ l, valid a) (StartsWith close)
      (fun l => commaTail (l.map write)) (List.map told) l := by
  have hclash : ∀ s, ¬ StartsWith close ("," ++ s) := by
    refine fun s => not_startsWith_append "," s ?_
    show (!close ',') = true
    rw [comma, Bool.not_false]
  -- both lists are taken apart side by side
  induction l with
  | nil =>
      intro l' _ u v hu _ h
      cases l' with
      | nil => exact ⟨rfl, (String.append_right_inj _).1 h⟩
      | cons b rest' =>
          have hcomma : "" ++ u = _ :=
            h.trans (commaTail_cons_append (write b) _ v)
          rw [String.empty_append] at hcomma
          exact (hclash _ (hcomma ▸ hu)).elim
  | cons a rest ih =>
      intro l' hl' u v hu hv h
      obtain ⟨htell, hrest⟩ := List.forall_mem_cons.1 hl
      cases l' with
      | nil =>
          have hcomma : "" ++ v = _ :=
            h.symm.trans (commaTail_cons_append (write a) _ u)
          rw [String.empty_append] at hcomma
          exact (hclash _ (hcomma ▸ hv)).elim
      | cons b rest' =>
          obtain ⟨hb, hrest'⟩ := List.forall_mem_cons.1 hl'
          have h' := (commaTail_cons_append (write a) _ u).symm.trans
            (h.trans (commaTail_cons_append (write b) _ v))
          rw [String.append_right_inj] at h'
          obtain ⟨hab, htail⟩ := htell hb (startsWith_commaTail_append hu _)
            (startsWith_commaTail_append hv _) h'
          obtain ⟨htold, huv⟩ := ih hrest hrest' hu hv htail
          exact ⟨by rw [List.map_cons, List.map_cons, hab, htold], huv⟩

/-- Entries between commas tell what each of them tells, if none begins like
the text behind. -/
theorem tells_commaSeparated (comma : close ',' = false)
    (starts : ∀ a, valid a → StartsWith (fun c => !close c) (write a))
    {l : List α}
    (hl : ∀ a ∈ l, valid a
      ∧ Tells valid (StartsWith fun c => c == ',' || close c) write told a) :
    Tells (fun l => ∀ a ∈ l, valid a) (StartsWith close)
      (fun l => commaSeparated (l.map write)) (List.map told) l := by
  have hclash : ∀ a, valid a → ∀ rest u v, StartsWith close u →
      "" ++ u = commaSeparated (write a :: rest) ++ v → False := by
    intro a ha rest u v hu h
    rw [String.empty_append, commaSeparated_cons, String.append_assoc] at h
    rw [h] at hu
    refine ((starts a ha).append _).not_disjoint hu fun c hc => ?_
    rwa [Bool.not_eq_true'] at hc
  intro l' hl' u v hu hv h
  -- a list without entries is told by what stands behind; one with entries
  -- begins with its first
  cases l with
  | nil =>
      cases l' with
      | nil => exact ⟨rfl, (String.append_right_inj _).1 h⟩
      | cons b rest' => exact (hclash b (hl' b (.head _)) _ u v hu h).elim
  | cons a rest =>
      obtain ⟨⟨ha, htell⟩, hrest⟩ := List.forall_mem_cons.1 hl
      cases l' with
      | nil => exact (hclash a ha _ v u hv h.symm).elim
      | cons b rest' =>
          obtain ⟨hb, hrest'⟩ := List.forall_mem_cons.1 hl'
          have h' := (commaSeparated_cons_append (write a) _ u).symm.trans
            (h.trans (commaSeparated_cons_append (write b) _ v))
          obtain ⟨hab, htail⟩ := htell hb (startsWith_commaTail_append hu _)
            (startsWith_commaTail_append hv _) h'
          obtain ⟨htold, huv⟩ := tells_commaTail comma
            (fun a ha => (hrest a ha).2) hrest' hu hv htail
          exact ⟨by rw [List.map_cons, List.map_cons, hab, htold], huv⟩

/-- Entries in brackets, which end at the closing one. -/
theorem tells_bracketed {next : String → Prop} {opening closing : String}
    (closes : closing.toList.head?.any close = true) (comma : close ',' = false)
    (starts : ∀ a, valid a → StartsWith (fun c => !close c) (write a))
    {l : List α}
    (hl : ∀ a ∈ l, valid a
      ∧ Tells valid (StartsWith fun c => c == ',' || close c) write told a) :
    Tells (fun l => ∀ a ∈ l, valid a) next
      (fun l => opening ++ commaSeparated (l.map write) ++ closing)
      (List.map told) l := by
  intro l' hl' u v _ _ h
  simp only [String.append_assoc, String.append_right_inj] at h
  obtain ⟨htold, hclosing⟩ := tells_commaSeparated comma starts hl hl'
    (startsWith_append closing u closes) (startsWith_append closing v closes) h
  exact ⟨htold, (String.append_right_inj _).1 hclosing⟩

end

end Prerender.Text
