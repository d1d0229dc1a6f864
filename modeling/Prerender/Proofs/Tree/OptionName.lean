/-
The two small-letter forms of an option name.

A plain option becomes an attribute under the kebab form of its name, a
reactive one under the name in small letters. The two differ. Kebab case
breaks words apart and takes each letter for itself; small letters keep
the word together and let a capital sigma look at its neighbours. Three
questions are settled here:

1. Can an option reach `key`, the name under which the client finds an
   element? A kebab form that shows neither a hyphen nor a small sigma
   is the small-letter form (`lowerAfter_eq_kebabAfter`), and `key` is
   one. So no option gets there unless its name in small letters is
   `key`.
2. Can it reach one of the two names that stand for content? Both are
   asked for by their form in small letters of ASCII, which no form
   changes (`content?_lowercase`, `content?_kebab`); so neither form of
   a name becomes content when it is read again, unless the name stood
   for content before.
3. Does a second pass leave a name alone? In ASCII, kebab case leaves
   both forms as they are (`kebab_kebab`, `kebab_lowercase`). Beyond
   ASCII it need not, since a letter may become two.
-/
import Prerender.Proofs.Text.Case
import Prerender.Tree.OptionName

namespace Prerender.OptionName

/-- Where the kebab form has no hyphen and no small sigma, small letters give
the same. -/
theorem lowerAfter_eq_kebabAfter {cs : List Char} {before : Char}
    (earlier : List Char)
    (hyphen : '-' ∉ kebabAfter before cs) (sigma : 'σ' ∉ kebabAfter before cs) :
    Text.lowerAfter earlier cs = kebabAfter before cs := by
  induction cs generalizing before earlier with
  | nil => rfl
  | cons c rest ih =>
      rw [kebabAfter, List.append_assoc] at hyphen sigma ⊢
      have hbreak : breaksBetween before c = false := by
        cases h : breaksBetween before c with
        | false => rfl
        | true => exact absurd (by simp [h]) hyphen
      rw [hbreak, if_neg Bool.false_ne_true, List.nil_append, List.mem_append]
        at hyphen sigma
      have hc : c ≠ 'Σ' := by
        intro h
        subst h
        exact sigma (Or.inl (by decide))
      rw [hbreak, if_neg Bool.false_ne_true, List.nil_append,
        Text.lowerAfter, if_neg hc, ih _ (fun h => hyphen (Or.inr h))
        (fun h => sigma (Or.inr h))]

/-- A name whose kebab form shows no hyphen and no small sigma has this form
in small letters. -/
theorem lowercase_of_kebab_eq {name form : String} (hyphen : '-' ∉ form.toList)
    (sigma : 'σ' ∉ form.toList) (h : kebab name = form) :
    Text.lowercase name = form := by
  have hlist : kebabAfter '-' name.toList = form.toList := by
    rw [← h, kebab, String.toList_ofList]
  have hlower : Text.lowerAfter [] name.toList = kebabAfter '-' name.toList :=
    lowerAfter_eq_kebabAfter [] (by rwa [hlist]) (by rwa [hlist])
  rw [Text.lowercase, hlower, hlist, String.ofList_toList]

/-- A name whose kebab form is `key` is `key` in small letters. -/
theorem lowercase_of_kebab_eq_key {name : String} (h : kebab name = key) :
    Text.lowercase name = key :=
  lowercase_of_kebab_eq (by decide) (by decide) h

/-- The name of the key is its own kebab form. -/
@[simp] theorem kebab_key : kebab key = key := by decide

@[simp] theorem lowercase_key : Text.lowercase key = key := by decide

@[simp] theorem content?_key : content? key = none := by decide

theorem reference_ne_key : reference ≠ key := by decide

-- ============================================================== content

/-- What stands for content is one of two names in small letters. -/
theorem content?_eq_none_iff {name : String} :
    content? name = none
      ↔ Text.lowercase name ≠ "innertext"
        ∧ Text.lowercase name ≠ "innerhtml" := by
  unfold content?
  by_cases htext : Text.lowercase name = "innertext"
  · simp [htext]
  · by_cases hmarkup : Text.lowercase name
      = "innerhtml" <;> simp [htext, hmarkup]

/-- A form without capitals of ASCII stands for content only if it is one of
the two names. -/
theorem content?_of_small {form : String}
    (small : ∀ c ∈ form.toList, c.isUpper = false)
    (text : form ≠ "innertext") (markup : form ≠ "innerhtml") :
    content? form = none := by
  refine content?_eq_none_iff.2 ⟨fun h => text ?_, fun h => markup ?_⟩
  · exact Text.eq_of_lowercase_eq small (by simp) h
  · exact Text.eq_of_lowercase_eq small (by simp) h

/-- Small letters do not make a name stand for content. -/
theorem content?_lowercase {name : String} (h : content? name = none) :
    content? (Text.lowercase name) = none := by
  obtain ⟨htext, hmarkup⟩ := content?_eq_none_iff.1 h
  refine content?_of_small ?_ htext hmarkup
  rw [Text.lowercase, String.toList_ofList]
  exact Text.isUpper_of_mem_lowerAfter

/-- What is so of the hyphen and of the small-letter form of every character
is so of the kebab form of a name. -/
theorem forall_mem_kebabAfter {p : Char → Prop} {cs : List Char} {before : Char}
    (hyphen : p '-')
    (letters : ∀ c ∈ cs, ∀ d ∈ Text.lowerChar c, p d) :
    ∀ d ∈ kebabAfter before cs, p d := by
  induction cs generalizing before with
  | nil => exact List.forall_mem_nil _
  | cons c rest ih =>
      obtain ⟨hc, hrest⟩ := List.forall_mem_cons.1 letters
      rw [kebabAfter, List.forall_mem_append, List.forall_mem_append]
      refine ⟨⟨?_, hc⟩, ih hrest⟩
      split
      · exact List.forall_mem_singleton.2 hyphen
      · exact List.forall_mem_nil _

/-- No kebab form holds a capital of ASCII. -/
theorem isUpper_of_mem_kebabAfter {cs : List Char} {before : Char} :
    ∀ d ∈ kebabAfter before cs, d.isUpper = false :=
  forall_mem_kebabAfter rfl fun _ _ _ hd => Text.isUpper_of_mem_lowerChar hd

theorem content?_kebab {name : String} (h : content? name = none) :
    content? (kebab name) = none := by
  obtain ⟨htext, hmarkup⟩ := content?_eq_none_iff.1 h
  refine content?_of_small ?_ (fun heq => htext ?_) (fun heq => hmarkup ?_)
  · rw [kebab, String.toList_ofList]
    exact isUpper_of_mem_kebabAfter
  · exact lowercase_of_kebab_eq (by decide) (by decide) heq
  · exact lowercase_of_kebab_eq (by decide) (by decide) heq

-- ================================================================ ASCII

/-- Kebab case leaves text of ASCII without capitals alone. -/
theorem kebabAfter_eq_self {cs : List Char} {before : Char}
    (h : ∀ c ∈ cs, c.toNat < 128 ∧ c.isUpper = false) :
    kebabAfter before cs = cs := by
  induction cs generalizing before with
  | nil => rfl
  | cons c rest ih =>
      obtain ⟨⟨hascii, hsmall⟩, hrest⟩ := List.forall_mem_cons.1 h
      have hbreak : breaksBetween before c = false := by
        have hbeyond : ¬ 128 ≤ c.toNat := by omega
        simp [breaksBetween, Text.isCapital, hsmall, hbeyond]
      rw [kebabAfter, hbreak, if_neg Bool.false_ne_true,
        Text.lowerChar_of_isUpper hascii hsmall, ih hrest]
      rfl

/-- The kebab form of a name in ASCII is in ASCII. -/
theorem ascii_kebabAfter {cs : List Char} {before : Char}
    (h : ∀ c ∈ cs, c.toNat < 128) :
    ∀ d ∈ kebabAfter before cs, d.toNat < 128 :=
  forall_mem_kebabAfter (by decide) fun c hc _ hd =>
    Text.toNat_lt_of_mem_lowerChar (h c hc) hd

/-- In ASCII, kebab case leaves a kebab form alone. -/
theorem kebab_kebab {name : String} (ascii : Text.IsAscii name) :
    kebab (kebab name) = kebab name := by
  unfold kebab
  rw [String.toList_ofList, kebabAfter_eq_self]
  exact fun c hc =>
    ⟨ascii_kebabAfter ascii c hc, isUpper_of_mem_kebabAfter c hc⟩

/-- In ASCII, kebab case leaves small letters alone. -/
theorem kebab_lowercase {name : String} (ascii : Text.IsAscii name) :
    kebab (Text.lowercase name) = Text.lowercase name := by
  unfold kebab Text.lowercase
  rw [String.toList_ofList, kebabAfter_eq_self]
  exact fun c hc =>
    ⟨Text.ascii_lowerAfter ascii c hc, Text.isUpper_of_mem_lowerAfter c hc⟩

/-- The name for handles is its own kebab form. -/
theorem kebab_reference : kebab reference = reference := by decide

theorem content?_reference : content? reference = none := by decide

end Prerender.OptionName
