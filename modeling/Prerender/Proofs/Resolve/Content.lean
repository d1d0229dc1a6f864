/-
What options do to the content of their element.

A plain text goes in front of what is there. Plain markup, and a
reactive value that goes into the content, replaces it.
`replacesContent` reads off an option which of the two it does, without
running anything, and the lemmas here tie the content as it is worked
out option by option (`Content.take?`) to that reading:

- the written children are kept exactly if none of the options replaces
  them (`Host.applyOptions_keepsWritten`);
- a list of children that was there never goes away, and without one a
  plain value finds no place (`Content.take?_eq_none_iff`);
- what the options put in comes of data and holds no element
  (`Host.applyOptions_lead`), so that keys and bindings come from
  nowhere else.

All of them follow from one inversion of a single step,
`Content.take?_cases`, which says all that an option can do to the
content. Rows of options take this step again and again, so what one
step keeps the row keeps (`Host.applyOptions_keeps`).
-/
import Prerender.Proofs.Resolve.Effect

namespace Prerender

/-- Whether an option written as `name` puts its value in the place of the
children. -/
def OptionValue.replacesContent (name : String) (value : OptionValue) : Bool :=
  match value.content? name with
  | none => false
  | some kind => if value.isReactive then value.data?.isSome else decide
      (kind = .markup)

/-- Whether one of the options replaces the children. -/
def OptionMap.replacesContent (map : OptionMap) : Bool :=
  map.entries.any fun option => option.2.replacesContent option.1

namespace Content

/-- Whether the written children, if there are any, still count. -/
def keepsWritten : Content → Bool
  | .absent => true
  | .list _ keeps => keeps

/-- What the options have put in front. -/
def lead : Content → List Node
  | .absent => []
  | .list lead _ => lead

/-- An option either leaves the content alone or puts one node in: in front if
it does not replace the content, else in its place. -/
theorem take?_cases {name : String} {value : OptionValue}
    {content content' : Content}
    (h : content.take? name value = some content') :
    (content' = content ∧ value.replacesContent name = false)
      ∨ ∃ kind data, value.content? name = some kind ∧ value.data? = some data
          ∧ ((value.replacesContent name = true ∧ content' = .only kind data)
            ∨ (value.replacesContent name = false
              ∧ ∃ rest keeps, content = .list rest keeps
                ∧ content' = .list (Node.ofJson data :: rest) keeps)) := by
  unfold take? at h
  unfold OptionValue.replacesContent
  -- an option that is no content, then one without data, change nothing
  cases hkind : value.content? name with
  | none =>
      rw [hkind] at h
      cases h
      exact Or.inl ⟨rfl, rfl⟩
  | some kind =>
      cases hdata : value.data? with
      | none =>
          rw [hkind, hdata] at h
          cases h
          refine Or.inl ⟨rfl, ?_⟩
          cases value with
          | literal data => cases hdata
          | reactive value => rfl
      | some data =>
          rw [hkind, hdata] at h
          refine Or.inr ⟨kind, data, rfl, rfl, ?_⟩
          -- reactive values replace the content; plain ones go by their kind
          cases hreactive : value.isReactive with
          | true =>
              simp only [hreactive, if_true] at h
              cases h
              exact Or.inl ⟨rfl, rfl⟩
          | false =>
              simp only [hreactive, Bool.false_eq_true, if_false] at h
              cases content with
              | absent => cases h
              | list rest keeps =>
                  cases kind with
                  | text =>
                      cases h
                      exact Or.inr ⟨rfl, rest, keeps, rfl, rfl⟩
                  | markup =>
                      cases h
                      exact Or.inl ⟨rfl, rfl⟩

/-- The written children count after an option if they did before and it does
not replace them. -/
theorem keepsWritten_take? {name : String} {value : OptionValue}
    {content content' : Content}
    (h : content.take? name value = some content') :
    content'.keepsWritten
      = (content.keepsWritten && !value.replacesContent name) := by
  rcases take?_cases h with ⟨rfl, hkeeps⟩ | ⟨kind, data, -, -, h⟩
  · rw [hkeeps, Bool.not_false, Bool.and_true]
  · rcases h with ⟨hreplaces, rfl⟩ | ⟨hkeeps, rest, keeps, rfl, rfl⟩
    · rw [hreplaces, Bool.not_true, Bool.and_false]
      cases kind <;> rfl
    · rw [hkeeps, Bool.not_false, Bool.and_true]
      rfl

/-- No option takes a list of children away. -/
theorem take?_ne_absent {name : String} {value : OptionValue}
    {content content' : Content}
    (h : content.take? name value = some content')
    (present : content ≠ .absent) :
    content' ≠ .absent := by
  rcases take?_cases h with ⟨rfl, -⟩ | ⟨kind, data, -, -, h⟩
  · exact present
  · rcases h with ⟨-, rfl⟩ | ⟨-, rest, keeps, -, rfl⟩
    · cases kind <;> nofun
    · nofun

/-- Whether there is a list of children. -/
def isPresent : Content → Bool
  | .absent => false
  | .list _ _ => true

/-- A plain value finds no place exactly where there is no list of children. -/
theorem take?_eq_none_iff {name : String} {value : OptionValue}
    {content : Content} :
    content.take? name value = none
      ↔ content.isPresent = false ∧ value.isReactive = false
        ∧ (value.content? name).isSome = true := by
  unfold take?
  cases hkind : value.content? name with
  | none => simp
  | some kind =>
      cases value with
      | reactive value =>
          cases hdata : (OptionValue.reactive value).data? <;>
            simp [OptionValue.isReactive]
      | literal data =>
          cases content with
          | absent => simp [OptionValue.data?, OptionValue.isReactive,
              put?, isPresent]
          | list lead keeps =>
              cases kind <;>
                simp [OptionValue.data?, OptionValue.isReactive,
                put?, isPresent]

/-- There is a list of children after an option if there was one before or the
option brings it. -/
theorem isPresent_take? {name : String} {value : OptionValue}
    {content content' : Content}
    (h : content.take? name value = some content') :
    content'.isPresent = (content.isPresent || value.replacesContent name) := by
  rcases take?_cases h with ⟨rfl, hkeeps⟩ | ⟨kind, data, -, -, h⟩
  · rw [hkeeps, Bool.or_false]
  · rcases h with ⟨hreplaces, rfl⟩ | ⟨-, rest, keeps, rfl, rfl⟩
    · rw [hreplaces, Bool.or_true]
      cases kind <;> rfl
    · rfl

/-- What the options put in comes of data, as content or as markup. -/
theorem lead_take? {p : Node → Prop} (content : ∀ data, p (Node.ofJson data))
    (markup : ∀ data, p (Node.ofMarkup data)) {name : String}
    {value : OptionValue}
    {before after : Content} (h : before.take? name value = some after)
    (all : ∀ node ∈ before.lead, p node) : ∀ node ∈ after.lead, p node := by
  rcases take?_cases h with ⟨rfl, -⟩ | ⟨kind, data, -, -, h⟩
  · exact all
  · rcases h with ⟨-, rfl⟩ | ⟨-, rest, keeps, rfl, rfl⟩
    · cases kind with
      | text => exact List.forall_mem_singleton.2 (content data)
      | markup => exact List.forall_mem_singleton.2 (markup data)
    · exact List.forall_mem_cons.2 ⟨content data, all⟩

/-- A list of children is there if it was given. -/
theorem isPresent_ofChildren (children : Option (List Node)) :
    (ofChildren children).isPresent = children.isSome := by
  cases children <;> rfl

end Content

namespace Host

/-- A run of options keeps the written children exactly if none of them
replaces them. -/
theorem applyOptions_keepsWritten {host host' : Host}
    {options : List (String × OptionValue)}
    {pass pass' : Pass} (h : host.applyOptions options pass = .ok host' pass') :
    host'.content.keepsWritten = (host.content.keepsWritten
      && !options.any fun option => option.2.replacesContent option.1) := by
  induction options generalizing host pass with
  | nil =>
      cases h
      rw [List.any_nil, Bool.not_false, Bool.and_true]
  | cons option rest ih =>
      obtain ⟨name, value⟩ := option
      obtain ⟨mid, midPass, hfirst, hrest⟩ := applyOptions_cons_ok.1 h
      rw [ih hrest, Content.keepsWritten_take? (applyOption_ok hfirst).2.2.1,
        List.any_cons, Bool.not_or, Bool.and_assoc]

/-- A run of options takes no list of children away. -/
theorem applyOptions_ne_absent {host host' : Host}
    {options : List (String × OptionValue)}
    {pass pass' : Pass} (h : host.applyOptions options pass = .ok host' pass')
    (present : host.content ≠ .absent) : host'.content ≠ .absent := by
  refine applyOptions_keeps (P := fun mid => mid.content ≠ .absent) ?_ h present
  intro option _ mid mid' midPass midPass' hmid hstep
  exact Content.take?_ne_absent (applyOption_ok hstep).2.2.1 hmid

/-- Whatever is so of the nodes that data turns into is so of what options put
into the content. -/
theorem applyOptions_lead {p : Node → Prop}
    (content : ∀ data, p (Node.ofJson data))
    (markup : ∀ data, p (Node.ofMarkup data)) {tag : String} {map : OptionMap}
    {children : Option (List Node)} {host : Host}
    {options : List (String × OptionValue)} {pass pass' : Pass}
    (h : Host.applyOptions ⟨tag, map, .ofChildren children⟩ options pass
      = .ok host pass') :
    ∀ node ∈ host.content.lead, p node := by
  refine applyOptions_keeps (P :=
    fun mid => ∀ node ∈ mid.content.lead, p node) ?_ h ?_
  · intro option _ mid mid' midPass midPass' hmid hstep
    exact Content.lead_take? content markup (applyOption_ok hstep).2.2.1 hmid
  · cases children <;> nofun

end Host
end Prerender
