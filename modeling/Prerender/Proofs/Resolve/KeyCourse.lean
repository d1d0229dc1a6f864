/-
The key of one element while its options are worked off, followed apart
from everything else.

The course of the key knows what stands under `key`, the next new key of
the pass and the bindings noted so far; it sees of an option only
whether it is reactive, which attribute it becomes and which binding it
leaves. `Host.applyOptions_course` says that this is enough: the run of
the options and the course agree on the entry, the counter and the
bindings. So what is said of keys need not mention elements, content or
errors.

A course is steady where no option but a readable, faithfully shown
`key` of the author touches the entry (`Element.KeepsKey`). Then every
binding of the element has one key, the written one or the next new one,
and `Element.course_of_keepsKey` gives the course in closed form. Two
inductions over the options are behind it, for the two states that the
entry can be in:

- it reads as a key: then it stays, and no new one is taken
  (`KeyCourse.foldl_work_of_read`);
- it reads as none: then the first reactive option takes the next key,
  and from there on the entry reads as that one
  (`KeyCourse.foldl_work_of_untouched`).

Courses that are not steady are the matter of `WrittenKeys`.
-/
import Prerender.Html.Attribute
import Prerender.Proofs.Resolve.Effect
import Prerender.Proofs.Tree.OptionName

namespace Prerender

-- ============================================================ the course

/-- Where the key of an element has got to. -/
structure KeyCourse where
  /-- What stands under `key`. -/
  entry : Option OptionValue
  /-- The next new key of the pass. -/
  next : UInt32
  /-- The bindings noted so far. -/
  noted : List Binding

namespace KeyCourse

/-- The key that the entry reads as. -/
def read? (course : KeyCourse) : Option ElementKey :=
  course.entry.bind ElementKey.ofOption?

/-- The key that a reactive option finds or is given. -/
def key (course : KeyCourse) : ElementKey := course.read?.getD ⟨course.next⟩

/-- The course once an option has its key: a reactive one that finds none
takes the next. -/
def keyed (course : KeyCourse) (value : OptionValue) : KeyCourse :=
  if value.isReactive && course.read?.isNone then
    { course with
      entry := some (ElementKey.toOption ⟨course.next⟩)
      next := course.next + 1 }
  else course

/-- What stands under `key` after an option written as `name` has become the
given attribute. -/
def entryAfter (name : String) (entry : Option OptionValue) :
    Option (String × Json) → Option OptionValue
  | none => if OptionName.key = name then none else entry
  | some (final, data) =>
      if OptionName.key = final then some (.literal data)
      else if OptionName.key = name then none else entry

/-- The course after one option. -/
def work (course : KeyCourse) : String × OptionValue → KeyCourse
  | (name, value) =>
      { course.keyed value with
        entry := entryAfter name (course.keyed value).entry
          (value.attribute? name)
        noted := course.noted ++ (value.binding? name course.key).toList }

end KeyCourse

namespace Element

/-- The options that the author wrote. -/
def written (e : Element) : List (String × OptionValue) :=
  e.slot.optionsOrEmpty.entries

/-- What stands under `key` among the options. -/
def keyOption? (e : Element) : Option OptionValue :=
  e.slot.optionsOrEmpty.get? OptionName.key

/-- The key that the option reads as. -/
def key? (e : Element) : Option ElementKey :=
  e.keyOption?.bind ElementKey.ofOption?

/-- The course of an element's key through all of its options, when `next` is
the next new key. -/
def course (next : UInt32) (e : Element) : KeyCourse :=
  e.written.foldl KeyCourse.work ⟨e.keyOption?, next, []⟩

end Element

-- ==================================================== agreement with runs

namespace Host

/-- The course that stands where the element and the pass stand. -/
def keyCourse (host : Host) (next : UInt32) (noted : List Binding) :
    KeyCourse :=
  ⟨host.options.get? OptionName.key, next, noted⟩

/-- The element gets its key when the course does. -/
theorem keyed_keyCourse (host : Host) (next : UInt32) (noted : List Binding)
    (value : OptionValue) :
    (host.keyCourse next noted).keyed value
      = ⟨(host.keyedOptions next value).get? OptionName.key,
          if host.takesKey value then next + 1 else next, noted⟩ := by
  unfold KeyCourse.keyed keyedOptions
  rw [show (value.isReactive && (host.keyCourse next noted).read?.isNone)
    = host.takesKey value
    from rfl]
  cases host.takesKey value with
  | true => simp [keyCourse]
  | false => rfl

/-- One option moves the element, the pass and the course alike. -/
theorem applyOption_course {host host' : Host} {option : String × OptionValue}
    {pass pass' : Pass}
    (h : host.applyOption option pass = .ok host' pass')
    (noted : List Binding) :
    ∃ new, pass'.bindings = pass.bindings ++ new
      ∧ (host.keyCourse pass.nextKey noted).work option
        = host'.keyCourse pass'.nextKey (noted ++ new) := by
  obtain ⟨name, value⟩ := option
  obtain ⟨-, hoptions, -, rfl⟩ := applyOption_ok h
  refine ⟨(value.binding? name (host.keyWith pass.nextKey)).toList, rfl, ?_⟩
  unfold KeyCourse.work
  simp only [keyed_keyCourse]
  rw [keyCourse, keyCourse, hoptions, OptionMap.get?_rewrite]
  unfold KeyCourse.entryAfter
  cases value.attribute? name <;> rfl

/-- A row of options moves the element, the pass and the course alike. -/
theorem applyOptions_course {host host' : Host}
    {options : List (String × OptionValue)}
    {pass pass' : Pass} (h : host.applyOptions options pass = .ok host' pass')
    (noted : List Binding) :
    ∃ new, pass'.bindings = pass.bindings ++ new
      ∧ options.foldl KeyCourse.work (host.keyCourse pass.nextKey noted)
        = host'.keyCourse pass'.nextKey (noted ++ new) := by
  induction options generalizing host pass noted with
  | nil =>
      cases h
      refine ⟨[], (List.append_nil _).symm, ?_⟩
      rw [List.append_nil]
      rfl
  | cons option rest ih =>
      obtain ⟨mid, midPass, hfirst, hrest⟩ := applyOptions_cons_ok.1 h
      obtain ⟨first, hbindings, hwork⟩ := applyOption_course hfirst noted
      obtain ⟨later, hlater, hfold⟩ := ih hrest (noted ++ first)
      refine ⟨first ++ later, ?_, ?_⟩
      · rw [hlater, hbindings, List.append_assoc]
      · rw [List.foldl_cons, hwork, hfold, List.append_assoc]

end Host

-- ======================================================= steady courses

/-- Whether an option written as `name` changes what stands under `key`. -/
def OptionValue.TouchesKey (name : String) (value : OptionValue) : Prop :=
  name = OptionName.key
    ∨ ∃ data, value.attribute? name = some (OptionName.key, data)

/-- Whether the document shows the key for what stands under `key`. -/
def ElementKey.ShownBy (key : ElementKey) (entry : Option OptionValue) : Prop :=
  ∃ data, entry = some (.literal data)
    ∧ Html.shown OptionName.key (.literal data)
      = .valued (toString key.number.toNat)

namespace Element

/-- Whether nothing gets in the way of the element's key: only a plain `key`
touches the entry, it reads as a key, and the document shows that very key. -/
def KeepsKey (e : Element) : Prop :=
  ∀ name value, (name, value) ∈ e.written → value.TouchesKey name →
    name = OptionName.key ∧ ∃ data key, value = .literal data
      ∧ ElementKey.ofOption? value = some key ∧ key.ShownBy (some value)

/-- Whether the author wrote a reactive option on the element; listeners
count. -/
def isReactive (e : Element) : Bool :=
  e.written.any fun option => option.2.isReactive

/-- Whether the element takes a new key. -/
def isNumbered (e : Element) : Bool := e.isReactive && e.key?.isNone

/-- The key of the element when `next` is the next new one. -/
def keyAt (next : UInt32) (e : Element) : ElementKey := e.key?.getD ⟨next⟩

/-- The bindings that the options leave on the element under the given key. -/
def bindings (e : Element) (key : ElementKey) : List Binding :=
  e.written.filterMap fun option => option.2.binding? option.1 key

end Element

/-- A key that is written as an option reads as itself. -/
@[simp] theorem ElementKey.ofOption?_toOption (key : ElementKey) :
    ElementKey.ofOption? key.toOption = some key := by
  obtain ⟨number⟩ := key
  have hlt : number.toNat < UInt32.size := number.toNat_lt
  unfold ElementKey.toOption ElementKey.ofOption?
  simp only [Int.toNat_natCast, UInt32.ofNat_toNat]
  rw [if_pos ⟨Int.natCast_nonneg _, Int.ofNat_lt.2 hlt⟩]

theorem ElementKey.shownBy_toOption (key : ElementKey) :
    key.ShownBy (some key.toOption) := by
  refine ⟨.int key.number.toNat, rfl, ?_⟩
  have hplain : Html.booleanAttributes.contains OptionName.key = false := by
    decide
  show Html.shownText OptionName.key (toString (key.number.toNat : Int)) = _
  rw [Html.shownText, hplain, Bool.false_and, if_neg Bool.false_ne_true]
  rfl

/-- Only reactive values leave a binding. -/
theorem OptionValue.isReactive_of_binding? {name : String} {key : ElementKey}
    {value : OptionValue} {binding : Binding}
    (h : value.binding? name key = some binding) :
    value.isReactive = true := by
  cases value with
  | literal data => cases h
  | reactive value => rfl

/-- A binding is noted under the key that the element has. -/
theorem OptionValue.key_of_binding? {name : String} {key : ElementKey}
    {value : OptionValue}
    {binding : Binding} (h : value.binding? name key = some binding) :
    binding.key = key := by
  cases value with
  | literal data => cases h
  | reactive value =>
      cases value with
      | state link =>
          simp only [OptionValue.binding?] at h
          split at h
          · cases h
          · cases h
            rfl
      | observer o => cases h; rfl
      | reference handle => cases h; rfl

namespace Element

/-- No later option has the name of an earlier one. -/
theorem ne_of_mem_after {e : Element}
    {before after : List (String × OptionValue)} {name : String}
    {value : OptionValue} (h : e.written = before ++ (name, value) :: after) :
    ∀ option ∈ after, name ≠ option.1 := by
  intro option hoption heq
  have hdistinct : (e.written.map Prod.fst).Nodup :=
    e.slot.optionsOrEmpty.distinct
  rw [h, List.map_append, List.map_cons, List.nodup_append] at hdistinct
  refine (List.nodup_cons.1 hdistinct.2.1).1 ?_
  show name ∈ _
  rw [heq]
  exact List.mem_map_of_mem hoption

/-- Every binding of an element is noted under its key. -/
theorem key_of_mem_bindings {e : Element} {key : ElementKey} {binding : Binding}
    (h : binding ∈ e.bindings key) : binding.key = key := by
  obtain ⟨⟨name, value⟩, -, hbinding⟩ := List.mem_filterMap.1 h
  exact OptionValue.key_of_binding? hbinding

/-- An element with a binding is reactive. -/
theorem isReactive_of_mem_bindings {e : Element} {key : ElementKey}
    {binding : Binding}
    (h : binding ∈ e.bindings key) : e.isReactive = true := by
  obtain ⟨option, hmem, hbinding⟩ := List.mem_filterMap.1 h
  exact List.any_eq_true.2
    ⟨option, hmem, OptionValue.isReactive_of_binding? hbinding⟩

theorem bindings_eq_nil {e : Element} (plain : e.isReactive = false)
    (key : ElementKey) :
    e.bindings key = [] := by
  refine List.eq_nil_iff_forall_not_mem.2 fun binding hmem => ?_
  rw [isReactive_of_mem_bindings hmem] at plain
  cases plain

end Element

namespace KeyCourse

/-- An option that does not touch the entry leaves it. -/
theorem entryAfter_of_untouched {name : String} {value : OptionValue}
    (entry : Option OptionValue)
    (h : ¬ value.TouchesKey name) :
    entryAfter name entry (value.attribute? name) = entry := by
  have hname : OptionName.key ≠ name := fun heq => h (Or.inl heq.symm)
  cases hattr : value.attribute? name with
  | none => rw [entryAfter, if_neg hname]
  | some final =>
      obtain ⟨final, data⟩ := final
      have hfinal : OptionName.key ≠ final := by
        intro heq
        subst heq
        exact h (Or.inr ⟨data, hattr⟩)
      rw [entryAfter, if_neg hfinal, if_neg hname]

/-- The course reads what stands under `key`. -/
theorem read?_of_entry {course : KeyCourse} {value : OptionValue}
    (h : course.entry = some value) :
    course.read? = ElementKey.ofOption? value := by
  rw [read?, h, Option.bind_some]

/-- While the entry reads as a key and the options keep it, every binding is
noted under that key and no new one is taken. -/
theorem foldl_work_of_read {options : List (String × OptionValue)}
    {course : KeyCourse} {key : ElementKey} (read : course.read? = some key)
    (keeps : ∀ option ∈ options,
      entryAfter option.1 course.entry (option.2.attribute? option.1)
        = course.entry) :
    options.foldl work course
      = { course with noted := course.noted
            ++ options.filterMap fun option =>
              option.2.binding? option.1 key } := by
  induction options generalizing course with
  | nil => rw [List.foldl_nil, List.filterMap_nil, List.append_nil]
  | cons option rest ih =>
      obtain ⟨name, value⟩ := option
      have hkeyed : course.keyed value = course := by
        rw [keyed, read, Option.isNone_some, Bool.and_false,
          if_neg Bool.false_ne_true]
      have hkey : course.key = key := by
        rw [KeyCourse.key, read, Option.getD_some]
      have hwork : course.work (name, value)
          = { course with noted :=
            course.noted ++ (value.binding? name key).toList } := by
        unfold work
        simp only [hkeyed, hkey]
        rw [keeps (name, value) List.mem_cons_self]
      have hrest := @ih { course with noted :=
        course.noted ++ (value.binding? name key).toList }
        read (fun o ho => keeps o (List.mem_cons_of_mem _ ho))
      rw [List.foldl_cons, hwork, hrest, List.filterMap_cons, List.append_assoc]
      cases value.binding? name key <;> rfl

/-- While the entry reads as no key and no option touches it, the first
reactive option takes the next key for all that follow. -/
theorem foldl_work_of_untouched {options : List (String × OptionValue)}
    {entry : Option OptionValue} {next : UInt32} {noted : List Binding}
    (unread : entry.bind ElementKey.ofOption? = none)
    (untouched : ∀ option ∈ options, ¬ option.2.TouchesKey option.1) :
    options.foldl work ⟨entry, next, noted⟩
      = ⟨if options.any (fun option => option.2.isReactive)
            then some (ElementKey.toOption ⟨next⟩) else entry,
          if options.any (fun option => option.2.isReactive)
            then next + 1 else next,
          noted ++ options.filterMap fun option =>
            option.2.binding? option.1 ⟨next⟩⟩ := by
  have hkey : ∀ noted, KeyCourse.key ⟨entry, next, noted⟩ = ⟨next⟩ := by
    intro noted
    rw [KeyCourse.key, read?, unread, Option.getD_none]
  induction options generalizing noted with
  | nil => simp
  | cons option rest ih =>
      obtain ⟨name, value⟩ := option
      have hrest : ∀ option ∈ rest, ¬ option.2.TouchesKey option.1 :=
        fun o ho => untouched o (List.mem_cons_of_mem _ ho)
      have hentry : ∀ entry,
          entryAfter name entry (value.attribute? name) = entry :=
        fun entry => entryAfter_of_untouched entry
          (untouched (name, value) List.mem_cons_self)
      rw [List.foldl_cons]
      cases hreactive : value.isReactive with
      | false =>
          -- a plain option leaves the course as it is
          have hnone : value.binding? name ⟨next⟩ = none := by
            cases hbinding : value.binding? name ⟨next⟩ with
            | none => rfl
            | some binding =>
                rw [OptionValue.isReactive_of_binding? hbinding] at hreactive
                cases hreactive
          have hwork : work ⟨entry, next, noted⟩ (name, value)
            = ⟨entry, next, noted⟩ := by
            unfold work keyed
            simp only [hreactive, Bool.false_and, Bool.false_eq_true,
              if_false, hentry]
            rw [hkey, hnone, Option.toList_none, List.append_nil]
          rw [hwork, ih hrest, List.any_cons, hreactive, Bool.false_or,
            List.filterMap_cons, hnone]
      | true =>
          have hwork : work ⟨entry, next, noted⟩ (name, value)
              = ⟨some (ElementKey.toOption ⟨next⟩), next + 1,
                  noted ++ (value.binding? name ⟨next⟩).toList⟩ := by
            have hread : read? ⟨entry, next, noted⟩ = none := unread
            unfold work keyed
            simp only [hentry]
            rw [hreactive, hread, hkey]
            rfl
          -- from here on the entry reads as the key just taken
          have hread : KeyCourse.read?
            ⟨some (ElementKey.toOption ⟨next⟩), next + 1,
              noted ++ (value.binding? name ⟨next⟩).toList⟩ = some ⟨next⟩ :=
            (read?_of_entry rfl).trans (ElementKey.ofOption?_toOption ⟨next⟩)
          rw [hwork, foldl_work_of_read hread
            (fun o ho => entryAfter_of_untouched _ (hrest o ho)),
            List.any_cons, hreactive, Bool.true_or, if_pos rfl, if_pos rfl,
            List.filterMap_cons, List.append_assoc]
          cases value.binding? name ⟨next⟩ <;> rfl

end KeyCourse

/-- The course of an element that keeps its key, in closed form: all bindings
are noted under the key the author wrote, or under the next new one if there
is none and the element needs one. -/
theorem Element.course_of_keepsKey {e : Element} (keeps : e.KeepsKey)
    (next : UInt32) :
    e.course next
      = ⟨if e.isNumbered then some (ElementKey.toOption ⟨next⟩)
            else e.keyOption?,
          if e.isNumbered then next + 1 else next,
          e.bindings (e.keyAt next)⟩ := by
  unfold course
  cases hentry : e.keyOption? with
  | none =>
      have hwritten : e.key? = none := by rw [key?, hentry]; rfl
      have huntouched : ∀ option ∈ e.written,
        ¬ option.2.TouchesKey option.1 := by
        intro option hmem htouch
        obtain ⟨name, value⟩ := option
        obtain ⟨rfl, -⟩ := keeps name value hmem htouch
        exact OrderedMap.get?_eq_none_iff.1 hentry value hmem
      rw [isNumbered, keyAt, hwritten, Option.isNone_none, Bool.and_true,
        Option.getD_none]
      exact KeyCourse.foldl_work_of_untouched rfl huntouched
  | some value =>
      have hmem : (OptionName.key, value) ∈ e.written :=
        OrderedMap.get?_eq_some_iff.1 hentry
      obtain ⟨-, data, key, rfl, hread, -⟩ := keeps _ _ hmem (Or.inl rfl)
      have hwritten : e.key? = some key := by
        rw [key?, hentry]
        exact hread
      have hkept : ∀ option ∈ e.written,
          KeyCourse.entryAfter option.1 (some (.literal data))
            (option.2.attribute? option.1) = some (.literal data) := by
        intro option hother
        obtain ⟨name, other⟩ := option
        by_cases htouch : other.TouchesKey name
        · -- only the `key` that already stands there touches the entry
          obtain ⟨rfl, -⟩ := keeps name other hother htouch
          have hsame : e.keyOption? = some other :=
            OrderedMap.get?_eq_some_iff.2 hother
          rw [hentry] at hsame
          cases hsame
          simp [OptionValue.attribute?, OptionValue.content?, OptionValue.data?,
            OptionValue.finalName, KeyCourse.entryAfter]
        · exact KeyCourse.entryAfter_of_untouched _ htouch
      rw [isNumbered, keyAt, hwritten, Option.isNone_some, Bool.and_false,
        if_neg Bool.false_ne_true, if_neg Bool.false_ne_true, Option.getD_some]
      exact KeyCourse.foldl_work_of_read hread hkept

end Prerender
