/-
Values at paths of names, and what becomes of them when one value is
laid over another.

Laying does not associate. A number over an object and an object over
the number leave the upper object alone; but the upper object over the
lower one would have kept the members of both. So what many layers come
to cannot be found by putting some of them together first. It can be
followed one path at a time. At a path a layer does one of three things:

1. it has a value there,
2. it bars the way, with a value that is no object at a shorter path, or
3. it has an object where the path leaves it, and says nothing.

In the first two cases it touches the path (`Json.Touches`), and after
laying the path is held as the layer has it (`Json.heldAlike_overlay`),
except that an object may have got more members from below. In the third
the path is held as it was below (`Json.at?_overlay_of_untouched`). Both
are inductions over the path, and in each step the members of an object
have either one source or two (`Json.get?_overlay`).

Touching is decidable, so that examples can be checked.
-/
import Prerender.Proofs.Json.Overlay

namespace Prerender

namespace Json

-- =============================================================== paths

/-- The value at a path of names. -/
def at? : List String → Json → Option Json
  | [], value => some value
  | name :: path, value => (value.get? name).bind (at? path)

/-- Whether the value is an object. -/
def isObject : Json → Bool
  | .obj _ => true
  | _ => false

/-- Whether a value that is no object stands on the way to a path, so that
nothing can be at its end. -/
def Bars (value : Json) (path : List String) : Prop :=
  ∃ front rest held, path = front ++ rest ∧ rest ≠ []
    ∧ value.at? front = some held
    ∧ held.isObject = false

/-- Whether the value says anything about a path: it has something there, or
bars the way. -/
def Touches (value : Json) (path : List String) : Prop :=
  (value.at? path).isSome ∨ value.Bars path

variable {base layer value : Json} {name : String} {path : List String}

theorem get?_of_not_object (h : value.isObject = false) :
    value.get? name = none := by
  cases value with
  | obj members => cases h
  | _ => rfl

/-- In a value that is no object nothing is at a path but at its beginning. -/
theorem at?_of_not_object (h : value.isObject = false) (ne : path ≠ []) :
    value.at? path = none := by
  cases path with
  | nil => exact absurd rfl ne
  | cons name path => rw [at?, get?_of_not_object h, Option.bind_none]

/-- A path may be gone in two parts. -/
theorem at?_append (front back : List String) (value : Json) :
    value.at? (front ++ back) = (value.at? front).bind (at? back) := by
  induction front generalizing value with
  | nil => rfl
  | cons name front ih =>
      rw [List.cons_append, at?, at?]
      cases value.get? name with
      | none => rfl
      | some next => exact ih next

/-- Nothing is at the end of a way that is barred. -/
theorem Bars.at?_eq_none (h : value.Bars path) : value.at? path = none := by
  obtain ⟨front, rest, held, rfl, hne, hheld, hobject⟩ := h
  rw [at?_append, hheld, Option.bind_some, at?_of_not_object hobject hne]

/-- Every value has something at its own place, which is itself. -/
theorem touches_nil (value : Json) : value.Touches [] := Or.inl rfl

/-- A value that is no object bars the way to everything else. -/
theorem touches_of_not_object (h : value.isObject = false)
    (path : List String) : value.Touches path := by
  cases path with
  | nil => exact touches_nil value
  | cons name path =>
      exact Or.inr ⟨[], _, value, rfl, List.cons_ne_nil _ _, rfl, h⟩

/-- An object touches what its members touch. -/
theorem touches_cons (h : value.isObject = true) :
    value.Touches (name :: path) ↔ ∃ next, value.get? name = some next
      ∧ next.Touches path := by
  unfold Touches
  rw [at?]
  constructor
  · -- from the object to its member: what stands there, or what bars the way
    rintro (hsome | ⟨front, rest, held, hpath, hne, hheld, hobject⟩)
    · cases hnext : value.get? name with
      | none =>
          rw [hnext] at hsome
          cases hsome
      | some next =>
          rw [hnext, Option.bind_some] at hsome
          exact ⟨next, rfl, Or.inl hsome⟩
    · cases front with
      | nil =>
          cases hheld
          rw [h] at hobject
          cases hobject
      | cons first front =>
          obtain ⟨rfl, rfl⟩ := List.cons.inj hpath
          obtain ⟨next, hnext, hheld⟩ := Option.bind_eq_some_iff.1 hheld
          exact ⟨next, hnext,
            Or.inr ⟨front, rest, held, rfl, hne, hheld, hobject⟩⟩
  · -- and back
    rintro ⟨next, hnext, hsome | ⟨front, rest, held, rfl, hne, hheld, hobject⟩⟩
    · rw [hnext]
      exact Or.inl hsome
    · refine Or.inr ⟨name :: front, rest, held, rfl, hne, ?_, hobject⟩
      rw [at?, hnext]
      exact hheld

/-- Whether a value touches a path is found by going the path. -/
instance decidableTouches :
    (path : List String) → (value : Json) → Decidable (value.Touches path)
  | [], value => isTrue (touches_nil value)
  | name :: path, value =>
      if hobject : value.isObject = true then
        match hnext : value.get? name with
        | none => isFalse fun h => by
            obtain ⟨next, hsome, -⟩ := (touches_cons hobject).1 h
            rw [hnext] at hsome
            cases hsome
        | some next =>
            have hiff : next.Touches path ↔ value.Touches (name :: path) := by
              rw [touches_cons hobject, hnext]
              exact ⟨fun h => ⟨next, rfl, h⟩, by rintro ⟨_, ⟨⟩, h⟩; exact h⟩
            @decidable_of_iff _ _ hiff (decidableTouches path next)
      else isTrue (touches_of_not_object (Bool.not_eq_true _ ▸ hobject) _)

-- ============================================================== laying

theorem isObject_iff :
    value.isObject = true ↔ ∃ members, value = .obj members := by
  cases value with
  | obj members => exact ⟨fun _ => ⟨members, rfl⟩, fun _ => rfl⟩
  | _ => exact ⟨nofun, by rintro ⟨_, ⟨⟩⟩⟩

theorem not_isObject_iff :
    value.isObject = false ↔ ∀ members, value ≠ .obj members := by
  rw [← Bool.not_eq_true, isObject_iff, not_exists]

/-- The members of an object that has been laid over a value. -/
theorem get?_overlay (ordered : layer.IsOrdered)
    (object : layer.isObject = true) (base : Json)
    (name : String) : (base.overlay layer).get? name
      = match layer.get? name with
        | none => base.get? name
        | some value => some (overlayOn (base.get? name) value) := by
  obtain ⟨members, rfl⟩ := isObject_iff.1 object
  cases hbase : base.isObject with
  | true =>
      obtain ⟨lower, rfl⟩ := isObject_iff.1 hbase
      rw [overlay_obj]
      exact lookup_overlayMembers ordered.ascending.nodup lower name
  | false =>
      rw [overlay_on_ne_obj (not_isObject_iff.1 hbase),
        get?_of_not_object hbase]
      cases (obj members).get? name <;> rfl

/-- What a layer does not touch is after laying as it was below. -/
theorem at?_overlay_of_untouched (ordered : layer.IsOrdered)
    (untouched : ¬ layer.Touches path)
    (base : Json) : (base.overlay layer).at? path = base.at? path := by
  induction path generalizing base layer with
  | nil => exact absurd (touches_nil layer) untouched
  | cons name path ih =>
      have hobject : layer.isObject = true := by
        rw [← Bool.not_eq_false]
        exact fun h => untouched (touches_of_not_object h _)
      rw [touches_cons hobject] at untouched
      rw [at?, at?, get?_overlay ordered hobject]
      cases hnext : layer.get? name with
      | none => rfl
      | some next =>
          have hnot : ¬ next.Touches path := fun h => untouched ⟨next, hnext, h⟩
          obtain ⟨members, rfl⟩ := isObject_iff.1 hobject
          have hordered := ordered.of_lookup hnext
          cases hunder : base.get? name with
          | none =>
              have hnone : next.at? path = none :=
                Option.not_isSome_iff_eq_none.1 fun h => hnot (Or.inl h)
              exact hnone
          | some under => exact ih hordered hnot under

/-- Whether two places are held alike: by the same value, by an object each,
or not at all. -/
def HeldAlike (a b : Option Json) : Prop :=
  a = b ∨ ∃ held held', a = some held ∧ b = some held' ∧ held.isObject = true
    ∧ held'.isObject = true

/-- What is held like nothing is not held. -/
theorem HeldAlike.of_none {a : Option Json} (h : HeldAlike a none) :
    a = none := by
  rcases h with h | ⟨_, _, -, h, -⟩
  · exact h
  · cases h

/-- What is held like a value that is no object is this value. -/
theorem HeldAlike.of_not_object {a : Option Json} (h : HeldAlike a (some value))
    (plain : value.isObject = false) : a = some value := by
  rcases h with h | ⟨_, _, -, hvalue, -, hobject⟩
  · exact h
  · cases hvalue
    rw [plain] at hobject
    cases hobject

/-- What is held like an object is an object. -/
theorem HeldAlike.of_object {a : Option Json} (h : HeldAlike a (some value))
    (object : value.isObject = true) :
    ∃ held, a = some held ∧ held.isObject = true := by
  rcases h with h | ⟨held, _, hheld, -, hobject, -⟩
  · exact ⟨value, h, object⟩
  · exact ⟨held, hheld, hobject⟩

/-- What a layer touches is after laying as the layer has it, but that an
object may have got more members. -/
theorem heldAlike_overlay (ordered : layer.IsOrdered)
    (touched : layer.Touches path) (base : Json) :
    HeldAlike ((base.overlay layer).at? path) (layer.at? path) := by
  -- at the end of the path, then one name further up
  induction path generalizing base layer with
  | nil =>
      cases hlayer : layer.isObject with
      | false =>
          rw [overlay_of_ne_obj base (not_isObject_iff.1 hlayer)]
          exact Or.inl rfl
      | true =>
          cases hbase : base.isObject with
          | false =>
              rw [overlay_on_ne_obj (not_isObject_iff.1 hbase)]
              exact Or.inl rfl
          | true =>
              obtain ⟨members, rfl⟩ := isObject_iff.1 hlayer
              obtain ⟨lower, rfl⟩ := isObject_iff.1 hbase
              rw [overlay_obj]
              exact Or.inr ⟨_, _, rfl, rfl, rfl, rfl⟩
  | cons name path ih =>
      cases hobject : layer.isObject with
      | false =>
          rw [overlay_of_ne_obj base (not_isObject_iff.1 hobject)]
          exact Or.inl rfl
      | true =>
          obtain ⟨next, hnext, htouched⟩ := (touches_cons hobject).1 touched
          obtain ⟨members, rfl⟩ := isObject_iff.1 hobject
          have hordered := ordered.of_lookup hnext
          rw [at?, at?, get?_overlay ordered hobject, hnext]
          cases base.get? name with
          | none => exact Or.inl rfl
          | some under => exact ih hordered htouched under

end Json
end Prerender
