/-
Steps in sequence.

Passes over a page, changes of files and builds are all of one form: a
step has a state, which it may change, and gives a result or an error.
Both leave a state. This differs from a step that fails without one, and
much of what is shown of failures is about the state that they leave.

For one run it has to be known when a sequence gives a result or an
error (`bind_eq_ok`, `bind_eq_error`). Both are equivalences: proofs
take runs apart with one direction and put them together with the other,
and no proof opens the definition of a sequence.

For two runs of one sequence from two states, `Alike` says that they
come out in the same way, with states and errors that are related. There
are two relations of states, one for runs that go on and one for runs
that are over, since a run that fails may leave more or less in common
than one that may go on. Sequences of steps that run alike run alike
(`Alike.bind`), so that a relation has to be looked at only for single
steps.
-/
namespace Prerender.Steps

variable {ε σ α β : Type} {s s' : σ}

/-- A sequence gives a result exactly when its first step gives one and the
second, continued from there, gives this one. -/
theorem bind_eq_ok {x : EStateM ε σ α} {f : α → EStateM ε σ β} {b : β} :
    (x >>= f) s = .ok b s' ↔ ∃ a mid, x s = .ok a mid ∧ f a mid = .ok b s' := by
  show EStateM.bind x f s = .ok b s' ↔ _
  unfold EStateM.bind
  cases x s with
  | ok a mid =>
      constructor
      · intro h
        exact ⟨a, mid, rfl, h⟩
      · intro h
        obtain ⟨_, _, heq, h⟩ := h
        cases heq
        exact h
  | error e mid => simp

/-- A sequence fails exactly when its first step fails, or the second one does
after it. -/
theorem bind_eq_error {x : EStateM ε σ α} {f : α → EStateM ε σ β} {e : ε} :
    (x >>= f) s = .error e s'
      ↔ x s = .error e s' ∨ ∃ a mid, x s = .ok a mid
        ∧ f a mid = .error e s' := by
  show EStateM.bind x f s = .error e s' ↔ _
  unfold EStateM.bind
  cases x s with
  | ok a mid =>
      constructor
      · intro h
        exact Or.inr ⟨a, mid, rfl, h⟩
      · intro h
        rcases h with h | ⟨_, _, heq, h⟩
        · cases h
        · cases heq
          exact h
  | error e mid => simp

/-- Whether a step gave a result. -/
def isOk : EStateM.Result ε σ α → Bool
  | .ok _ _ => true
  | .error _ _ => false

/-- A step that gave a result left a state as well. -/
theorem exists_of_isOk {r : EStateM.Result ε σ α} (h : isOk r = true) :
    ∃ a s, r = .ok a s := by
  cases r with
  | ok a s => exact ⟨a, s, rfl⟩
  | error e s => cases h

/-- The state that is left, with a result or an error. -/
def state : EStateM.Result ε σ α → σ
  | .ok _ s => s
  | .error _ s => s

/-- The state that a sequence leaves is that of its last step that was run. -/
theorem state_bind (x : EStateM ε σ α) (f : α → EStateM ε σ β) (s : σ) :
    state ((x >>= f) s) = match x s with
      | .ok a mid => state (f a mid)
      | .error _ mid => mid := by
  show state (EStateM.bind x f s) = _
  unfold EStateM.bind
  cases x s <;> rfl

-- ============================================================ two runs

/-- Two runs that come out alike: both give the same result and leave states
that are related, or both fail, with errors and states that are. -/
inductive Alike (states : σ → σ → Prop) (errors : ε → ε → Prop)
    (broken : σ → σ → Prop) :
    EStateM.Result ε σ α → EStateM.Result ε σ α → Prop where
  | ok (a : α) {mid mid' : σ} (h : states mid mid') :
      Alike states errors broken (.ok a mid) (.ok a mid')
  | error {e e' : ε} {mid mid' : σ} (h : errors e e') (hs : broken mid mid') :
      Alike states errors broken (.error e mid) (.error e' mid')

variable {states mids : σ → σ → Prop} {errors : ε → ε → Prop}
  {broken : σ → σ → Prop}

/-- Sequences come out alike if their steps do, the second one from any two
states that the first one may leave. -/
theorem Alike.bind {x : EStateM ε σ α} {f : α → EStateM ε σ β}
    (first : Alike mids errors broken (x s) (x s'))
    (second : ∀ a {mid mid'}, mids mid mid' →
      Alike states errors broken (f a mid) (f a mid')) :
    Alike states errors broken ((x >>= f) s) ((x >>= f) s') := by
  show Alike states errors broken (EStateM.bind x f s) (EStateM.bind x f s')
  unfold EStateM.bind
  cases hx : x s with
  | ok a mid =>
      cases hx' : x s' with
      | ok a' mid' =>
          rw [hx, hx'] at first
          obtain ⟨_, h⟩ := first
          exact second a h
      | error e mid' =>
          rw [hx, hx'] at first
          cases first
  | error e mid =>
      cases hx' : x s' with
      | ok a' mid' =>
          rw [hx, hx'] at first
          cases first
      | error e' mid' =>
          rw [hx, hx'] at first
          cases first with
          | error h hs => exact .error h hs

/-- What the results of the first run have in common may be added. -/
theorem Alike.and {r r' : EStateM.Result ε σ α}
    (h : Alike states errors broken r r')
    (left : σ → Prop) (hleft : left (state r)) :
    Alike (fun mid mid' => left mid ∧ states mid mid') errors broken r r' := by
  cases h with
  | ok a h => exact .ok a ⟨hleft, h⟩
  | error h hs => exact .error h hs

/-- The states that are left are related in either case. -/
theorem Alike.left {r r' : EStateM.Result ε σ α}
    (h : Alike states errors broken r r')
    (sub : ∀ {mid mid'}, states mid mid' → broken mid mid') :
    broken (state r) (state r') := by
  cases h with
  | ok a h => exact sub h
  | error h hs => exact hs

/-- The relations may be weakened. -/
theorem Alike.mono {states' broken' : σ → σ → Prop} {errors' : ε → ε → Prop}
    {r r' : EStateM.Result ε σ α} (h : Alike states errors broken r r')
    (hstates : ∀ {mid mid'}, states mid mid' → states' mid mid')
    (herrors : ∀ {e e'}, errors e e' → errors' e e')
    (hbroken : ∀ {mid mid'}, broken mid mid' → broken' mid mid') :
    Alike states' errors' broken' r r' := by
  cases h with
  | ok a h => exact .ok a (hstates h)
  | error h hs => exact .error (herrors h) (hbroken hs)

end Prerender.Steps
