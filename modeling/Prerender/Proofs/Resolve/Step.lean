/-
Steps of a page pass in sequence.

A step takes the pass as it stands and comes to a result or an error,
each with the pass as it is then. These lemmas say what it takes for a
sequence of two steps to give a result (`bind_eq_ok`) or an error
(`bind_eq_error`), and how a sequence goes on after a first step whose
result is known (`bind_of_ok`). Proofs about resolving take sequences
apart with these and never look into the step type again, so that
keeping more in a pass, or failing in another way, would be met here and
in the steps themselves.
-/
import Prerender.Proofs.Steps
import Prerender.Resolve.Pass

namespace Prerender.Resolve

variable {α β : Type} {pass pass' : Pass}

/-- Returning gives the result and leaves the pass alone. -/
@[simp] theorem pure_apply (a : α) : (pure a : Resolve α) pass = .ok a pass :=
  rfl

/-- A sequence gives a result exactly when its first step gives one and the
second, continued from there, gives this one. -/
theorem bind_eq_ok {x : Resolve α} {f : α → Resolve β} {b : β} :
    (x >>= f) pass = .ok b pass'
      ↔ ∃ a mid, x pass = .ok a mid ∧ f a mid = .ok b pass' :=
  Steps.bind_eq_ok

/-- A sequence whose first step gives a result goes on with it. -/
theorem bind_of_ok {x : Resolve α} {f : α → Resolve β} {a : α}
    (h : x pass = .ok a pass') :
    (x >>= f) pass = f a pass' := by
  show EStateM.bind x f pass = _
  unfold EStateM.bind
  rw [h]

/-- Sequences that go on alike from every result of their first step are the
same. -/
theorem bind_congr {x : Resolve α} {f g : α → Resolve β}
    (h : ∀ a mid, x pass = .ok a mid → f a mid = g a mid) :
    (x >>= f) pass = (x >>= g) pass := by
  show EStateM.bind x f pass = EStateM.bind x g pass
  unfold EStateM.bind
  cases hx : x pass with
  | ok a mid => exact h a mid hx
  | error e mid => rfl

/-- A sequence fails exactly when its first step fails, or the second one does
after it. -/
theorem bind_eq_error {x : Resolve α} {f : α → Resolve β} {e : OptionError} :
    (x >>= f) pass = .error e pass'
      ↔ x pass = .error e pass'
        ∨ ∃ a mid, x pass = .ok a mid ∧ f a mid = .error e pass' :=
  Steps.bind_eq_error

end Prerender.Resolve
