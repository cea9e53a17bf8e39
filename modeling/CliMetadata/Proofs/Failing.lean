import CliMetadata.Error
import CliMetadata.Proofs.Running

set_option autoImplicit false

namespace CliMetadata

/-- An error about bytes that were read. -/
inductive Error.OfFormat : Error → Prop
  | malformed (defect : Defect) : OfFormat (.malformed defect)
  | outOfBounds : OfFormat .outOfBounds
  | notSupported : OfFormat .notSupported

theorem Error.OfFormat.ne_exhausted {e : Error} (format : e.OfFormat) : e ≠ .exhausted := by
  cases format <;> simp

def FailsBy {α : Type} (kind : Error → Prop) (x : Except Error α) : Prop :=
  ∀ e, x = .error e → kind e

namespace FailsBy

variable {α β σ : Type} {kind : Error → Prop}

theorem ok (value : α) : FailsBy kind (.ok value) := by
  intro e impossible
  cases impossible

theorem error {e : Error} (holds : kind e) : FailsBy kind (.error e : Except Error α) := by
  intro other same
  cases same
  exact holds

theorem bind {x : Except Error α} {f : α → Except Error β} (first : FailsBy kind x)
    (rest : ∀ value, FailsBy kind (f value)) : FailsBy kind (x >>= f) := by
  cases ran : x with
  | ok value => exact rest value
  | error e => exact error (first e ran)

theorem map {x : Except Error α} (first : FailsBy kind x) (f : α → β) : FailsBy kind (x.map f) := by
  cases ran : x with
  | ok value => exact ok (f value)
  | error e => exact error (first e ran)

theorem outcome_bind {x : EStateM Error σ α} {f : α → EStateM Error σ β} {s : σ}
    (first : FailsBy kind (outcome x s)) (rest : ∀ value s', FailsBy kind (outcome (f value) s')) :
    FailsBy kind (outcome (x >>= f) s) := by
  cases ran : x s with
  | ok value s' =>
    rw [outcome, bind_after_ok ran f]
    exact rest value s'
  | error e s' =>
    rw [outcome_error (bind_after_error ran f)]
    exact error (first e (outcome_error ran))

end FailsBy

end CliMetadata
