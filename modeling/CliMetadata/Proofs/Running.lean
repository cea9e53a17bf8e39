
set_option autoImplicit false

namespace CliMetadata

variable {ε σ α β : Type}

@[simp] theorem except_bind_ok {x : Except ε α} {f : α → Except ε β} {result : β} :
    x >>= f = .ok result ↔ ∃ value, x = .ok value ∧ f value = .ok result := by
  cases x <;> simp [bind, Except.bind]

@[simp] theorem except_map_ok {x : Except ε α} {f : α → β} {result : β} :
    x.map f = .ok result ↔ ∃ value, x = .ok value ∧ f value = result := by
  cases x <;> simp [Except.map]

@[simp] theorem except_map_error {x : Except ε α} {f : α → β} {e : ε} :
    x.map f = .error e ↔ x = .error e := by
  cases x <;> simp [Except.map]

@[simp] theorem except_toOption_some {x : Except ε α} {value : α} :
    x.toOption = some value ↔ x = .ok value := by
  cases x <;> simp [Except.toOption]

def outcome (x : EStateM ε σ α) (s : σ) : Except ε α :=
  match x s with
  | .ok value _ => .ok value
  | .error e _ => .error e

def after (x : EStateM ε σ α) (s : σ) : σ :=
  match x s with
  | .ok _ s' => s'
  | .error _ s' => s'

@[simp] theorem get_bind (f : σ → EStateM ε σ β) (s : σ) : (get >>= f) s = f s s := rfl

@[simp] theorem modify_bind (g : σ → σ) (f : PUnit → EStateM ε σ β) (s : σ) :
    (modify g >>= f) s = f ⟨⟩ (g s) := rfl

section
variable {x : EStateM ε σ α} {s s' : σ} {value : α} {e : ε}

theorem outcome_ok (ran : x s = .ok value s') : outcome x s = .ok value := by rw [outcome, ran]

theorem after_ok (ran : x s = .ok value s') : after x s = s' := by rw [after, ran]

theorem outcome_error (ran : x s = .error e s') : outcome x s = .error e := by rw [outcome, ran]

theorem after_error (ran : x s = .error e s') : after x s = s' := by rw [after, ran]

theorem ok_of_outcome (came : outcome x s = .ok value) : x s = .ok value (after x s) := by
  cases ran : x s <;> simp_all [outcome, after]

theorem error_of_outcome (came : outcome x s = .error e) : x s = .error e (after x s) := by
  cases ran : x s <;> simp_all [outcome, after]

theorem outcome_congr {y : EStateM ε σ α} (same : x s = y s') : outcome x s = outcome y s' := by
  rw [outcome, outcome, same]

theorem after_congr {y : EStateM ε σ α} (same : x s = y s') : after x s = after y s' := by
  rw [after, after, same]

theorem bind_after_ok (ran : x s = .ok value s') (f : α → EStateM ε σ β) :
    (x >>= f) s = f value s' := by
  change EStateM.bind x f s = _
  rw [EStateM.bind, ran]

theorem bind_after_error (ran : x s = .error e s') (f : α → EStateM ε σ β) :
    (x >>= f) s = .error e s' := by
  change EStateM.bind x f s = _
  rw [EStateM.bind, ran]

@[simp] theorem outcome_bind_pure (g : α → β) :
    outcome (do return g (← x)) s = (outcome x s).map g := by
  cases ran : x s with
  | ok value s' =>
    rw [outcome_ok ran]
    exact outcome_ok (bind_after_ok ran _)
  | error e s' =>
    rw [outcome_error ran]
    exact outcome_error (bind_after_error ran _)

theorem bind_congr_at {f g : α → EStateM ε σ β}
    (same : ∀ value s', x s = .ok value s' → f value s' = g value s') :
    (x >>= f) s = (x >>= g) s := by
  cases ran : x s with
  | ok value s' => rw [bind_after_ok ran, bind_after_ok ran, same value s' ran]
  | error e s' => rw [bind_after_error ran, bind_after_error ran]

theorem bind_congr_left {y : EStateM ε σ α} (same : x s = y s) (f : α → EStateM ε σ β) :
    (x >>= f) s = (y >>= f) s := by
  change EStateM.bind x f s = EStateM.bind y f s
  rw [EStateM.bind, EStateM.bind, same]

theorem ok_of_bind_ok {f : α → EStateM ε σ β} {result : β} (ran : (x >>= f) s = .ok result s') :
    ∃ value between, x s = .ok value between ∧ f value between = .ok result s' := by
  cases first : x s with
  | ok value between => exact ⟨value, between, rfl, (bind_after_ok first f).symm.trans ran⟩
  | error e between =>
    rw [bind_after_error first] at ran
    cases ran

end

def Keeps (R : σ → σ → Prop) (x : EStateM ε σ α) : Prop := ∀ s, R s (after x s)

theorem Keeps.bind {R : σ → σ → Prop} {x : EStateM ε σ α} {f : α → EStateM ε σ β}
    (trans : ∀ {s s' s''}, R s s' → R s' s'' → R s s'') (first : Keeps R x)
    (rest : ∀ value, Keeps R (f value)) : Keeps R (x >>= f) := by
  intro s
  have related := first s
  cases ran : x s with
  | ok value s' =>
    rw [after_ok ran] at related
    have whole := trans related (rest value s')
    rwa [after, ← bind_after_ok ran f] at whole
  | error e s' =>
    rw [after_error ran] at related
    rwa [after_error (bind_after_error ran f)]

end CliMetadata
