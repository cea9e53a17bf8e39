import CliMetadata.Lazy.Cells
import CliMetadata.Proofs.Running
import Std.Data.DHashMap.Lemmas

set_option autoImplicit false

namespace CliMetadata.Cells

variable {κ ρ : Type} [BEq κ] [Hashable κ] {V : κ → Type}

section
variable (s : Cells κ V ρ) (k other : κ) (value : V k)

@[simp] theorem running_enter : (s.enter k).running = k :: s.running := rfl

@[simp] theorem running_leave : (s.leave k).running = s.running.erase k := rfl

@[simp] theorem running_store : (s.store k value).running = s.running := rfl

variable [LawfulBEq κ]

@[simp] theorem value?_enter : (s.enter k).value? other = s.value? other := rfl

@[simp] theorem value?_leave : (s.leave k).value? other = s.value? other := rfl

@[simp] theorem leave_enter : (s.enter k).leave k = s := by simp [enter, leave]

@[simp] theorem value?_store_self : (s.store k value).value? k = some value :=
  Std.DHashMap.get?_insert_self

end

variable [LawfulBEq κ] {s s' s'' : Cells κ V ρ} {k : κ}

@[simp] theorem value?_store_of_ne {other : κ} (different : k ≠ other) (value : V k) :
    (s.store k value).value? other = s.value? other := by
  simp [value?, store, Std.DHashMap.get?_insert, different]

theorem value?_store_kept (absent : s.value? k = none) (value : V k) {other : κ} {there : V other}
    (known : s.value? other = some there) : (s.store k value).value? other = some there := by
  have different : k ≠ other := by
    rintro rfl
    exact nomatch absent.symm.trans known
  simpa [different] using known

section
variable {compute : EStateM Error (Cells κ V ρ) (V k)} {value : V k} {e : Error}

theorem fetch_held (there : s.value? k = some value) : fetch k compute s = .ok value s := by
  simp [fetch, there]

theorem fetch_refused (absent : s.value? k = none) (runs : k ∈ s.running) :
    fetch k compute s = .error (.malformed .cyclic) s := by
  simp [fetch, absent, runs]

theorem fetch_computed (absent : s.value? k = none) (idle : k ∉ s.running)
    (ran : compute (s.enter k) = .ok value s') :
    fetch k compute s = .ok value ((s'.leave k).store k value) := by
  simp [fetch, absent, idle, ran]

theorem fetch_failed (absent : s.value? k = none) (idle : k ∉ s.running)
    (ran : compute (s.enter k) = .error e s') : fetch k compute s = .error e (s'.leave k) := by
  simp [fetch, absent, idle, ran]

end

/-- What may become of a state. A cell that is being computed stays empty meanwhile. -/
structure Advances (s s' : Cells κ V ρ) : Prop where
  values : ∀ k value, s.value? k = some value → s'.value? k = some value
  running : s'.running = s.running
  waiting : ∀ k ∈ s.running, s.value? k = none → s'.value? k = none

namespace Advances

theorem refl (s : Cells κ V ρ) : s.Advances s :=
  ⟨fun _ _ there => there, rfl, fun _ _ absent => absent⟩

theorem trans (first : s.Advances s') (second : s'.Advances s'') : s.Advances s'' where
  values k value there := second.values k value (first.values k value there)
  running := second.running.trans first.running
  waiting k runs absent :=
    second.waiting k (first.running ▸ runs) (first.waiting k runs absent)

theorem leave (inside : (s.enter k).Advances s') : s.Advances (s'.leave k) where
  values := inside.values
  running := by simp [inside.running]
  waiting other runs absent := inside.waiting other (List.mem_cons_of_mem _ runs) absent

-- The cell itself is empty up to then, as it was being computed.
theorem store (inside : (s.enter k).Advances s') (absent : s.value? k = none) (idle : k ∉ s.running)
    (value : V k) : s.Advances ((s'.leave k).store k value) := by
  have left := inside.leave
  have empty : s'.value? k = none := inside.waiting k List.mem_cons_self absent
  constructor
  · intro other v there
    exact value?_store_kept empty value (left.values other v there)
  · exact left.running
  · intro other runs none
    have different : k ≠ other := by
      rintro rfl
      exact idle runs
    simpa [different] using left.waiting other runs none

end Advances

theorem advances_fetch {compute : EStateM Error (Cells κ V ρ) (V k)}
    (keeps : Keeps Advances compute) : Keeps Advances (fetch k compute) := by
  intro s
  cases present : s.value? k with
  | some value =>
    rw [after_ok (fetch_held present)]
    exact .refl s
  | none =>
    by_cases runs : k ∈ s.running
    next =>
      rw [after_error (fetch_refused present runs)]
      exact .refl s
    next =>
      have inside := keeps (s.enter k)
      cases ran : compute (s.enter k) with
      | ok value s' =>
        rw [after_ok ran] at inside
        rw [after_ok (fetch_computed present runs ran)]
        exact inside.store present runs value
      | error e s' =>
        rw [after_error ran] at inside
        rw [after_error (fetch_failed present runs ran)]
        exact inside.leave

end CliMetadata.Cells
