import CliMetadata.Binding.Resolution
import CliMetadata.Proofs.Lazy.Fetching
import CliMetadata.Proofs.Loading.Growth

set_option autoImplicit false

namespace CliMetadata

@[simp] theorem Session.value?_new (resolver : Option Resolver) (limit : Nat) (slot : Slot) :
    (Session.new resolver limit).value? slot = none :=
  Std.DHashMap.get?_empty

@[simp] theorem Session.value?_withContext (s : Session) (context : LoadContext) (slot : Slot) :
    (s.withContext context).value? slot = s.value? slot := rfl

/-- The second session has every value of the first and may have more of them. -/
structure Session.Grows (s s' : Session) : Prop where
  values : ∀ slot value, s.value? slot = some value → s'.value? slot = some value
  running : s'.running = s.running
  context : s.context.Grows s'.context
  client : s'.client = s.client

namespace Session.Grows

theorem refl (s : Session) : s.Grows s := ⟨fun _ _ there => there, rfl, .refl _, rfl⟩

theorem trans {s s' s'' : Session} (first : s.Grows s') (second : s'.Grows s'') : s.Grows s'' where
  values := fun slot value there => second.values slot value (first.values slot value there)
  running := second.running.trans first.running
  context := first.context.trans second.context
  client := second.client.trans first.client

end Session.Grows

namespace Binding

def Growing {α : Type} (x : Binding α) : Prop :=
  ∀ ⦃s : Session⦄ ⦃value : α⦄ ⦃s' : Session⦄, x s = .ok value s' → s.Grows s'

structure Settles {α : Type} (x : Binding α) : Prop where
  growing : Growing x
  again : ∀ ⦃s : Session⦄ ⦃value : α⦄ ⦃s' later : Session⦄, x s = .ok value s' →
    s'.Grows later → x later = .ok value later

section
variable {α β : Type} {x : Binding α}

theorem Growing.bind {f : α → Binding β} (first : Growing x) (rest : ∀ v, Growing (f v)) :
    Growing (x >>= f) := by
  intro s result s' ran
  obtain ⟨v, between, ran, rested⟩ := ok_of_bind_ok ran
  exact (first ran).trans (rest v rested)

theorem Settles.pure (value : α) : Settles (pure value : Binding α) where
  growing := by
    intro s _ s' ran
    cases ran
    exact .refl s
  again := by
    intro s _ s' later ran _
    cases ran
    rfl

theorem Settles.of_failing (fails : ∀ s, ∃ e s', x s = .error e s') : Settles x := by
  constructor
  · intro s value s' ran
    obtain ⟨_, _, failed⟩ := fails s
    rw [ran] at failed
    cases failed
  · intro s value s' _ ran
    obtain ⟨_, _, failed⟩ := fails s
    rw [ran] at failed
    cases failed

theorem Settles.throw (e : Error) : Settles (throw e : Binding α) :=
  .of_failing fun s => ⟨e, s, rfl⟩

theorem Settles.thrown (e : Error) (f : α → Binding β) : Settles (MonadExcept.throw e >>= f) :=
  .of_failing fun s => ⟨e, s, rfl⟩

theorem Settles.bind {f : α → Binding β} (first : Settles x) (rest : ∀ v, Settles (f v)) :
    Settles (x >>= f) where
  growing := Growing.bind first.growing fun v => (rest v).growing
  again := by
    intro s result s' later ran grown
    obtain ⟨v, between, ran, rested⟩ := ok_of_bind_ok ran
    have before : between.Grows later := ((rest v).growing rested).trans grown
    rw [bind_after_ok (first.again ran before)]
    exact (rest v).again rested grown

theorem growing_view (f : Session → Except Error α) : Growing (view f) := by
  intro s value s' ran
  unfold view lift at ran
  split at ran
  · cases ran
    exact .refl s
  · cases ran

theorem Settles.view {f : Session → Except Error α}
    (keeps : ∀ ⦃s later : Session⦄ ⦃value : α⦄, f s = .ok value → s.Grows later →
      f later = .ok value) : Settles (view f) where
  growing := growing_view f
  again := by
    intro s value s' later ran grown
    unfold Binding.view Binding.lift at ran ⊢
    split at ran
    next seen =>
      cases ran
      rw [keeps seen grown]
    · cases ran

theorem lift_bind_ok {result : Except Error α} {value : α} (given : result = .ok value)
    (f : α → Binding β) (s : Session) : (lift result >>= f) s = f value s := by
  rw [given]
  rfl

theorem ok_of_lift_bind_ok {given : Except Error α} {f : α → Binding β} {s s' : Session}
    {result : β} (ran : (lift given >>= f) s = .ok result s') :
    ∃ value, given = .ok value ∧ f value s = .ok result s' := by
  cases given with
  | ok value => exact ⟨value, rfl, ran⟩
  | error e => cases ran

theorem Settles.lift (result : Except Error α) : Settles (lift result) :=
  .view fun _ _ _ seen _ => seen

section
variable {slot : Slot} {compute : Binding slot.Value}

theorem cell_of_value {s : Session} {value : slot.Value} (there : s.value? slot = some value) :
    cell slot compute s = .ok value s :=
  Cells.fetch_held there

theorem cell_ok {s s' : Session} {value : slot.Value} (ran : cell slot compute s = .ok value s') :
    (s.value? slot = some value ∧ s' = s) ∨
      (s.value? slot = none ∧ ∃ between : Session,
        compute (s.enter slot) = .ok value between ∧ s' = (between.leave slot).store slot value) := by
  unfold cell Cells.fetch at ran
  split at ran
  next present =>
    cases ran
    exact .inl ⟨present, rfl⟩
  next absent =>
    split at ran
    · cases ran
    split at ran
    next between computed =>
      cases ran
      exact .inr ⟨absent, between, computed, rfl⟩
    · cases ran

theorem cell_of_computed {s s' : Session} {value : slot.Value} (absent : s.value? slot = none)
    (idle : slot ∉ s.running) (computed : compute (s.enter slot) = .ok value s') :
    cell slot compute s = .ok value ((s'.leave slot).store slot value) :=
  Cells.fetch_computed absent idle computed

theorem cell_of_unchanged {s : Session} {value : slot.Value} (absent : s.value? slot = none)
    (idle : slot ∉ s.running) (computed : compute (s.enter slot) = .ok value (s.enter slot)) :
    cell slot compute s = .ok value (s.store slot value) := by
  rw [cell_of_computed absent idle computed, Cells.leave_enter]

theorem growing_cell (grows : Growing compute) : Growing (cell slot compute) := by
  intro s value s' ran
  obtain ⟨_, rfl⟩ | ⟨absent, between, computed, rfl⟩ := cell_ok ran
  · exact .refl _
  have grown := grows computed
  refine ⟨?_, ?_, grown.context, grown.client⟩
  · intro other v' there
    have kept := grown.values other v' there
    have different : slot ≠ other := by
      rintro rfl
      exact nomatch absent.symm.trans there
    simpa [different] using kept
  · simp [grown.running]

theorem value?_of_cell_ok {s s' : Session} {value : slot.Value}
    (ran : cell slot compute s = .ok value s') : s'.value? slot = some value := by
  obtain ⟨present, rfl⟩ | ⟨_, between, _, rfl⟩ := cell_ok ran
  · exact present
  · simp

-- The value of a cell stays there, whatever it takes to compute it.
theorem Settles.cell (grows : Growing compute) : Settles (cell slot compute) where
  growing := growing_cell grows
  again := fun _ value _ _ ran grown =>
    cell_of_value (grown.values slot value (value?_of_cell_ok ran))

end

theorem Settles.mapM {f : α → Binding β} (each : ∀ v, Settles (f v)) (values : List α) :
    Settles (values.mapM f) := by
  induction values with
  | nil => exact .pure []
  | cons v values ih =>
    rw [List.mapM_cons]
    exact (each v).bind fun _ => ih.bind fun _ => .pure _

theorem Settles.map (f : α → β) (settles : Settles x) : Settles (f <$> x) := by
  rw [map_eq_pure_bind]
  exact settles.bind fun _ => .pure _

theorem Settles.foldlM {f : β → α → Binding β} (each : ∀ b v, Settles (f b v)) (values : List α)
    (start : β) : Settles (values.foldlM f start) := by
  induction values generalizing start with
  | nil => exact .pure start
  | cons v values ih =>
    rw [List.foldlM_cons]
    exact (each start v).bind fun _ => ih _

end

end Binding

end CliMetadata
