import CliMetadata.Proofs.Loading.Record

set_option autoImplicit false

namespace CliMetadata

/-- What can happen next in a context. -/
inductive LoadContext.Step (c : LoadContext) : LoadMoment → Prop
  | called (call : LoadCall) : c.Step ⟨.called call, c⟩
  | asked {c' : LoadContext} (identity : AssemblyIdentity) (flags : Nat)
    (absent : c.find? identity = none) (same : c.SameStore c') : c.Step ⟨.asked identity flags, c'⟩
  | loaded {source : ModuleSource} {m : Module} {a : Assembly} (read : source.read = .ok m)
    (made : Assembly.ofModule m = .ok a) :
    c.Step ⟨.returned (.load source) (.ok (c.place a).1), (c.place a).2⟩
  | found {identity : AssemblyIdentity} {id : AssemblyId} (flags : Nat)
    (known : c.find? identity = some id) :
    c.Step ⟨.returned (.resolve identity flags) (.ok id), c⟩
  | supplied {c' : LoadContext} (identity : AssemblyIdentity) (flags : Nat) (a : Assembly)
    (same : ((c.place a).2.addKey identity (c.place a).1).SameStore c') :
    c.Step ⟨.returned (.resolve identity flags) (.ok (c.place a).1), c'⟩
  | failed {c' : LoadContext} (call : LoadCall) (e : Error) (same : c.SameStore c') :
    c.Step ⟨.returned call (.error e), c'⟩

inductive LoadContext.Steps : LoadContext → List LoadMoment → LoadContext → Prop
  | nil {c : LoadContext} : Steps c [] c
  | cons {c c' : LoadContext} {m : LoadMoment} {rest : List LoadMoment} (step : c.Step m)
    (steps : Steps m.context rest c') : Steps c (m :: rest) c'

namespace LoadContext

section
variable {c c' c'' : LoadContext} {front back : List LoadMoment}

theorem Step.steps {m : LoadMoment} (step : c.Step m) : c.Steps [m] m.context :=
  .cons step .nil

theorem Steps.append (left : c.Steps front c') (right : c'.Steps back c'') :
    c.Steps (front ++ back) c'' := by
  induction left with
  | nil => exact right
  | cons step steps ih => exact .cons step (ih right)

theorem Steps.split (steps : c.Steps (front ++ back) c'') :
    ∃ c', c.Steps front c' ∧ c'.Steps back c'' := by
  induction front generalizing c with
  | nil => exact ⟨c, .nil, steps⟩
  | cons m front ih =>
    cases steps with
    | cons step steps =>
      obtain ⟨c', left, right⟩ := ih steps
      exact ⟨c', .cons step left, right⟩

theorem Step.consistent {m : LoadMoment} (step : c.Step m) (consistent : c.Consistent) :
    c.Extends m.context ∧ m.context.Consistent := by
  cases step with
  | called call => exact ⟨.refl c, consistent⟩
  | asked identity flags absent same => exact ⟨same.extends, consistent.of_sameStore same⟩
  | loaded read made => exact ⟨c.extends_place _, (consistent.place _).1⟩
  | found flags known => exact ⟨.refl c, consistent⟩
  | supplied identity flags a same =>
    obtain ⟨placed, stored⟩ := consistent.place a
    have grows := (c.extends_place a).trans (extends_addKey _ identity (c.place a).1)
    exact ⟨grows.trans same.extends, (placed.addKey identity stored).of_sameStore same⟩
  | failed call e same => exact ⟨same.extends, consistent.of_sameStore same⟩

end

end LoadContext

namespace Loading

theorem step_load (source : ModuleSource) (c : LoadContext) :
    c.Step ⟨.returned (.load source) (outcome (loadFrom source) c), after (loadFrom source) c⟩ := by
  cases read : source.read with
  | error e =>
    have failed : loadFrom source c = .error e c := by
      rw [loadFrom, read]
      rfl
    rw [outcome_error failed, after_error failed]
    exact .failed _ e ⟨rfl, rfl⟩
  | ok m =>
    have ran : loadFrom source c = load m c := by rw [loadFrom, read]
    cases made : Assembly.ofModule m with
    | error e =>
      have failed : loadFrom source c = .error e c := by rw [ran, load, made]
      rw [outcome_error failed, after_error failed]
      exact .failed _ e ⟨rfl, rfl⟩
    | ok a =>
      have placed : loadFrom source c = .ok (c.place a).1 (c.place a).2 := by rw [ran, load, made]
      rw [outcome_ok placed, after_ok placed]
      exact .loaded read made

theorem steps_load (source : ModuleSource) (c : LoadContext) :
    c.Steps (loadRecord source c).moments (loadRecord source c).after :=
  .cons (.called _) (step_load source c).steps

theorem steps_consultation {depth : Nat}
    (inner : ∀ identity flags (c : LoadContext),
      c.Steps (resolveRecord depth identity flags c).moments
        (after (resolve depth identity flags) c))
    (consultation : Consultation) (c : LoadContext) :
    c.Steps (CallRecord.momentsOf (consultationRecords (resolveRecord depth) consultation c))
      (after (follow (resolve depth) consultation) c) := by
  induction consultation generalizing c with
  | answer result => cases result <;> exact .nil
  | load source next ih =>
    rw [after_follow_load]
    exact (steps_load source c).append (ih _ _)
  | resolve identity flags next ih =>
    rw [after_follow_resolve, consultationRecords, CallRecord.momentsOf, after_resolveRecord,
      outcome_resolveRecord]
    exact (inner identity flags c).append (ih _ _)

theorem step_answered (depth : Nat) {identity : AssemblyIdentity} (flags : Nat) {c : LoadContext}
    {consultation : Consultation} {asked : LoadContext}
    (asking : c.asking? identity flags = some (consultation, asked)) :
    (after (follow (resolve depth) consultation) asked).Step
      ⟨.returned (.resolve identity flags) (outcome (resolve (depth + 1) identity flags) c),
        after (resolve (depth + 1) identity flags) c⟩ := by
  rcases resolve_asked depth flags asking with ⟨a, c', ran, added⟩ | ⟨e, c', ran, added⟩
  · rw [outcome_ok ran, after_ok ran]
    exact .supplied identity flags a added.toSameStore
  · rw [outcome_error ran, after_error ran]
    exact .failed _ e added.toSameStore

theorem steps_unasked {depth : Nat} {identity : AssemblyIdentity} {flags : Nat} {c : LoadContext}
    (unasked : depth = 0 ∨ c.asking? identity flags = none) :
    c.Steps (resolveRecord depth identity flags c).moments
      (after (resolve depth identity flags) c) := by
  rw [moments_unasked unasked]
  refine .cons (.called _) (LoadContext.Step.steps ?_)
  rcases resolve_unasked depth flags unasked with ⟨id, known, ran⟩ | ⟨e, ran⟩
  · rw [outcome_ok ran, after_ok ran]
    exact .found flags known
  · rw [outcome_error ran, after_error ran]
    exact .failed _ e ⟨rfl, rfl⟩

theorem steps_resolve (depth : Nat) (identity : AssemblyIdentity) (flags : Nat) (c : LoadContext) :
    c.Steps (resolveRecord depth identity flags c).moments
      (after (resolve depth identity flags) c) := by
  induction depth generalizing identity flags c with
  | zero => exact steps_unasked (.inl rfl)
  | succ depth ih =>
    cases asking : c.asking? identity flags with
    | none => exact steps_unasked (.inr asking)
    | some found =>
      obtain ⟨consultation, asked⟩ := found
      obtain ⟨absent, same, _⟩ := LoadContext.sameStore_asking asking
      rw [moments_asked depth asking]
      have inside := steps_consultation ih consultation asked
      exact .cons (.called _) (.cons (.asked identity flags absent same)
        (inside.append (step_answered depth flags asking).steps))

theorem steps_history (depth : Nat) (calls : List LoadCall) (c : LoadContext) :
    ∃ c', c.Steps (CallRecord.momentsOf (history depth calls c)) c' := by
  induction calls generalizing c with
  | nil => exact ⟨c, .nil⟩
  | cons call rest ih =>
    obtain ⟨c', further⟩ := ih (callRecord depth call c).after
    refine ⟨c', LoadContext.Steps.append ?_ further⟩
    cases call with
    | load source => exact steps_load source c
    | resolve identity flags =>
      rw [callRecord, after_resolveRecord]
      exact steps_resolve depth identity flags c

end Loading

end CliMetadata
