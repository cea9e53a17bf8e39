import CliMetadata.Proofs.Loading.History
import CliMetadata.Proofs.Loading.Kept

set_option autoImplicit false

namespace CliMetadata

namespace LoadContext

structure SameWork (c c' : LoadContext) : Prop where
  resolving : c'.resolving = c.resolving
  claimed : c'.claimed = c.claimed
  owners : c'.owners = c.owners

/-- Every request under way holds its claim, and no two requests are for the same identity. -/
structure InStep (c : LoadContext) : Prop where
  distinct : c.resolving.Pairwise fun identity other => ¬identity.same other
  claimed : c.claimed = c.resolving
  owners : c.owners = c.resolving

structure Idle (c : LoadContext) : Prop where
  resolving : c.resolving = []
  claimed : c.claimed = []
  owners : c.owners = []

theorem SameWork.refl (c : LoadContext) : c.SameWork c := ⟨rfl, rfl, rfl⟩

theorem SameWork.trans {c c' c'' : LoadContext} (first : c.SameWork c') (second : c'.SameWork c'') :
    c.SameWork c'' where
  resolving := second.resolving.trans first.resolving
  claimed := second.claimed.trans first.claimed
  owners := second.owners.trans first.owners

theorem InStep.of_sameWork {c c' : LoadContext} (inStep : c.InStep) (same : c.SameWork c') :
    c'.InStep where
  distinct := same.resolving ▸ inStep.distinct
  claimed := by rw [same.claimed, same.resolving, inStep.claimed]
  owners := by rw [same.owners, same.resolving, inStep.owners]

theorem Idle.of_sameWork {c c' : LoadContext} (idle : c.Idle) (same : c.SameWork c') : c'.Idle where
  resolving := same.resolving.trans idle.resolving
  claimed := same.claimed.trans idle.claimed
  owners := same.owners.trans idle.owners

theorem Idle.inStep {c : LoadContext} (idle : c.Idle) : c.InStep where
  distinct := idle.resolving ▸ .nil
  claimed := idle.claimed.trans idle.resolving.symm
  owners := idle.owners.trans idle.resolving.symm

@[simp] theorem isResolving_iff {c : LoadContext} {identity : AssemblyIdentity} :
    c.isResolving identity = true ↔ ∃ other ∈ c.resolving, other.same identity :=
  List.any_eq_true

-- The claims add nothing to what the stack of requests refuses.
theorem InStep.isClaimed {c : LoadContext} (inStep : c.InStep) (identity : AssemblyIdentity) :
    c.isClaimed identity = c.isResolving identity := by
  rw [LoadContext.isClaimed, inStep.claimed, isResolving]

theorem InStep.enter {c : LoadContext} (inStep : c.InStep) {identity : AssemblyIdentity}
    (new : ¬c.isResolving identity) (flags : Nat) :
    (((c.enter identity).claim identity).record identity flags).InStep where
  distinct := by
    refine .cons (fun other member same => new (isResolving_iff.2 ⟨other, member, ?_⟩))
      inStep.distinct
    rwa [AssemblyIdentity.same_comm]
  claimed := congrArg (identity :: ·) inStep.claimed
  owners := congrArg (identity :: ·) inStep.owners

theorem sameWork_leave {c c' : LoadContext} {identity : AssemblyIdentity}
    (same : ((c.enter identity).claim identity).SameWork c') :
    c.SameWork (c'.release identity).leave where
  resolving := by simp [leave, release, same.resolving, enter, claim]
  claimed := by simp [leave, release, same.claimed, enter, claim]
  owners := by simp [leave, release, same.owners, enter, claim]

theorem sameWork_place (c : LoadContext) (a : Assembly) : c.SameWork (c.place a).2 := by
  unfold place
  split
  · exact .refl c
  · exact ⟨rfl, rfl, rfl⟩

theorem sameWork_addKey (c : LoadContext) (identity : AssemblyIdentity) (id : AssemblyId) :
    c.SameWork (c.addKey identity id) := by
  unfold addKey
  split
  · exact .refl c
  · exact ⟨rfl, rfl, rfl⟩

end LoadContext

namespace CallRecord

def Among (r : CallRecord) (records : List CallRecord) : Prop :=
  r ∈ records ∨ ∃ outer ∈ records, r.Inside outer

end CallRecord

namespace Loading

theorem kept_sameWork : Kept LoadContext.SameWork where
  refl := .refl
  trans := .trans
  place c _ a _ := c.sameWork_place a
  addKey := LoadContext.sameWork_addKey
  record _ _ _ := ⟨rfl, rfl, rfl⟩
  undone _ _ _ := LoadContext.sameWork_leave

section
variable {c : LoadContext}

theorem inStep_load (source : ModuleSource) (inStep : c.InStep) :
    ∀ m ∈ (loadRecord source c).moments, m.context.InStep := by
  have left := inStep.of_sameWork (kept_sameWork.loadFrom source c)
  simpa [loadRecord, CallRecord.moments, CallRecord.momentsOf] using ⟨inStep, left⟩

theorem inStep_consultation {depth : Nat}
    (inner : ∀ identity flags (c : LoadContext), c.InStep →
      ∀ m ∈ (resolveRecord depth identity flags c).moments, m.context.InStep)
    (consultation : Consultation) (inStep : c.InStep) :
    ∀ m ∈ CallRecord.momentsOf (consultationRecords (resolveRecord depth) consultation c),
      m.context.InStep := by
  induction consultation generalizing c with
  | answer result => exact fun m member => absurd member List.not_mem_nil
  | load source next ih =>
    have left := inStep.of_sameWork (kept_sameWork.loadFrom source c)
    intro m member
    rcases List.mem_append.1 member with first | further
    · exact inStep_load source inStep m first
    · exact ih _ left m further
  | resolve identity flags next ih =>
    have left := inStep.of_sameWork (kept_sameWork.resolve depth identity flags c)
    intro m member
    simp only [consultationRecords, CallRecord.momentsOf, after_resolveRecord,
      outcome_resolveRecord] at member
    rcases List.mem_append.1 member with first | further
    · exact inner identity flags c inStep m first
    · exact ih _ left m further

theorem inStep_asking {identity : AssemblyIdentity} {flags : Nat} {consultation : Consultation}
    {asked : LoadContext} (asking : c.asking? identity flags = some (consultation, asked))
    (inStep : c.InStep) : asked.InStep := by
  obtain ⟨_, new, _, r, _, _, rfl⟩ := LoadContext.asking?_some asking
  exact inStep.enter new flags

theorem inStep_unasked {depth : Nat} {identity : AssemblyIdentity} {flags : Nat}
    (unasked : depth = 0 ∨ c.asking? identity flags = none) (inStep : c.InStep) :
    ∀ m ∈ (resolveRecord depth identity flags c).moments, m.context.InStep := by
  have left := inStep.of_sameWork (kept_sameWork.resolve depth identity flags c)
  simpa [moments_unasked unasked] using ⟨inStep, left⟩

theorem inStep_resolve (depth : Nat) (identity : AssemblyIdentity) (flags : Nat) (c : LoadContext)
    (inStep : c.InStep) :
    ∀ m ∈ (resolveRecord depth identity flags c).moments, m.context.InStep := by
  induction depth generalizing identity flags c with
  | zero => exact inStep_unasked (.inl rfl) inStep
  | succ depth ih =>
    have left := inStep.of_sameWork (kept_sameWork.resolve (depth + 1) identity flags c)
    cases asking : c.asking? identity flags with
    | none => exact inStep_unasked (.inr asking) inStep
    | some found =>
      obtain ⟨consultation, asked⟩ := found
      have entered := inStep_asking asking inStep
      intro m member
      simp only [moments_asked depth asking, List.mem_cons, List.mem_append, List.not_mem_nil,
        or_false] at member
      rcases member with rfl | rfl | inside | rfl
      · exact inStep
      · exact entered
      · exact inStep_consultation ih consultation entered m inside
      · exact left

end

theorem inside_resolveRecord (depth : Nat) (identity : AssemblyIdentity) (flags : Nat)
    (c : LoadContext) {r : CallRecord} (inside : r.Inside (resolveRecord depth identity flags c)) :
    ∃ depth' call c', r = callRecord depth' call c' := by
  induction depth generalizing identity flags c with
  | zero =>
    cases inside with
    | direct member => cases member
    | deeper member => cases member
  | succ depth ih =>
    cases inside with
    | direct member =>
      rcases nested_resolveRecord member with ⟨source, c', rfl⟩ | ⟨identity, flags, c', rfl⟩
      · exact ⟨depth, .load source, c', rfl⟩
      · exact ⟨depth, .resolve identity flags, c', rfl⟩
    | deeper member inside =>
      rcases nested_resolveRecord member with ⟨source, c', rfl⟩ | ⟨identity, flags, c', rfl⟩
      · exact (not_inside_load inside).elim
      · exact ih identity flags c' inside

theorem among_history {depth : Nat} {calls : List LoadCall} {c : LoadContext} {r : CallRecord}
    (among : r.Among (history depth calls c)) : ∃ depth' call c', r = callRecord depth' call c' := by
  rcases among with member | ⟨outer, member, inside⟩
  · obtain ⟨call, c', rfl⟩ := mem_history member
    exact ⟨depth, call, c', rfl⟩
  · obtain ⟨call, c', rfl⟩ := mem_history member
    cases call with
    | load source => exact (not_inside_load inside).elim
    | resolve identity flags => exact inside_resolveRecord depth identity flags c' inside

theorem sameWork_callRecord (depth : Nat) (call : LoadCall) (c : LoadContext) :
    (callRecord depth call c).before = c ∧ c.SameWork (callRecord depth call c).after := by
  cases call with
  | load source => exact ⟨rfl, kept_sameWork.loadFrom source c⟩
  | resolve identity flags =>
    rw [callRecord, before_resolveRecord, after_resolveRecord]
    exact ⟨rfl, kept_sameWork.resolve depth identity flags c⟩

theorem inStep_history (depth : Nat) (calls : List LoadCall) {c : LoadContext} (idle : c.Idle) :
    (∀ m ∈ CallRecord.momentsOf (history depth calls c), m.context.InStep) ∧
      ∀ r ∈ history depth calls c, r.before.Idle ∧ r.after.Idle := by
  induction calls generalizing c with
  | nil => simp [history, CallRecord.momentsOf]
  | cons call rest ih =>
    obtain ⟨before, same⟩ := sameWork_callRecord depth call c
    have left := idle.of_sameWork same
    obtain ⟨moments, records⟩ := ih left
    have first : ∀ m ∈ (callRecord depth call c).moments, m.context.InStep := by
      cases call with
      | load source => exact inStep_load source idle.inStep
      | resolve identity flags => exact inStep_resolve depth identity flags c idle.inStep
    constructor
    · intro m member
      rcases List.mem_append.1 member with now | later
      · exact first m now
      · exact moments m later
    · intro r member
      rcases List.mem_cons.1 member with rfl | later
      · refine ⟨?_, left⟩
        rw [before]
        exact idle
      · exact records r later

end Loading

namespace CallRecord

theorem mem_momentsOf {m : LoadMoment} {r : CallRecord} {records : List CallRecord}
    (member : r ∈ records) (inside : m ∈ r.moments) : m ∈ momentsOf records := by
  induction records with
  | nil => cases member
  | cons first rest ih =>
    rcases List.mem_cons.1 member with rfl | later
    · exact List.mem_append_left _ inside
    · exact List.mem_append_right _ (ih later)

theorem Inside.moments {r outer : CallRecord} (inside : r.Inside outer) {m : LoadMoment}
    (member : m ∈ r.moments) : m ∈ outer.moments := by
  have nested {inner outer : CallRecord} (own : inner ∈ outer.nested) (member : m ∈ inner.moments) :
      m ∈ outer.moments := by
    cases outer
    simp [CallRecord.moments, mem_momentsOf own member]
  induction inside with
  | direct own => exact nested own member
  | deeper own inside ih => exact nested own ih

theorem Among.called {r : CallRecord} {records : List CallRecord} (among : r.Among records) :
    ⟨.called r.call, r.before⟩ ∈ momentsOf records := by
  have own : ⟨.called r.call, r.before⟩ ∈ r.moments := by
    cases r
    simp [CallRecord.moments]
  rcases among with member | ⟨outer, member, inside⟩
  · exact mem_momentsOf member own
  · exact mem_momentsOf member (inside.moments own)

end CallRecord

end CliMetadata
