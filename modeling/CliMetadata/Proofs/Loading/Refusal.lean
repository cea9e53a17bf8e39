import CliMetadata.Proofs.Loading.Levels

set_option autoImplicit false

namespace CliMetadata

namespace Consultation

def answered : Consultation → List (Except Error AssemblyId) → Option (Except Error Module)
  | .answer result, [] => some result
  | .load _ next, outcome :: rest => (next outcome).answered rest
  | .resolve _ _ next, outcome :: rest => (next outcome).answered rest
  | _, _ => none

end Consultation

namespace CallRecord

/-- The call ends in a cycle that it finds itself, before anybody is asked. -/
def RaisesCycle (r : CallRecord) (cycle : Cycle) : Prop :=
  r.asked = none ∧ r.outcome = .error (.referenceCycle cycle)

def HandsOnCycles (r : CallRecord) (identity : AssemblyIdentity) (flags : Nat) : Prop :=
  ∀ cycle, r.asked ≠ none → r.outcome = .error (.referenceCycle cycle) →
    ∃ resolver, r.before.resolver = some resolver ∧
      (resolver.consult r.before.requests.length identity flags).answered
        (r.nested.map (·.outcome)) = some (.error (.referenceCycle cycle))

end CallRecord

structure StackKept (records : List CallRecord) : Prop where
  distinct : ∀ moment ∈ CallRecord.momentsOf records,
    moment.context.resolving.Pairwise fun identity other => ¬identity.same other
  restored : ∀ r : CallRecord, r.Among records → r.before.SameWork r.after
  idle : ∀ r ∈ records, r.before.Idle ∧ r.after.Idle
  refused : ∀ (r : CallRecord) (identity : AssemblyIdentity) (flags : Nat), r.Among records →
    r.call = .resolve identity flags →
    ∀ cycle, r.RaisesCycle cycle ↔ r.before.find? identity = none ∧
      (∃ other ∈ r.before.resolving, other.same identity) ∧
      cycle = .chain (r.before.resolving.reverse ++ [identity])
  fresh : ∀ r ∈ records, ∀ identity flags cycle, r.call = .resolve identity flags →
    ¬r.RaisesCycle cycle
  handedOn : ∀ (r : CallRecord) (identity : AssemblyIdentity) (flags : Nat), r.Among records →
    r.call = .resolve identity flags → r.HandsOnCycles identity flags
  exhausted : ∀ (r : CallRecord) (identity : AssemblyIdentity) (flags : Nat), r.Among records →
    r.call = .resolve identity flags → r.outcome = .error .exhausted → r.CutShort identity
  logged : ∀ r : CallRecord, r.Among records →
    r.after.requests = (askedIn r.moments).reverse ++ r.before.requests

namespace Loading

-- A request that nobody is asked for ends in a cycle only if an equal one is under way: the claims
-- are those of the requests under way.
theorem refused_resolve (depth : Nat) (identity : AssemblyIdentity) (flags : Nat) {c : LoadContext}
    (inStep : c.InStep) (cycle : Cycle) :
    (resolveRecord depth identity flags c).RaisesCycle cycle ↔
      c.find? identity = none ∧ (∃ other ∈ c.resolving, other.same identity) ∧
        cycle = .chain (c.resolving.reverse ++ [identity]) := by
  rw [← LoadContext.isResolving_iff, CallRecord.RaisesCycle, asked_eq_none, outcome_resolveRecord]
  constructor
  · rintro ⟨unasked, raised⟩
    cases found : c.find? identity with
    | some id =>
      rw [outcome_ok (resolve_found depth flags found)] at raised
      cases raised
    | none =>
      by_cases under : c.isResolving identity
      · rw [outcome_error (resolve_refused depth flags found under)] at raised
        cases raised
        exact ⟨rfl, under, by rw [List.reverse_cons]⟩
      have free : ¬c.isClaimed identity := by rwa [inStep.isClaimed]
      cases depth with
      | zero =>
        rw [outcome_error (resolve_cut flags found under free)] at raised
        cases raised
      | succ depth =>
        have alone : c.resolver = none := by
          simpa [LoadContext.asking?, found, under, free] using unasked
        rw [outcome_error (resolve_alone depth flags found under free alone)] at raised
        cases raised
  · rintro ⟨absent, under, rfl⟩
    refine ⟨.inr (by simp [LoadContext.asking?, under]), ?_⟩
    rw [outcome_error (resolve_refused depth flags absent under), List.reverse_cons]

theorem answered_consultation (depth : Nat) (consultation : Consultation) (c : LoadContext) :
    consultation.answered
        ((consultationRecords (resolveRecord depth) consultation c).map (·.outcome)) =
      some (outcome (follow (resolve depth) consultation) c) := by
  induction consultation generalizing c with
  | answer result => cases result <;> rfl
  | load source next ih =>
    rw [outcome_follow_load, ← ih]
    rfl
  | resolve identity flags next ih =>
    rw [outcome_follow_resolve, ← ih, consultationRecords, List.map_cons, Consultation.answered,
      after_resolveRecord, outcome_resolveRecord]

theorem failure_cycle {identity : AssemblyIdentity} {e : Error} {cycle : Cycle}
    (same : failure identity e = .referenceCycle cycle) : e = .referenceCycle cycle := by
  cases e with
  | referenceCycle other => exact same
  | _ => cases same

theorem handsOn_resolve (depth : Nat) (identity : AssemblyIdentity) (flags : Nat)
    (c : LoadContext) : (resolveRecord depth identity flags c).HandsOnCycles identity flags := by
  intro cycle wasAsked result
  cases depth with
  | zero => exact absurd rfl wasAsked
  | succ depth =>
    cases asking : c.asking? identity flags with
    | none => exact absurd (by simp [resolveRecord, asking]) wasAsked
    | some found =>
      obtain ⟨consultation, asked⟩ := found
      obtain ⟨absent, new, free, r, resolver, rfl, rfl⟩ := LoadContext.asking?_some asking
      refine ⟨r, resolver, ?_⟩
      rw [nested_asked depth asking, before_resolveRecord, answered_consultation]
      rw [outcome_resolveRecord, outcome, resolve_entered depth flags absent new free] at result
      have resolver' : ((c.enter identity).claim identity).resolver = some r := resolver
      cases followed : follow (resolve depth) (r.consult c.requests.length identity flags)
        (((c.enter identity).claim identity).record identity flags) with
      | ok m c' =>
        rw [bind_after_ok (consult_ok resolver' followed)] at result
        cases supplied : loadAs identity m c' with
        | ok id c'' =>
          rw [supplied] at result
          cases result
        | error e c'' =>
          have format := failsBy_loadAs identity m c' e (outcome_error supplied)
          rw [supplied] at result
          cases result
          cases format
      | error e c' =>
        rw [bind_after_error (consult_error resolver' followed)] at result
        rw [outcome_error followed, failure_cycle (Except.error.inj result)]

theorem among_resolve {depth : Nat} {calls : List LoadCall} {c : LoadContext} {r : CallRecord}
    {identity : AssemblyIdentity} {flags : Nat} (idle : c.Idle)
    (among : r.Among (history depth calls c)) (call : r.call = .resolve identity flags) :
    r.before.InStep ∧ ∃ depth', r = resolveRecord depth' identity flags r.before := by
  refine ⟨(inStep_history depth calls idle).1 _ among.called, ?_⟩
  obtain ⟨depth', made, c', rfl⟩ := among_history among
  cases made with
  | load source => cases call
  | resolve other otherFlags =>
    have same : (callRecord depth' (.resolve other otherFlags) c').call =
        .resolve other otherFlags := by
      cases depth' <;> rfl
    rw [same] at call
    cases call
    exact ⟨depth', by rw [callRecord, before_resolveRecord]⟩

theorem stackKept_history (depth : Nat) (resolver : Option Resolver) (calls : List LoadCall) :
    StackKept (history depth calls { resolver }) := by
  have new : LoadContext.Idle { resolver } := ⟨rfl, rfl, rfl⟩
  obtain ⟨moments, idle⟩ := inStep_history depth calls new
  constructor
  · exact fun m member => (moments m member).distinct
  · intro r among
    obtain ⟨depth', call, c', rfl⟩ := among_history among
    obtain ⟨before, same⟩ := sameWork_callRecord depth' call c'
    rwa [before]
  · exact idle
  · intro r identity flags among call cycle
    obtain ⟨inStep, depth', made⟩ := among_resolve new among call
    rw [made, before_resolveRecord]
    exact refused_resolve depth' identity flags inStep cycle
  · intro r member identity flags cycle call raised
    obtain ⟨inStep, depth', made⟩ := among_resolve new (.inl member) call
    rw [made] at raised
    obtain ⟨_, ⟨other, under, _⟩, _⟩ :=
      (refused_resolve depth' identity flags inStep cycle).1 raised
    rw [(idle r member).1.resolving] at under
    cases under
  · intro r identity flags among call
    obtain ⟨_, depth', made⟩ := among_resolve new among call
    rw [made]
    exact handsOn_resolve depth' identity flags r.before
  · intro r identity flags among call ended
    obtain ⟨_, depth', made⟩ := among_resolve new among call
    rw [made] at ended ⊢
    exact (cutShort_resolve depth' identity flags ended).2
  · intro r among
    obtain ⟨depth', call, c', rfl⟩ := among_history among
    exact requests_callRecord depth' call c'

/-- However calls follow each other in a new context, and whatever its resolver does meanwhile, they
keep the stack of requests. The number of levels does not show as long as none is missing, and none
is where the resolver asks for fewer identities in turn. -/
theorem history_stackKept (depth : Nat) (resolver : Option Resolver) (calls : List LoadCall) :
    StackKept (history depth calls { resolver }) ∧
      ((∀ r ∈ history depth calls { resolver }, r.Lasts) →
        ∀ more, history (depth + more) calls { resolver } = history depth calls { resolver }) ∧
      ∀ names : List AssemblyIdentity, (∀ r, resolver = some r → r.AsksWithin names) →
        names.length < depth → ∀ r ∈ history depth calls { resolver }, r.Lasts := by
  refine ⟨stackKept_history depth resolver calls, fun lasts more => ?_, fun names asks deep => ?_⟩
  · exact deeper_history more calls lasts
  · exact lasting_history deep calls ⟨rfl, rfl, rfl⟩ (bounded_fresh asks)

end Loading

def entangled : Catalog where
  entries := [
    { name := "A", supply := .absent, prerequisites := some [.ok { name := "B" }] },
    { name := "B", supply := .absent, prerequisites := some [.ok { name := "A" }] }]
  absence := ""

namespace Loading

theorem asksWithin_entangled :
    entangled.resolver.AsksWithin [{ name := "A" }, { name := "B" }] := by
  apply Catalog.asksWithin
  simp [entangled]

def entangledRequests : List CallRecord :=
  history 3 [.resolve { name := "A" } 0, .resolve { name := "B" } 0]
    { resolver := some entangled.resolver }

theorem history_stackKept_entangled : StackKept entangledRequests ∧
    (∀ r ∈ entangledRequests, r.Lasts) ∧ ∃ outer next inmost : CallRecord,
      entangledRequests = [outer, next] ∧ outer.nested.flatMap (·.nested) = [inmost] ∧
      inmost.RaisesCycle (.chain [{ name := "A" }, { name := "B" }, { name := "A" }]) ∧
      outer.outcome = inmost.outcome ∧ next.asked.isSome := by
  have whole := history_stackKept 3 (some entangled.resolver)
    [.resolve { name := "A" } 0, .resolve { name := "B" } 0]
  have lasts := whole.2.2 [{ name := "A" }, { name := "B" }]
    (fun r same => Option.some.inj same ▸ asksWithin_entangled) (by decide)
  refine ⟨whole.1, lasts, ?_⟩
  have inside : (entangledRequests[0].nested.flatMap (·.nested)).map
      (fun r => (r.asked.isNone, r.outcome)) = [(true, entangledRequests[0].outcome)] ∧
      entangledRequests[0].outcome = .error (.referenceCycle
        (.chain [{ name := "A" }, { name := "B" }, { name := "A" }])) ∧
      entangledRequests[1].asked.isSome := by decide +kernel
  obtain ⟨nested, ended, asked⟩ := inside
  obtain ⟨inmost, one, own⟩ := List.map_eq_singleton_iff.1 nested
  obtain ⟨unasked, same⟩ := Prod.mk.inj own
  refine ⟨_, _, inmost, rfl, one, ⟨?_, same.trans ended⟩, same.symm, asked⟩
  simpa using unasked

end Loading

end CliMetadata
