import CliMetadata.Proofs.Loading.Growth
import CliMetadata.Proofs.Loading.Stack
import Mathlib.Data.List.Perm.Subperm

set_option autoImplicit false

namespace CliMetadata

namespace Consultation

def AsksWithin (names : List AssemblyIdentity) : Consultation → Prop
  | .answer _ => True
  | .load _ next => ∀ outcome, (next outcome).AsksWithin names
  | .resolve identity _ next =>
    (∃ name ∈ names, name.same identity) ∧ ∀ outcome, (next outcome).AsksWithin names

end Consultation

/-- Whatever it is asked for, the resolver requests only identities of the list in turn. -/
def Resolver.AsksWithin (r : Resolver) (names : List AssemblyIdentity) : Prop :=
  ∀ turn identity flags, (r.consult turn identity flags).AsksWithin names

namespace CallRecord

/-- The resolver is not asked, although nothing else is in the way: the run has no levels left. -/
structure CutShort (r : CallRecord) (identity : AssemblyIdentity) : Prop where
  outcome : r.outcome = .error .exhausted
  asked : r.asked = none
  absent : r.before.find? identity = none
  new : ∀ other ∈ r.before.resolving, ¬other.same identity

def Lasts (r : CallRecord) : Prop :=
  ∀ inner : CallRecord, inner = r ∨ inner.Inside r → ∀ identity flags,
    inner.call = .resolve identity flags → inner.outcome ≠ .error .exhausted

theorem Lasts.nested {r inner : CallRecord} (lasts : r.Lasts) (member : inner ∈ r.nested) :
    inner.Lasts := by
  rintro further (rfl | inside)
  · exact lasts further (.inr (.direct member))
  · exact lasts further (.inr (.deeper member inside))

theorem lasts_of_nested {r : CallRecord}
    (own : ∀ identity flags, r.call = .resolve identity flags → r.outcome ≠ .error .exhausted)
    (nested : ∀ inner ∈ r.nested, inner.Lasts) : r.Lasts := by
  rintro inner (rfl | inside)
  · exact own
  · cases inside with
    | direct member => exact nested inner member inner (.inl rfl)
    | deeper member inside => exact nested _ member inner (.inr inside)

end CallRecord

namespace Loading

theorem failsBy_loadAs (identity : AssemblyIdentity) (m : Module) (c : LoadContext) :
    FailsBy Error.OfFormat (outcome (loadAs identity m) c) := by
  have loaded : FailsBy Error.OfFormat (outcome (load m) c) := by
    have made := Assembly.failsBy_ofModule m
    unfold outcome load
    cases read : Assembly.ofModule m with
    | ok a => exact .ok _
    | error e => exact .error (made e read)
  exact .outcome_bind loaded fun id c' => .ok id

theorem failure_ne_exhausted (identity : AssemblyIdentity) (e : Error) :
    failure identity e ≠ .exhausted := by
  cases e <;> simp [failure]

theorem lasts_consult (ask : AssemblyIdentity → Nat → Loading AssemblyId)
    (identity : AssemblyIdentity) (flags : Nat) (c : LoadContext) :
    FailsBy (· ≠ .exhausted) (outcome (consult ask identity flags) c) := by
  cases resolver : c.resolver with
  | none =>
    rw [outcome_error (consult_alone resolver)]
    exact .error (by simp)
  | some r =>
    rw [outcome, consult_eq resolver]
    cases follow ask (r.consult c.requests.length identity flags) (c.record identity flags) with
    | ok m c' => exact .ok m
    | error e c' => exact .error (failure_ne_exhausted identity e)

theorem lasts_resolve (depth : Nat) (identity : AssemblyIdentity) (flags : Nat) (c : LoadContext) :
    FailsBy (· ≠ .exhausted) (outcome (resolve (depth + 1) identity flags) c) := by
  cases found : c.find? identity with
  | some id =>
    rw [outcome_ok (resolve_found (depth + 1) flags found)]
    exact .ok id
  | none =>
    by_cases under : c.isResolving identity
    · rw [outcome_error (resolve_refused (depth + 1) flags found under)]
      exact .error (by simp)
    by_cases taken : c.isClaimed identity
    · rw [outcome_error (resolve_taken (depth + 1) flags found under taken)]
      exact .error (by simp)
    have supplied : FailsBy (· ≠ .exhausted)
        (outcome (consult (resolve depth) identity flags >>= loadAs identity)
          ((c.enter identity).claim identity)) :=
      .outcome_bind (lasts_consult _ identity flags _) fun m c' e failed =>
        (failsBy_loadAs identity m c' e failed).ne_exhausted
    unfold outcome at supplied ⊢
    rw [resolve_entered depth flags found under taken]
    split at supplied <;> simp_all

theorem cutShort_resolve (depth : Nat) (identity : AssemblyIdentity) (flags : Nat) {c : LoadContext}
    (ended : (resolveRecord depth identity flags c).outcome = .error .exhausted) :
    depth = 0 ∧ (resolveRecord depth identity flags c).CutShort identity := by
  cases depth with
  | succ depth =>
    rw [outcome_resolveRecord] at ended
    exact absurd rfl (lasts_resolve depth identity flags c _ ended)
  | zero =>
    have absent : c.find? identity = none := by
      cases found : c.find? identity with
      | none => rfl
      | some id =>
        rw [outcome_resolveRecord, outcome_ok (resolve_found 0 flags found)] at ended
        cases ended
    have new : ¬c.isResolving identity := by
      intro under
      rw [outcome_resolveRecord, outcome_error (resolve_refused 0 flags absent under)] at ended
      cases ended
    rw [LoadContext.isResolving_iff] at new
    exact ⟨rfl, ended, rfl, absent, fun other member same => new ⟨other, member, same⟩⟩

theorem lasts_load (source : ModuleSource) (c : LoadContext) : (loadRecord source c).Lasts := by
  rintro inner (rfl | inside) identity flags call
  · cases call
  · exact (not_inside_load inside).elim

theorem length_le_of_apart {stack names : List AssemblyIdentity}
    (apart : stack.Pairwise fun identity other => ¬identity.same other)
    (inside : ∀ identity ∈ stack, ∃ name ∈ names, name.same identity) :
    stack.length ≤ names.length := by
  have distinct : (stack.map (·.sameKey)).Nodup := by
    refine List.pairwise_map.2 (apart.imp fun different equal => ?_)
    exact different (AssemblyIdentity.same_iff.2 equal)
  have among : stack.map (·.sameKey) ⊆ names.map (·.sameKey) := by
    intro key member
    obtain ⟨identity, under, rfl⟩ := List.mem_map.1 member
    obtain ⟨name, known, same⟩ := inside identity under
    exact List.mem_map.2 ⟨name, known, AssemblyIdentity.same_iff.1 same⟩
  simpa using (List.subperm_of_subset distinct among).length_le

/-- All requests under way but the outermost are for identities of the list, as are those that the
resolver makes. -/
structure Bounded (names : List AssemblyIdentity) (c : LoadContext) : Prop where
  inStep : c.InStep
  inner : ∀ identity ∈ c.resolving.dropLast, ∃ name ∈ names, name.same identity
  asks : ∀ r, c.resolver = some r → r.AsksWithin names

theorem bounded_fresh {names : List AssemblyIdentity} {resolver : Option Resolver}
    (asks : ∀ r, resolver = some r → r.AsksWithin names) : Bounded names { resolver } where
  inStep := LoadContext.Idle.inStep ⟨rfl, rfl, rfl⟩
  inner _ member := absurd member List.not_mem_nil
  asks := asks

namespace Bounded

variable {names : List AssemblyIdentity} {c c' asked : LoadContext} {identity : AssemblyIdentity}
  {flags depth : Nat} {consultation : Consultation}

theorem kept (bounded : Bounded names c) (left : c.SameWork c' ∧ c.Grows c') :
    Bounded names c' where
  inStep := bounded.inStep.of_sameWork left.1
  inner := left.1.resolving ▸ bounded.inner
  asks := left.2.resolver ▸ bounded.asks

theorem enter (bounded : Bounded names c)
    (known : c.resolving = [] ∨ ∃ name ∈ names, name.same identity)
    (asking : c.asking? identity flags = some (consultation, asked)) :
    Bounded names asked ∧ asked.resolving = identity :: c.resolving ∧
      consultation.AsksWithin names := by
  have entered := inStep_asking asking bounded.inStep
  obtain ⟨_, _, _, r, resolver, rfl, rfl⟩ := LoadContext.asking?_some asking
  refine ⟨⟨entered, ?_, bounded.asks⟩, rfl, bounded.asks r resolver _ _ _⟩
  change ∀ other ∈ (identity :: c.resolving).dropLast, ∃ name ∈ names, name.same other
  cases under : c.resolving with
  | nil => simp
  | cons first rest =>
    have inner := bounded.inner
    rw [under] at inner known
    rw [List.dropLast_cons_of_ne_nil (List.cons_ne_nil first rest)]
    exact List.forall_mem_cons.2 ⟨known.resolve_left (List.cons_ne_nil first rest), inner⟩

-- The requests under way are for different identities, all of the list but the outermost.
theorem not_cutShort (bounded : Bounded names c)
    (known : c.resolving = [] ∨ ∃ name ∈ names, name.same identity)
    (deep : names.length < c.resolving.length) (new : ∀ other ∈ c.resolving, ¬other.same identity) :
    False := by
  cases under : c.resolving with
  | nil => simp [under] at deep
  | cons first rest =>
    rw [under] at known deep
    have there := known.resolve_left (List.cons_ne_nil first rest)
    have inner := bounded.inner
    have apart := bounded.inStep.distinct.sublist (List.dropLast_sublist c.resolving)
    have others : ∀ other ∈ c.resolving.dropLast, ¬identity.same other := by
      intro other member
      rw [AssemblyIdentity.same_comm]
      exact new other ((List.dropLast_sublist c.resolving).mem member)
    have most := length_le_of_apart (List.pairwise_cons.2 ⟨others, apart⟩)
      (List.forall_mem_cons.2 ⟨there, inner⟩)
    simp [under] at most deep
    omega

end Bounded

theorem mem_consultation {R : LoadContext → LoadContext → Prop} (kept : Kept R)
    {names : List AssemblyIdentity} {depth : Nat} (consultation : Consultation)
    (within : consultation.AsksWithin names) {c : LoadContext} {r : CallRecord}
    (member : r ∈ consultationRecords (resolveRecord depth) consultation c) :
    (∃ source c', r = loadRecord source c') ∨ ∃ identity flags c',
      r = resolveRecord depth identity flags c' ∧ R c c' ∧ ∃ name ∈ names, name.same identity := by
  induction consultation generalizing c with
  | answer result => cases member
  | load source next ih =>
    rcases List.mem_cons.1 member with rfl | further
    · exact .inl ⟨source, c, rfl⟩
    · refine (ih _ (within _) further).imp_right ?_
      rintro ⟨identity, flags, c', same, left, known⟩
      exact ⟨identity, flags, c', same, kept.trans (kept.loadFrom source c) left, known⟩
  | resolve identity flags next ih =>
    rcases List.mem_cons.1 member with rfl | further
    · exact .inr ⟨identity, flags, c, rfl, kept.refl c, within.1⟩
    · rw [after_resolveRecord] at further
      refine (ih _ (within.2 _) further).imp_right ?_
      rintro ⟨other, otherFlags, c', same, left, known⟩
      exact ⟨other, otherFlags, c', same,
        kept.trans (kept.resolve depth identity flags c) left, known⟩

theorem lasting_resolve {names : List AssemblyIdentity} (depth : Nat) (identity : AssemblyIdentity)
    (flags : Nat) {c : LoadContext} (bounded : Bounded names c)
    (known : c.resolving = [] ∨ ∃ name ∈ names, name.same identity)
    (deep : names.length < c.resolving.length + depth) :
    (resolveRecord depth identity flags c).Lasts := by
  induction depth generalizing identity flags c with
  | zero =>
    refine CallRecord.lasts_of_nested (fun _ _ _ ended => ?_) (fun _ member => by cases member)
    have new := (cutShort_resolve 0 identity flags ended).2.new
    exact bounded.not_cutShort known deep new
  | succ depth ih =>
    refine CallRecord.lasts_of_nested (fun _ _ _ ended => ?_) (fun inner member => ?_)
    · cases (cutShort_resolve (depth + 1) identity flags ended).1
    cases asking : c.asking? identity flags with
    | none =>
      rw [record_unasked (.inr asking)] at member
      cases member
    | some found =>
      obtain ⟨consultation, asked⟩ := found
      obtain ⟨entered, stack, within⟩ := bounded.enter known asking
      rw [nested_asked depth asking] at member
      rcases mem_consultation (kept_sameWork.and kept_grows) consultation within member with
        ⟨source, c', rfl⟩ | ⟨other, otherFlags, c', rfl, left, there⟩
      · exact lasts_load source c'
      · refine ih other otherFlags (entered.kept left) (.inr there) ?_
        rw [left.1.resolving, stack, List.length_cons]
        omega

theorem lasting_history {names : List AssemblyIdentity} {depth : Nat} (deep : names.length < depth)
    (calls : List LoadCall) {c : LoadContext} (idle : c.Idle) (bounded : Bounded names c) :
    ∀ r ∈ history depth calls c, r.Lasts := by
  induction calls generalizing c with
  | nil => exact fun r member => absurd member List.not_mem_nil
  | cons call rest ih =>
    refine List.forall_mem_cons.2 ⟨?_, ?_⟩
    · cases call with
      | load source => exact lasts_load source c
      | resolve identity flags =>
        exact lasting_resolve depth identity flags bounded (.inl idle.resolving) (by omega)
    · have left : c.SameWork (callRecord depth call c).after ∧
          c.Grows (callRecord depth call c).after := by
        cases call with
        | load source => exact (kept_sameWork.and kept_grows).loadFrom source c
        | resolve identity flags =>
          rw [callRecord, after_resolveRecord]
          exact (kept_sameWork.and kept_grows).resolve depth identity flags c
      exact ih (idle.of_sameWork left.1) (bounded.kept left)

theorem asking?_of_lasts {depth : Nat} {identity : AssemblyIdentity} {flags : Nat} {c : LoadContext}
    (lasts : (resolveRecord depth identity flags c).Lasts)
    (unasked : depth = 0 ∨ c.asking? identity flags = none) : c.asking? identity flags = none := by
  rcases unasked with rfl | asking
  · cases asking : c.asking? identity flags with
    | none => rfl
    | some found =>
      obtain ⟨absent, new, free, _⟩ := LoadContext.asking?_some asking
      exact absurd (outcome_error (resolve_cut flags absent new free))
        (lasts _ (.inl rfl) identity flags rfl)
  · exact asking

theorem resolve_levels {depth : Nat} (more : Nat) {identity : AssemblyIdentity} {flags : Nat}
    {c : LoadContext} (lasts : (resolveRecord depth identity flags c).Lasts)
    (asking : c.asking? identity flags = none) :
    resolve (depth + more) identity flags c = resolve depth identity flags c := by
  cases found : c.find? identity with
  | some id => rw [resolve_found _ flags found, resolve_found _ flags found]
  | none =>
    by_cases under : c.isResolving identity
    · rw [resolve_refused _ flags found under, resolve_refused _ flags found under]
    by_cases taken : c.isClaimed identity
    · rw [resolve_taken _ flags found under taken, resolve_taken _ flags found under taken]
    cases depth with
    | zero =>
      exact absurd (outcome_error (resolve_cut flags found under taken))
        (lasts _ (.inl rfl) identity flags rfl)
    | succ depth =>
      have alone : c.resolver = none := by
        simpa [LoadContext.asking?, found, under, taken] using asking
      rw [Nat.add_right_comm, resolve_alone _ flags found under taken alone,
        resolve_alone _ flags found under taken alone]

theorem deeper_unasked {depth : Nat} (more : Nat) {identity : AssemblyIdentity} {flags : Nat}
    {c : LoadContext} (lasts : (resolveRecord depth identity flags c).Lasts)
    (unasked : depth = 0 ∨ c.asking? identity flags = none) :
    resolve (depth + more) identity flags c = resolve depth identity flags c ∧
      resolveRecord (depth + more) identity flags c = resolveRecord depth identity flags c := by
  have asking := asking?_of_lasts lasts unasked
  have same := resolve_levels more lasts asking
  rw [record_unasked (.inr asking), record_unasked (.inr asking), outcome_congr same,
    after_congr same]
  exact ⟨same, rfl⟩

theorem deeper_consultation {depth more : Nat}
    (inner : ∀ identity flags c, (resolveRecord depth identity flags c).Lasts →
      resolve (depth + more) identity flags c = resolve depth identity flags c ∧
        resolveRecord (depth + more) identity flags c = resolveRecord depth identity flags c)
    (consultation : Consultation) {c : LoadContext}
    (lasts : ∀ r ∈ consultationRecords (resolveRecord depth) consultation c, r.Lasts) :
    follow (resolve (depth + more)) consultation c = follow (resolve depth) consultation c ∧
      consultationRecords (resolveRecord (depth + more)) consultation c =
        consultationRecords (resolveRecord depth) consultation c := by
  induction consultation generalizing c with
  | answer result => cases result <;> exact ⟨rfl, rfl⟩
  | load source next ih =>
    obtain ⟨followed, records⟩ := ih _ (List.forall_mem_cons.1 lasts).2
    rw [follow_load, follow_load]
    exact ⟨followed, congrArg (loadRecord source c :: ·) records⟩
  | resolve identity flags next ih =>
    obtain ⟨first, rest⟩ := List.forall_mem_cons.1 lasts
    obtain ⟨ran, record⟩ := inner identity flags c first
    rw [after_resolveRecord, outcome_resolveRecord] at rest
    obtain ⟨followed, records⟩ := ih _ rest
    rw [follow_resolve, follow_resolve, outcome_congr ran, after_congr ran]
    refine ⟨followed, ?_⟩
    rw [consultationRecords, consultationRecords, record, after_resolveRecord,
      outcome_resolveRecord, records]

theorem deeper_resolve (depth more : Nat) (identity : AssemblyIdentity) (flags : Nat)
    (c : LoadContext) (lasts : (resolveRecord depth identity flags c).Lasts) :
    resolve (depth + more) identity flags c = resolve depth identity flags c ∧
      resolveRecord (depth + more) identity flags c = resolveRecord depth identity flags c := by
  induction depth generalizing identity flags c with
  | zero => exact deeper_unasked more lasts (.inl rfl)
  | succ depth ih =>
    cases asking : c.asking? identity flags with
    | none => exact deeper_unasked more lasts (.inr asking)
    | some found =>
      obtain ⟨consultation, asked⟩ := found
      have nested : ∀ r ∈ consultationRecords (resolveRecord depth) consultation asked, r.Lasts := by
        rw [← nested_asked depth asking]
        exact fun r member => lasts.nested member
      obtain ⟨followed, records⟩ := deeper_consultation ih consultation nested
      have same : resolve (depth + more + 1) identity flags c =
          resolve (depth + 1) identity flags c := by
        obtain ⟨absent, new, free, r, resolver, rfl, rfl⟩ := LoadContext.asking?_some asking
        have resolver' : ((c.enter identity).claim identity).resolver = some r := resolver
        have supplied :
            consult (resolve (depth + more)) identity flags ((c.enter identity).claim identity) =
              consult (resolve depth) identity flags ((c.enter identity).claim identity) := by
          simp [consult_eq resolver', followed]
        rw [resolve_entered _ flags absent new free, resolve_entered _ flags absent new free,
          bind_congr_left supplied]
      rw [Nat.add_right_comm]
      refine ⟨same, ?_⟩
      rw [resolveRecord, resolveRecord]
      simp only [asking, records, outcome_congr same, after_congr same]

theorem deeper_history {depth : Nat} (more : Nat) (calls : List LoadCall) {c : LoadContext}
    (lasts : ∀ r ∈ history depth calls c, r.Lasts) :
    history (depth + more) calls c = history depth calls c := by
  induction calls generalizing c with
  | nil => rfl
  | cons call rest ih =>
    obtain ⟨first, further⟩ := List.forall_mem_cons.1 lasts
    have same : callRecord (depth + more) call c = callRecord depth call c := by
      cases call with
      | load source => rfl
      | resolve identity flags => exact (deeper_resolve depth more identity flags c first).2
    rw [history, history, same, ih further]

end Loading

theorem Consultation.asksWithin_requiring {names : List AssemblyIdentity} {next : Consultation}
    (prerequisites : List (Except Error AssemblyIdentity))
    (listed : ∀ identity, .ok identity ∈ prerequisites → ∃ name ∈ names, name.same identity)
    (rest : next.AsksWithin names) : (requiring prerequisites next).AsksWithin names := by
  induction prerequisites with
  | nil => exact rest
  | cons first further ih =>
    have others := ih fun identity member => listed identity (List.mem_cons_of_mem _ member)
    cases first with
    | error e => trivial
    | ok identity =>
      refine ⟨listed identity List.mem_cons_self, fun outcome => ?_⟩
      cases outcome with
      | ok id => exact others
      | error e => trivial

theorem Catalog.asksWithin {names : List AssemblyIdentity} {c : Catalog}
    (listed : ∀ entry ∈ c.entries, ∀ identity, .ok identity ∈ entry.prerequisites.getD [] →
      ∃ name ∈ names, name.same identity) : c.resolver.AsksWithin names := by
  intro _ identity _
  change (c.consult identity).AsksWithin names
  unfold consult
  split
  next => trivial
  next entry found =>
    exact Consultation.asksWithin_requiring _ (listed entry (List.mem_of_find?_eq_some found)) trivial

end CliMetadata
