import CliMetadata.Proofs.Loading.Growth
import CliMetadata.Proofs.Loading.Refusal
import CliMetadata.Proofs.Storage.Image

set_option autoImplicit false

namespace CliMetadata

namespace CallRecord

def made (r : CallRecord) : LoadMoment := ⟨.called r.call, r.before⟩

def returned (r : CallRecord) : LoadMoment := ⟨.returned r.call r.outcome, r.after⟩

/-- No call that the resolver makes leaves the identity to another place. -/
def Undisputed (r : CallRecord) (identity : AssemblyIdentity) (id : AssemblyId) : Prop :=
  ∀ inner ∈ r.nested, ∀ place, inner.after.find? identity = some place → place = id

/-- From the return of the call on, the identity stands for the place. -/
structure Settles (r : CallRecord) (records : List CallRecord) (identity : AssemblyIdentity)
    (place : AssemblyId) : Prop where
  now : r.after.find? identity = some place
  later : ∀ m, [r.returned, m].Sublist (momentsOf records) → m.context.find? identity = some place
  requests : ∀ (next : CallRecord) (other : AssemblyIdentity) (flags : Nat), next.Among records →
    next.call = .resolve other flags → identity.same other →
    [r.returned, next.made].Sublist (momentsOf records) → next.outcome = .ok place

end CallRecord

def AnswersSettle (records : List CallRecord) : Prop :=
  ∀ (r : CallRecord) (identity : AssemblyIdentity) (flags : Nat) (id : AssemblyId),
    r.Among records → r.call = .resolve identity flags → r.outcome = .ok id →
    ∃ place, r.Settles records identity place ∧ (place = id ↔ r.Undisputed identity id)

namespace Loading

-- What is indexed when the resolver answers was there before, or one of its calls left it.
theorem find?_consultation {depth : Nat} (consultation : Consultation) (c : LoadContext)
    (identity : AssemblyIdentity) (place : AssemblyId) :
    (after (follow (resolve depth) consultation) c).find? identity = some place ↔
      c.find? identity = some place ∨
      ∃ inner ∈ consultationRecords (resolveRecord depth) consultation c,
        inner.after.find? identity = some place := by
  have step {c : LoadContext} {first : CallRecord} {rest : List CallRecord}
      (grows : c.Extends first.after) :
      (first.after.find? identity = some place ∨
        ∃ inner ∈ rest, inner.after.find? identity = some place) ↔
      (c.find? identity = some place ∨
        ∃ inner ∈ first :: rest, inner.after.find? identity = some place) := by
    simp only [List.mem_cons, exists_eq_or_imp]
    exact ⟨.inr, fun either => either.elim (fun old => .inl (grows.find? old)) id⟩
  induction consultation generalizing c with
  | answer result => cases result <;> simp [consultationRecords] <;> rfl
  | load source next ih =>
    have grows : c.Extends (loadRecord source c).after := (kept_grows.loadFrom source c).toExtends
    rw [after_follow_load]
    exact (ih _ _).trans (step grows)
  | resolve other flags next ih =>
    have grows := (growing_resolve depth other flags c).toExtends
    rw [← after_resolveRecord] at grows
    rw [after_follow_resolve, ← after_resolveRecord, ← outcome_resolveRecord]
    exact (ih _ _).trans (step grows)

theorem find?_supplied (c : LoadContext) (identity : AssemblyIdentity) (a : Assembly) :
    ((c.place a).2.addKey identity (c.place a).1).find? identity =
      some ((c.find? identity).getD (c.place a).1) := by
  rw [LoadContext.find?_addKey_eq, LoadContext.find?_place, AssemblyIdentity.same_refl]
  cases c.find? identity with
  | some place => rfl
  | none => split <;> rfl

theorem undisputed_iff {r : CallRecord} {identity : AssemblyIdentity} {found : Option AssemblyId}
    {id : AssemblyId} (left : ∀ place, found = some place ↔
      ∃ inner ∈ r.nested, inner.after.find? identity = some place) :
    found.getD id = id ↔ r.Undisputed identity id := by
  cases found with
  | none =>
    refine ⟨fun _ inner member place known => ?_, fun _ => rfl⟩
    cases (left place).2 ⟨inner, member, known⟩
  | some other =>
    obtain ⟨inner, member, known⟩ := (left other).1 rfl
    constructor
    · intro same inner member place known
      exact (Option.some.inj ((left place).2 ⟨inner, member, known⟩)).symm.trans same
    · exact fun undisputed => undisputed inner member other known

theorem settled_resolve (depth : Nat) (identity : AssemblyIdentity) (flags : Nat) (c : LoadContext)
    {id : AssemblyId} (ok : (resolveRecord depth identity flags c).outcome = .ok id) :
    ∃ place, (resolveRecord depth identity flags c).after.find? identity = some place ∧
      (place = id ↔ (resolveRecord depth identity flags c).Undisputed identity id) := by
  have unasked (unasked : depth = 0 ∨ c.asking? identity flags = none) :
      ∃ place, (resolveRecord depth identity flags c).after.find? identity = some place ∧
        (place = id ↔ (resolveRecord depth identity flags c).Undisputed identity id) := by
    rw [record_unasked unasked] at ok ⊢
    rcases resolve_unasked depth flags unasked with ⟨place, found, ran⟩ | ⟨e, ran⟩
    · cases (outcome_ok ran).symm.trans ok
      refine ⟨id, ?_, fun _ _ member => absurd member List.not_mem_nil, fun _ => rfl⟩
      change (after (resolve depth identity flags) c).find? identity = some id
      rwa [after_ok ran]
    · cases (outcome_error ran).symm.trans ok
  cases depth with
  | zero => exact unasked (.inl rfl)
  | succ depth =>
    rw [outcome_resolveRecord] at ok
    rw [after_resolveRecord]
    cases asking : c.asking? identity flags with
    | none => simpa using unasked (.inr asking)
    | some found =>
      obtain ⟨consultation, asked⟩ := found
      obtain ⟨absent, same, _⟩ := LoadContext.sameStore_asking asking
      rcases resolve_asked depth flags asking with ⟨a, c', ran, added⟩ | ⟨e, c', ran, _⟩
      · rw [outcome_ok ran] at ok
        cases ok
        rw [after_ok ran, added.toSameStore.find?, find?_supplied]
        refine ⟨_, rfl, ?_⟩
        have left (place : AssemblyId) :
            (after (follow (resolve depth) consultation) asked).find? identity = some place ↔
            ∃ inner ∈ (resolveRecord (depth + 1) identity flags c).nested,
              inner.after.find? identity = some place := by
          rw [nested_asked depth asking, find?_consultation, same.find?, absent]
          simp
        exact undisputed_iff left
      · rw [outcome_error ran] at ok
        cases ok

/-- However calls follow each other in a new context, and whatever its resolver does meanwhile, a
request that succeeds settles its identity for good. -/
theorem history_answersSettle (depth : Nat) (resolver : Option Resolver) (calls : List LoadCall) :
    AnswersSettle (history depth calls { resolver }) := by
  intro r identity flags id among call ok
  have new : LoadContext.Idle { resolver } := ⟨rfl, rfl, rfl⟩
  obtain ⟨_, trail⟩ := trail_history depth calls (LoadContext.consistent_fresh resolver)
  obtain ⟨_, depth', made⟩ := among_resolve new among call
  rw [made] at ok
  obtain ⟨place, found, undisputed⟩ := settled_resolve depth' identity flags r.before ok
  rw [← made] at found undisputed
  have later (m : LoadMoment)
      (order : [r.returned, m].Sublist (CallRecord.momentsOf (history depth calls { resolver }))) :
      m.context.find? identity = some place :=
    (List.pairwise_iff_forall_sublist.1 trail.pairwise order).find? found
  refine ⟨place, ⟨found, later, ?_⟩, undisputed⟩
  intro next other flags' among' call' same order
  have there := later next.made order
  rw [LoadContext.find?_congr _ same] at there
  obtain ⟨_, levels, again⟩ := among_resolve new among' call'
  rw [again, outcome_resolveRecord]
  exact outcome_ok (resolve_found levels flags' there)

end Loading

def imageNamed (letter : UInt8) : ByteArray := image [
  ("#~", tableStream [
    (.assembly, [[0, 0, 0, 0, 0, 0, 0, 0, 0, 0, 0, 0, 0, 0, 0, 0, 0, 0, 1, 0, 0, 0]])]),
  ("#Strings", [0, letter, 0])]

/-- A catalogue with B under the name A, which has Z resolved first, and A under the name Z. -/
def disputing : Catalog where
  entries := [
    { name := "A", supply := .image (imageNamed 0x42)
      prerequisites := some [.ok { name := "Z" }] },
    { name := "Z", supply := .image (imageNamed 0x41) }]
  absence := ""

namespace Loading

def disputedRequest : CallRecord :=
  callRecord 2 (.resolve { name := "A" } 0) { resolver := some disputing.resolver }

/-- The request for A is answered with B, but A is what is found and what the next request gets. -/
theorem disputed_answer : ∃ next : CallRecord,
    history 2 [.resolve { name := "A" } 0, .resolve { name := "A" } 0]
      { resolver := some disputing.resolver } = [disputedRequest, next] ∧
    disputedRequest.outcome = .ok ⟨1⟩ ∧
    disputedRequest.after.find? { name := "A" } = some ⟨0⟩ ∧ next.outcome = .ok ⟨0⟩ := by
  have ran : disputedRequest.outcome.toOption = some ⟨1⟩ ∧
      disputedRequest.after.find? { name := "A" } = some ⟨0⟩ := by decide +kernel
  have again : (callRecord 2 (.resolve { name := "A" } 0) disputedRequest.after).outcome =
      .ok ⟨0⟩ := by
    rw [callRecord, outcome_resolveRecord]
    exact outcome_ok (resolve_found 2 0 ran.2)
  exact ⟨_, rfl, except_toOption_some.1 ran.1, ran.2, again⟩

end Loading

end CliMetadata
