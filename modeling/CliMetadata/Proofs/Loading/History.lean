import CliMetadata.Proofs.Loading.Steps

set_option autoImplicit false

namespace CliMetadata

/-- The records are those of calls that keep the store in order. -/
structure Orderly (records : List CallRecord) : Prop where
  consistent : ∀ moment ∈ CallRecord.momentsOf records, moment.context.Consistent
  grows : (CallRecord.momentsOf records).Pairwise fun earlier later =>
    earlier.context.Extends later.context
  failures : ∀ r : CallRecord, (r ∈ records ∨ ∃ outer ∈ records, r.Inside outer) → r.Failed →
    r.AddsOnlyInside (·.assemblies.length) ∧ r.AddsOnlyInside (·.index.length)
  once : (CallRecord.momentsOf records).Pairwise fun earlier later =>
    ∀ identity flags id other otherFlags,
      earlier.event = .returned (.resolve identity flags) (.ok id) →
      later.event = .asked other otherFlags → ¬identity.same other

namespace LoadMoment

structure Valid (m : LoadMoment) : Prop where
  consistent : m.context.Consistent
  asked : ∀ identity flags, m.event = .asked identity flags → m.context.find? identity = none
  resolved : ∀ identity flags id, m.event = .returned (.resolve identity flags) (.ok id) →
    (m.context.find? identity).isSome

end LoadMoment

/-- Valid moments on the way from one context to another, each growing out of the one before. -/
inductive Trail : LoadContext → List LoadMoment → LoadContext → Prop
  | nil {c c' : LoadContext} (grows : c.Extends c') : Trail c [] c'
  | cons {c c' : LoadContext} {m : LoadMoment} {rest : List LoadMoment}
    (grows : c.Extends m.context) (valid : m.Valid) (trail : Trail m.context rest c') :
    Trail c (m :: rest) c'

namespace Trail

theorem valid {c c' : LoadContext} {moments : List LoadMoment} (trail : Trail c moments c') :
    ∀ m ∈ moments, m.Valid := by
  induction trail with
  | nil grows => exact fun m member => absurd member List.not_mem_nil
  | cons grows valid trail ih =>
    intro m member
    rcases List.mem_cons.1 member with rfl | member
    · exact valid
    · exact ih m member

theorem extends_of_mem {c c' : LoadContext} {moments : List LoadMoment}
    (trail : Trail c moments c') : ∀ m ∈ moments, c.Extends m.context := by
  induction trail with
  | nil grows => exact fun m member => absurd member List.not_mem_nil
  | cons grows valid trail ih =>
    intro m member
    rcases List.mem_cons.1 member with rfl | member
    · exact grows
    · exact grows.trans (ih m member)

theorem pairwise {c c' : LoadContext} {moments : List LoadMoment} (trail : Trail c moments c') :
    moments.Pairwise fun earlier later => earlier.context.Extends later.context := by
  induction trail with
  | nil grows => exact .nil
  | cons grows valid trail ih => exact .cons trail.extends_of_mem ih

end Trail

namespace LoadContext

section
variable {c c' : LoadContext}

theorem Step.valid {m : LoadMoment} (step : c.Step m) (consistent : c.Consistent) : m.Valid where
  consistent := (step.consistent consistent).2
  asked _ _ event := by
    cases step with
    | asked identity flags absent same =>
      cases event
      rw [same.find?, absent]
    | _ => cases event
  resolved _ _ _ event := by
    cases step with
    | found flags known =>
      cases event
      exact Option.isSome_iff_exists.2 ⟨_, known⟩
    | supplied identity flags a same =>
      cases event
      rw [same.find?]
      exact find?_addKey _ _ _
    | _ => cases event

theorem Steps.trail {moments : List LoadMoment} (steps : c.Steps moments c')
    (consistent : c.Consistent) : Trail c moments c' := by
  induction steps with
  | nil => exact .nil (.refl _)
  | cons step steps ih =>
    obtain ⟨grows, kept⟩ := step.consistent consistent
    exact .cons grows (step.valid consistent) (ih kept)

end

end LoadContext

namespace Loading

theorem trail_history (depth : Nat) (calls : List LoadCall) {c : LoadContext}
    (consistent : c.Consistent) :
    ∃ c', Trail c (CallRecord.momentsOf (history depth calls c)) c' := by
  obtain ⟨c', steps⟩ := steps_history depth calls c
  exact ⟨c', steps.trail consistent⟩

theorem not_inside_load {source : ModuleSource} {c : LoadContext} {r : CallRecord}
    (inside : r.Inside (loadRecord source c)) : False := by
  cases inside with
  | direct member => cases member
  | deeper member => cases member

theorem load_addsOnlyInside {size : LoadContext → Nat} {source : ModuleSource} {c : LoadContext}
    (failed : (loadRecord source c).Failed) : (loadRecord source c).AddsOnlyInside size := by
  rintro position ⟨least, below⟩
  rcases loadFrom_cases source c with ⟨_, a, _, ran⟩ | ⟨e, ran⟩
  · obtain ⟨e, result⟩ := failed
    have succeeded : outcome (loadFrom source) c = .ok _ := outcome_ok ran
    rw [show outcome (loadFrom source) c = .error e from result] at succeeded
    cases succeeded
  · have unchanged : (loadRecord source c).after = c := after_error ran
    rw [unchanged] at below
    exact absurd (Nat.lt_of_le_of_lt least below) (Nat.lt_irrefl _)

section
variable {size : LoadContext → Nat}

-- The calls of a consultation follow each other without a gap, so that each addition is one of
-- theirs.
theorem consultation_adds {depth : Nat} (consultation : Consultation) {c : LoadContext}
    {position : Nat} (least : size c ≤ position)
    (below : position < size (after (follow (resolve depth) consultation) c)) :
    ∃ r ∈ consultationRecords (resolveRecord depth) consultation c, r.Adds size position := by
  induction consultation generalizing c with
  | answer result =>
    have unchanged : after (follow (resolve depth) (.answer result)) c = c := by
      cases result <;> rfl
    rw [unchanged] at below
    omega
  | load source next ih =>
    rw [after_follow_load] at below
    by_cases first : position < size (after (loadFrom source) c)
    · exact ⟨_, List.mem_cons_self, least, first⟩
    · obtain ⟨r, member, adds⟩ := ih _ (Nat.not_lt.1 first) below
      exact ⟨r, List.mem_cons_of_mem _ member, adds⟩
  | resolve identity flags next ih =>
    rw [after_follow_resolve] at below
    rw [consultationRecords]
    by_cases first : position < size (after (resolve depth identity flags) c)
    · exact ⟨_, List.mem_cons_self, by simpa using least, by simpa using first⟩
    · obtain ⟨r, member, adds⟩ := ih _ (Nat.not_lt.1 first) below
      exact ⟨r, List.mem_cons_of_mem _ (by simpa using member), adds⟩

theorem mem_consultationRecords {ask : AssemblyIdentity → Nat → LoadContext → CallRecord}
    (consultation : Consultation) {c : LoadContext} {r : CallRecord}
    (member : r ∈ consultationRecords ask consultation c) :
    (∃ source c', r = loadRecord source c') ∨ ∃ identity flags c', r = ask identity flags c' := by
  induction consultation generalizing c with
  | answer result => cases member
  | load source next ih =>
    rcases List.mem_cons.1 member with rfl | member
    · exact .inl ⟨source, c, rfl⟩
    · exact ih _ member
  | resolve identity flags next ih =>
    rcases List.mem_cons.1 member with rfl | member
    · exact .inr ⟨identity, flags, c, rfl⟩
    · exact ih _ member

theorem failed_resolve_adds (respects : ∀ c c' : LoadContext, c.SameStore c' → size c' = size c)
    {depth : Nat} {identity : AssemblyIdentity} {flags : Nat} {c : LoadContext} {position : Nat}
    (failed : (resolveRecord depth identity flags c).Failed)
    (adds : (resolveRecord depth identity flags c).Adds size position) :
    ∃ r ∈ (resolveRecord depth identity flags c).nested, r.Adds size position := by
  obtain ⟨least, below⟩ := adds
  obtain ⟨e, result⟩ := failed
  simp only [before_resolveRecord, after_resolveRecord, outcome_resolveRecord] at least below result
  have unasked (unasked : depth = 0 ∨ c.asking? identity flags = none) : False := by
    rcases resolve_unasked depth flags unasked with ⟨id, _, ran⟩ | ⟨e, ran⟩
    · rw [outcome_ok ran] at result
      cases result
    · rw [after_error ran] at below
      omega
  cases depth with
  | zero => exact (unasked (.inl rfl)).elim
  | succ depth =>
    cases asking : c.asking? identity flags with
    | none => exact (unasked (.inr asking)).elim
    | some found =>
      obtain ⟨consultation, asked⟩ := found
      obtain ⟨_, same, _⟩ := LoadContext.sameStore_asking asking
      rcases resolve_asked depth flags asking with ⟨a, c', ran, _⟩ | ⟨e, c', ran, added⟩
      · rw [outcome_ok ran] at result
        cases result
      · rw [after_error ran, respects _ c' added.toSameStore] at below
        rw [← respects c asked same] at least
        rw [nested_asked depth asking]
        exact consultation_adds consultation least below

theorem nested_resolveRecord {depth : Nat} {identity : AssemblyIdentity} {flags : Nat}
    {c : LoadContext} {r : CallRecord}
    (member : r ∈ (resolveRecord (depth + 1) identity flags c).nested) :
    (∃ source c', r = loadRecord source c') ∨
      ∃ identity flags c', r = resolveRecord depth identity flags c' := by
  unfold resolveRecord at member
  simp only at member
  split at member
  next => exact mem_consultationRecords _ member
  next => cases member

theorem resolve_addsOnlyInside
    (respects : ∀ c c' : LoadContext, c.SameStore c' → size c' = size c) (depth : Nat)
    (identity : AssemblyIdentity) (flags : Nat) (c : LoadContext) {r : CallRecord}
    (within : r = resolveRecord depth identity flags c ∨
      r.Inside (resolveRecord depth identity flags c)) (failed : r.Failed) :
    r.AddsOnlyInside size := by
  -- The resolver's own calls have one level less, so that they are those of the hypothesis.
  induction depth generalizing identity flags c r with
  | zero =>
    rcases within with rfl | inside
    · intro position adds
      obtain ⟨_, member, _⟩ := failed_resolve_adds respects failed adds
      cases member
    · cases inside with
      | direct member => cases member
      | deeper member => cases member
  | succ depth ih =>
    have nested {r : CallRecord} (member : r ∈ (resolveRecord (depth + 1) identity flags c).nested)
        (failed : r.Failed) : r.AddsOnlyInside size := by
      rcases nested_resolveRecord member with ⟨source, c', rfl⟩ | ⟨identity, flags, c', rfl⟩
      · exact load_addsOnlyInside failed
      · exact ih identity flags c' (.inl rfl) failed
    rcases within with rfl | inside
    · intro position adds
      -- A call made directly by the resolver adds it. If that call fails in turn, its own calls do.
      obtain ⟨next, member, nextAdds⟩ := failed_resolve_adds respects failed adds
      cases result : next.outcome with
      | ok id => exact ⟨next, .direct member, ⟨id, result⟩, nextAdds⟩
      | error e =>
        obtain ⟨inner, inside, succeeded, innerAdds⟩ := nested member ⟨e, result⟩ position nextAdds
        exact ⟨inner, .deeper member inside, succeeded, innerAdds⟩
    · cases inside with
      | direct member => exact nested member failed
      | deeper member inside =>
        rcases nested_resolveRecord member with ⟨source, c', rfl⟩ | ⟨identity, flags, c', rfl⟩
        · exact (not_inside_load inside).elim
        · exact ih identity flags c' (.inr inside) failed

end

theorem requests_loadFrom (source : ModuleSource) (c : LoadContext) :
    (after (loadFrom source) c).requests = c.requests := by
  rcases loadFrom_cases source c with ⟨_, a, _, ran⟩ | ⟨e, ran⟩
  · simp [after_ok ran]
  · rw [after_error ran]

theorem requests_consultation {depth : Nat}
    (inner : ∀ identity flags c, (after (resolve depth identity flags) c).requests =
      (askedIn (resolveRecord depth identity flags c).moments).reverse ++ c.requests)
    (consultation : Consultation) (c : LoadContext) :
    (after (follow (resolve depth) consultation) c).requests =
      (askedIn (CallRecord.momentsOf
        (consultationRecords (resolveRecord depth) consultation c))).reverse ++ c.requests := by
  induction consultation generalizing c with
  | answer result => cases result <;> rfl
  | load source next ih =>
    rw [after_follow_load, ih, requests_loadFrom]
    rfl
  | resolve identity flags next ih =>
    rw [after_follow_resolve, ih, inner, consultationRecords, CallRecord.momentsOf, askedIn,
      askedIn, askedIn, List.filterMap_append, List.reverse_append, List.append_assoc,
      after_resolveRecord, outcome_resolveRecord]

theorem requests_unasked {depth : Nat} {identity : AssemblyIdentity} {flags : Nat}
    {c : LoadContext} (unasked : depth = 0 ∨ c.asking? identity flags = none) :
    (after (resolve depth identity flags) c).requests =
      (askedIn (resolveRecord depth identity flags c).moments).reverse ++ c.requests := by
  have nothing : askedIn (resolveRecord depth identity flags c).moments = [] := by
    rw [moments_unasked unasked]
    rfl
  rw [nothing]
  rcases resolve_unasked depth flags unasked with ⟨id, found, ran⟩ | ⟨e, ran⟩
  · rw [after_ok ran]
    rfl
  · rw [after_error ran]
    rfl

theorem requests_resolve (depth : Nat) (identity : AssemblyIdentity) (flags : Nat)
    (c : LoadContext) : (after (resolve depth identity flags) c).requests =
      (askedIn (resolveRecord depth identity flags c).moments).reverse ++ c.requests := by
  induction depth generalizing identity flags c with
  | zero => exact requests_unasked (.inl rfl)
  | succ depth ih =>
    cases asking : c.asking? identity flags with
    | none => exact requests_unasked (.inr asking)
    | some found =>
      obtain ⟨consultation, asked⟩ := found
      obtain ⟨_, _, request⟩ := LoadContext.sameStore_asking asking
      have inside := requests_consultation ih consultation asked
      have record : askedIn (resolveRecord (depth + 1) identity flags c).moments =
          (identity, flags) :: askedIn (CallRecord.momentsOf
            (consultationRecords (resolveRecord depth) consultation asked)) := by
        simp [moments_asked depth asking, askedIn, LoadEvent.asked?]
      rw [record, List.reverse_cons, List.append_assoc, List.singleton_append, ← request, ← inside]
      rcases resolve_asked depth flags asking with ⟨a, c', ran, added⟩ | ⟨e, c', ran, added⟩
      · simp [after_ok ran, added.requests]
      · rw [after_error ran, added.requests]

theorem requests_callRecord (depth : Nat) (call : LoadCall) (c : LoadContext) :
    (callRecord depth call c).after.requests =
      (askedIn (callRecord depth call c).moments).reverse ++
        (callRecord depth call c).before.requests := by
  cases call with
  | load source => exact requests_loadFrom source c
  | resolve identity flags =>
    simpa [callRecord] using requests_resolve depth identity flags c

theorem mem_history {depth : Nat} {calls : List LoadCall} {c : LoadContext} {r : CallRecord}
    (member : r ∈ history depth calls c) : ∃ call c', r = callRecord depth call c' := by
  induction calls generalizing c with
  | nil => cases member
  | cons call rest ih =>
    rcases List.mem_cons.1 member with rfl | member
    · exact ⟨call, c, rfl⟩
    · exact ih member

theorem history_addsOnlyInside {size : LoadContext → Nat}
    (respects : ∀ c c' : LoadContext, c.SameStore c' → size c' = size c) {depth : Nat}
    {calls : List LoadCall} {c : LoadContext} {r : CallRecord}
    (within : r ∈ history depth calls c ∨ ∃ outer ∈ history depth calls c, r.Inside outer)
    (failed : r.Failed) : r.AddsOnlyInside size := by
  obtain ⟨outer, member, within⟩ :
      ∃ outer ∈ history depth calls c, r = outer ∨ r.Inside outer := by
    rcases within with member | ⟨outer, member, inside⟩
    · exact ⟨r, member, .inl rfl⟩
    · exact ⟨outer, member, .inr inside⟩
  obtain ⟨call, c', rfl⟩ := mem_history member
  cases call with
  | load source =>
    rcases within with rfl | inside
    · exact load_addsOnlyInside failed
    · exact (not_inside_load inside).elim
  | resolve identity flags =>
    exact resolve_addsOnlyInside respects depth identity flags c' within failed

/-- However calls follow each other in a new context, and whatever its resolver does meanwhile, they
keep the store in order. -/
theorem history_orderly (depth : Nat) (resolver : Option Resolver) (calls : List LoadCall) :
    Orderly (history depth calls { resolver }) := by
  obtain ⟨_, trail⟩ := trail_history depth calls (LoadContext.consistent_fresh resolver)
  constructor
  · exact fun m member => (trail.valid m member).consistent
  · exact trail.pairwise
  · intro r within failed
    constructor
    · exact history_addsOnlyInside (fun c c' same => by rw [same.assemblies]) within failed
    · exact history_addsOnlyInside (fun c c' same => by rw [same.index]) within failed
  · refine trail.pairwise.imp_of_mem fun {earlier later} first second grows => ?_
    -- What was resolved is found at every later moment, but the resolver is asked only for what is
    -- not found.
    intro identity flags id other otherFlags resolved asked same
    have found := (trail.valid earlier first).resolved _ _ _ resolved
    have absent := (trail.valid later second).asked _ _ asked
    obtain ⟨place, found⟩ := Option.isSome_iff_exists.1 found
    rw [← later.context.find?_congr same, grows.find? found] at absent
    cases absent

end Loading

end CliMetadata
