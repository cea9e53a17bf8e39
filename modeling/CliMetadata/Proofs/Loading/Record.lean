import CliMetadata.Proofs.Loading.Call

/-!
Records of calls. A call is recorded with the moment at which the resolver is asked and with the
calls that the resolver makes in the same context before it answers, and so on inwards.
-/

set_option autoImplicit false

namespace CliMetadata

inductive LoadCall
  | load (source : ModuleSource)
  | resolve (identity : AssemblyIdentity) (flags : Nat)

inductive LoadEvent
  | called (call : LoadCall)
  | asked (identity : AssemblyIdentity) (flags : Nat)
  | returned (call : LoadCall) (outcome : Except Error AssemblyId)

structure LoadMoment where
  event : LoadEvent
  context : LoadContext

structure CallRecord where
  call : LoadCall
  before : LoadContext
  asked : Option LoadMoment
  nested : List CallRecord
  outcome : Except Error AssemblyId
  after : LoadContext

def LoadEvent.asked? : LoadEvent → Option (AssemblyIdentity × Nat)
  | .asked identity flags => some (identity, flags)
  | _ => none

def askedIn (moments : List LoadMoment) : List (AssemblyIdentity × Nat) :=
  moments.filterMap fun m => m.event.asked?

namespace CallRecord

mutual

def moments : CallRecord → List LoadMoment
  | ⟨call, before, asked, nested, outcome, after⟩ =>
    ⟨.called call, before⟩ ::
      (asked.toList ++ (momentsOf nested ++ [⟨.returned call outcome, after⟩]))

def momentsOf : List CallRecord → List LoadMoment
  | [] => []
  | record :: rest => record.moments ++ momentsOf rest

end

inductive Inside (inner : CallRecord) : CallRecord → Prop
  | direct {outer : CallRecord} (member : inner ∈ outer.nested) : Inside inner outer
  | deeper {middle outer : CallRecord} (member : middle ∈ outer.nested)
    (inside : Inside inner middle) : Inside inner outer

def Succeeded (r : CallRecord) : Prop := ∃ id, r.outcome = .ok id

def Failed (r : CallRecord) : Prop := ∃ e, r.outcome = .error e

def Adds (size : LoadContext → Nat) (r : CallRecord) (position : Nat) : Prop :=
  size r.before ≤ position ∧ position < size r.after

/-- All that the call adds is added by calls inside it that succeed. -/
def AddsOnlyInside (size : LoadContext → Nat) (r : CallRecord) : Prop :=
  ∀ position, r.Adds size position →
    ∃ inner : CallRecord, inner.Inside r ∧ inner.Succeeded ∧ inner.Adds size position

end CallRecord

namespace Loading

def loadRecord (source : ModuleSource) (c : LoadContext) : CallRecord where
  call := .load source
  before := c
  asked := none
  nested := []
  outcome := outcome (loadFrom source) c
  after := after (loadFrom source) c

def consultationRecords (ask : AssemblyIdentity → Nat → LoadContext → CallRecord) :
    Consultation → LoadContext → List CallRecord
  | .answer _, _ => []
  | .load source next, c =>
    let record := loadRecord source c
    record :: consultationRecords ask (next record.outcome) record.after
  | .resolve identity flags next, c =>
    let record := ask identity flags c
    record :: consultationRecords ask (next record.outcome) record.after

def resolveRecord : (depth : Nat) → AssemblyIdentity → (flags : Nat) → LoadContext → CallRecord
  | 0, identity, flags, c => {
    call := .resolve identity flags
    before := c
    asked := none
    nested := []
    outcome := outcome (resolve 0 identity flags) c
    after := after (resolve 0 identity flags) c }
  | depth + 1, identity, flags, c => {
    call := .resolve identity flags
    before := c
    asked := (c.asking? identity flags).map fun asking => ⟨.asked identity flags, asking.2⟩
    nested := match c.asking? identity flags with
      | some (consultation, asked) =>
        consultationRecords (resolveRecord depth) consultation asked
      | none => []
    outcome := outcome (resolve (depth + 1) identity flags) c
    after := after (resolve (depth + 1) identity flags) c }

def callRecord (depth : Nat) : LoadCall → LoadContext → CallRecord
  | .load source, c => loadRecord source c
  | .resolve identity flags, c => resolveRecord depth identity flags c

def history (depth : Nat) : List LoadCall → LoadContext → List CallRecord
  | [], _ => []
  | call :: rest, c =>
    let record := callRecord depth call c
    record :: history depth rest record.after

end Loading

namespace Loading

section
variable (depth : Nat) (identity : AssemblyIdentity) (flags : Nat) (c : LoadContext)

@[simp] theorem call_resolveRecord :
    (resolveRecord depth identity flags c).call = .resolve identity flags := by
  cases depth <;> rfl

@[simp] theorem before_resolveRecord : (resolveRecord depth identity flags c).before = c := by
  cases depth <;> rfl

@[simp] theorem outcome_resolveRecord :
    (resolveRecord depth identity flags c).outcome = outcome (resolve depth identity flags) c := by
  cases depth <;> rfl

@[simp] theorem after_resolveRecord :
    (resolveRecord depth identity flags c).after = after (resolve depth identity flags) c := by
  cases depth <;> rfl

variable {depth identity flags c}

theorem record_unasked (unasked : depth = 0 ∨ c.asking? identity flags = none) :
    resolveRecord depth identity flags c = {
      call := .resolve identity flags
      before := c
      asked := none
      nested := []
      outcome := outcome (resolve depth identity flags) c
      after := after (resolve depth identity flags) c } := by
  cases depth with
  | zero => rfl
  | succ depth =>
    have asking : c.asking? identity flags = none := by simpa using unasked
    simp [resolveRecord, asking]

theorem moments_unasked (unasked : depth = 0 ∨ c.asking? identity flags = none) :
    (resolveRecord depth identity flags c).moments =
      [⟨.called (.resolve identity flags), c⟩,
        ⟨.returned (.resolve identity flags) (outcome (resolve depth identity flags) c),
          after (resolve depth identity flags) c⟩] := by
  simp [record_unasked unasked, CallRecord.moments, CallRecord.momentsOf]

@[simp] theorem asked_eq_none :
    (resolveRecord depth identity flags c).asked = none ↔
      depth = 0 ∨ c.asking? identity flags = none := by
  cases depth <;> simp [resolveRecord]

variable (depth)

theorem nested_asked {consultation : Consultation} {asked : LoadContext}
    (asking : c.asking? identity flags = some (consultation, asked)) :
    (resolveRecord (depth + 1) identity flags c).nested =
      consultationRecords (resolveRecord depth) consultation asked := by
  simp [resolveRecord, asking]

theorem moments_asked {consultation : Consultation} {asked : LoadContext}
    (asking : c.asking? identity flags = some (consultation, asked)) :
    (resolveRecord (depth + 1) identity flags c).moments =
      ⟨.called (.resolve identity flags), c⟩ :: ⟨.asked identity flags, asked⟩ ::
        (CallRecord.momentsOf (consultationRecords (resolveRecord depth) consultation asked) ++
        [⟨.returned (.resolve identity flags) (outcome (resolve (depth + 1) identity flags) c),
          after (resolve (depth + 1) identity flags) c⟩]) := by
  simp [resolveRecord, CallRecord.moments, asking]

end

end Loading

end CliMetadata
