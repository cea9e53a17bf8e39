import CliMetadata.Proofs.Lazy.Fetching

/-!
Programs that ask for cells, and the record of what they do. The computation of a cell is a program
itself, which may ask for any cells, carry on after their errors and fail; its own requests are
recorded inside the record of the request that started it.
-/

set_option autoImplicit false

namespace CliMetadata

section
variable (κ : Type) [BEq κ] [Hashable κ] (V : κ → Type) (ρ : Type)

inductive CellProgram : Type → Type 1
  | done {α : Type} (result : Except Error α) : CellProgram α
  | look {α : Type} (next : Cells κ V ρ → CellProgram α) : CellProgram α
  | change {α : Type} (f : ρ → ρ) (next : CellProgram α) : CellProgram α
  | access {α : Type} (k : κ) (init : CellProgram (V k))
    (next : Except Error (V k) → CellProgram α) : CellProgram α

structure AccessRecord where
  cell : κ
  before : Cells κ V ρ
  ran : Option (Except Error (V cell) × Cells κ V ρ)
  nested : List AccessRecord
  outcome : Except Error (V cell)
  after : Cells κ V ρ

inductive CellEvent
  | called (k : κ)
  | started (k : κ)
  | stored (k : κ) (value : V k)
  | returned (k : κ) (outcome : Except Error (V k))

structure CellMoment where
  event : CellEvent κ V
  state : Cells κ V ρ

end

section
variable {κ : Type} [BEq κ] [Hashable κ] {V : κ → Type} {ρ : Type}

namespace AccessRecord

def stored (r : AccessRecord κ V ρ) : List (CellMoment κ V ρ) :=
  match r.ran with
  | some (.ok value, _) => [⟨.stored r.cell value, r.after⟩]
  | _ => []

mutual

def moments : AccessRecord κ V ρ → List (CellMoment κ V ρ)
  | ⟨cell, before, ran, nested, outcome, after⟩ =>
    ⟨.called cell, before⟩ ::
      ((ran.map fun _ => ⟨.started cell, before.enter cell⟩).toList ++ (momentsOf nested ++
      (stored ⟨cell, before, ran, nested, outcome, after⟩ ++ [⟨.returned cell outcome, after⟩])))

def momentsOf : List (AccessRecord κ V ρ) → List (CellMoment κ V ρ)
  | [] => []
  | r :: rest => r.moments ++ momentsOf rest

end

theorem moments_eq (r : AccessRecord κ V ρ) : r.moments =
    ⟨.called r.cell, r.before⟩ ::
      ((r.ran.map fun _ => ⟨.started r.cell, r.before.enter r.cell⟩).toList ++
      (momentsOf r.nested ++ (r.stored ++ [⟨.returned r.cell r.outcome, r.after⟩]))) := by
  cases r
  rw [moments]

inductive Among (r : AccessRecord κ V ρ) : List (AccessRecord κ V ρ) → Prop
  | here {records : List (AccessRecord κ V ρ)} (member : r ∈ records) : Among r records
  | inside {outer : AccessRecord κ V ρ} {records : List (AccessRecord κ V ρ)}
    (member : outer ∈ records) (among : Among r outer.nested) : Among r records

theorem not_among_nil {r : AccessRecord κ V ρ} : ¬r.Among [] := by
  intro among
  cases among with
  | here member => cases member
  | inside member among => cases member

theorem among_cons {r first : AccessRecord κ V ρ} {rest : List (AccessRecord κ V ρ)}
    (among : r.Among (first :: rest)) : r = first ∨ r.Among first.nested ∨ r.Among rest := by
  cases among with
  | here member =>
    rcases List.mem_cons.1 member with same | later
    · exact .inl same
    · exact .inr (.inr (.here later))
  | inside member among =>
    rcases List.mem_cons.1 member with rfl | later
    · exact .inr (.inl among)
    · exact .inr (.inr (.inside later among))

end AccessRecord

variable [LawfulBEq κ]

def Cells.record (k : κ) (compute : EStateM Error (Cells κ V ρ) (V k))
    (inner : Cells κ V ρ → List (AccessRecord κ V ρ)) (s : Cells κ V ρ) : AccessRecord κ V ρ :=
  let starts := (s.value? k).isNone && !s.running.contains k
  { cell := k
    before := s
    ran := if starts then some (CliMetadata.outcome compute (s.enter k),
      CliMetadata.after compute (s.enter k)) else none
    nested := if starts then inner (s.enter k) else []
    outcome := CliMetadata.outcome (fetch k compute) s
    after := CliMetadata.after (fetch k compute) s }

/-- What a request can be: the cell has its value, is being computed, or is computed now. -/
inductive Cells.Recorded (k : κ) (compute : EStateM Error (Cells κ V ρ) (V k))
    (inner : Cells κ V ρ → List (AccessRecord κ V ρ)) (s : Cells κ V ρ) : AccessRecord κ V ρ → Prop
  | held {value : V k} (there : s.value? k = some value) :
    Recorded k compute inner s ⟨k, s, none, [], .ok value, s⟩
  | refused (absent : s.value? k = none) (runs : k ∈ s.running) :
    Recorded k compute inner s ⟨k, s, none, [], .error (.malformed .cyclic), s⟩
  | computed {value : V k} {s' : Cells κ V ρ} (absent : s.value? k = none) (idle : k ∉ s.running)
    (ran : compute (s.enter k) = .ok value s') :
    Recorded k compute inner s ⟨k, s, some (.ok value, s'), inner (s.enter k), .ok value,
      (s'.leave k).store k value⟩
  | failed {e : Error} {s' : Cells κ V ρ} (absent : s.value? k = none) (idle : k ∉ s.running)
    (ran : compute (s.enter k) = .error e s') :
    Recorded k compute inner s ⟨k, s, some (.error e, s'), inner (s.enter k), .error e, s'.leave k⟩

theorem Cells.recorded_record (k : κ) (compute : EStateM Error (Cells κ V ρ) (V k))
    (inner : Cells κ V ρ → List (AccessRecord κ V ρ)) (s : Cells κ V ρ) :
    Recorded k compute inner s (record k compute inner s) := by
  cases there : s.value? k with
  | some value =>
    have fetched : fetch k compute s = .ok value s := fetch_held there
    simpa [record, there, outcome, after, fetched] using Recorded.held there
  | none =>
    by_cases runs : k ∈ s.running
    next =>
      have fetched : fetch k compute s = .error (.malformed .cyclic) s := fetch_refused there runs
      simpa [record, there, runs, outcome, after, fetched] using Recorded.refused there runs
    next =>
      cases ran : compute (s.enter k) with
      | ok value s' =>
        have fetched := fetch_computed there runs ran
        simpa [record, there, runs, outcome, after, ran, fetched] using
          Recorded.computed there runs ran
      | error e s' =>
        have fetched := fetch_failed there runs ran
        simpa [record, there, runs, outcome, after, ran, fetched] using
          Recorded.failed there runs ran

namespace CellProgram

def run {α : Type} : CellProgram κ V ρ α → EStateM Error (Cells κ V ρ) α
  | .done (.ok value) => fun s => .ok value s
  | .done (.error e) => fun s => .error e s
  | .look next => fun s => (next s).run s
  | .change f next => fun s => next.run { s with rest := f s.rest }
  | .access k init next => fun s =>
    (next (outcome (Cells.fetch k init.run) s)).run (after (Cells.fetch k init.run) s)

def records {α : Type} : CellProgram κ V ρ α → Cells κ V ρ → List (AccessRecord κ V ρ)
  | .done _, _ => []
  | .look next, s => (next s).records s
  | .change f next, s => next.records { s with rest := f s.rest }
  | .access k init next, s =>
    Cells.record k init.run init.records s ::
      (next (outcome (Cells.fetch k init.run) s)).records (after (Cells.fetch k init.run) s)

end CellProgram

end

end CliMetadata
