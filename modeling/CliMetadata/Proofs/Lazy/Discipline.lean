import CliMetadata.Proofs.Lazy.Record

set_option autoImplicit false

namespace CliMetadata

section
variable {κ : Type} [BEq κ] [Hashable κ] [LawfulBEq κ] {V : κ → Type} {ρ : Type}

namespace AccessRecord

structure Refused (r : AccessRecord κ V ρ) : Prop where
  outcome : r.outcome = .error (.malformed .cyclic)
  ran : r.ran = none
  nested : r.nested = []
  after : r.after = r.before

/-- The request comes to the same with every computation that does the same when it is run, and with
any computation at all if none is run. -/
def FromRun (r : AccessRecord κ V ρ) : Prop :=
  ∀ compute : EStateM Error (Cells κ V ρ) (V r.cell),
    (∀ result left, r.ran = some (result, left) →
      CliMetadata.outcome compute (r.before.enter r.cell) = result ∧
      CliMetadata.after compute (r.before.enter r.cell) = left) →
    CliMetadata.outcome (Cells.fetch r.cell compute) r.before = r.outcome ∧
      CliMetadata.after (Cells.fetch r.cell compute) r.before = r.after

structure Proper (r : AccessRecord κ V ρ) : Prop where
  runs : r.ran.isSome ↔ r.before.value? r.cell = none ∧ r.cell ∉ r.before.running
  -- The run that is recorded is all that the request makes of the computation.
  fromRun : r.FromRun
  result : ∀ result left, r.ran = some (result, left) → r.outcome = result
  failed : ∀ e left, r.ran = some (.error e, left) → r.after.value? r.cell = none
  held : ∀ value, r.outcome = .ok value → r.after.value? r.cell = some value
  restored : r.after.running = r.before.running

end AccessRecord

/-- The records are those of requests that keep to the discipline. -/
structure Disciplined (records : List (AccessRecord κ V ρ)) : Prop where
  kept : (AccessRecord.momentsOf records).Pairwise fun earlier later =>
    ∀ k value, earlier.state.value? k = some value → later.state.value? k = some value
  once : (AccessRecord.momentsOf records).Pairwise fun earlier later =>
    ∀ k value other, earlier.event = .stored k value → later.event ≠ .stored k other
  idle : (AccessRecord.momentsOf records).Pairwise fun earlier later =>
    ∀ k, (earlier.state.value? k).isSome → later.event ≠ .started k
  proper : ∀ r : AccessRecord κ V ρ, r.Among records → r.Proper
  -- What is asked for inside a request is asked for by the computation of its cell.
  refused : ∀ r inner : AccessRecord κ V ρ, r.Among records → inner.Among r.nested →
    inner.cell = r.cell → inner.Refused

namespace Cells

def Waiting (s : Cells κ V ρ) : Prop := ∀ k ∈ s.running, s.value? k = none

variable {s s' : Cells κ V ρ} {k : κ}

theorem Waiting.advances (waiting : s.Waiting) (advances : s.Advances s') : s'.Waiting := by
  intro k runs
  rw [advances.running] at runs
  exact advances.waiting k runs (waiting k runs)

theorem Waiting.enter (waiting : s.Waiting) (absent : s.value? k = none) : (s.enter k).Waiting := by
  intro other runs
  rcases List.mem_cons.1 runs with rfl | further
  · exact absent
  · exact waiting other further

end Cells

theorem CellProgram.advances_run {α : Type} (p : CellProgram κ V ρ α) :
    Keeps Cells.Advances p.run := by
  induction p with
  | done result => cases result <;> exact Cells.Advances.refl
  | look next ih => exact fun s => ih s s
  | change f next ih =>
    intro s
    have changed : s.Advances { s with rest := f s.rest } :=
      ⟨fun _ _ there => there, rfl, fun _ _ absent => absent⟩
    exact changed.trans (ih _)
  | access k init next ihInit ihNext =>
    intro s
    exact (Cells.advances_fetch ihInit s).trans (ihNext _ _)

namespace CellMoment

structure After (m : CellMoment κ V ρ) (s : Cells κ V ρ) : Prop where
  kept : ∀ k value, s.value? k = some value → m.state.value? k = some value
  started : ∀ k, m.event = .started k → s.value? k = none
  stored : ∀ k value, m.event = .stored k value →
    s.value? k = none ∧ m.state.value? k = some value

theorem After.earlier {m : CellMoment κ V ρ} {s s' : Cells κ V ρ} (after : m.After s')
    (kept : ∀ k value, s.value? k = some value → s'.value? k = some value) : m.After s := by
  have absent {k : κ} (later : s'.value? k = none) : s.value? k = none := by
    cases there : s.value? k with
    | none => rfl
    | some value => exact nomatch later.symm.trans (kept k value there)
  constructor
  · exact fun k value there => after.kept k value (kept k value there)
  · exact fun k event => absent (after.started k event)
  · exact fun k value event => (after.stored k value event).imp_left absent

end CellMoment

inductive CellTrail : Cells κ V ρ → List (CellMoment κ V ρ) → Cells κ V ρ → Prop
  | nil {s s' : Cells κ V ρ}
    (kept : ∀ k value, s.value? k = some value → s'.value? k = some value) : CellTrail s [] s'
  | cons {s s' : Cells κ V ρ} {m : CellMoment κ V ρ} {rest : List (CellMoment κ V ρ)}
    (after : m.After s) (trail : CellTrail m.state rest s') : CellTrail s (m :: rest) s'

namespace CellTrail

variable {s s' s'' : Cells κ V ρ} {front back : List (CellMoment κ V ρ)}

theorem append (left : CellTrail s front s') (right : CellTrail s' back s'') :
    CellTrail s (front ++ back) s'' := by
  induction left with
  | nil kept =>
    cases right with
    | nil further => exact .nil fun k value there => further k value (kept k value there)
    | cons after trail => exact .cons (after.earlier kept) trail
  | cons after trail ih => exact .cons after (ih right)

theorem after_of_mem (trail : CellTrail s front s') : ∀ m ∈ front, m.After s := by
  induction trail with
  | nil kept => exact fun m member => absurd member List.not_mem_nil
  | cons after trail ih =>
    intro m member
    rcases List.mem_cons.1 member with rfl | later
    · exact after
    · exact (ih m later).earlier after.kept

theorem pairwise (trail : CellTrail s front s') :
    front.Pairwise fun earlier later => later.After earlier.state := by
  induction trail with
  | nil kept => exact .nil
  | cons after trail ih => exact .cons trail.after_of_mem ih

end CellTrail

namespace Cells.Recorded

variable {k : κ} {compute : EStateM Error (Cells κ V ρ) (V k)}
  {inner : Cells κ V ρ → List (AccessRecord κ V ρ)} {s : Cells κ V ρ} {r : AccessRecord κ V ρ}

theorem cell_eq (recorded : Recorded k compute inner s r) : r.cell = k := by
  cases recorded <;> rfl

theorem before_eq (recorded : Recorded k compute inner s r) : r.before = s := by
  cases recorded <;> rfl

theorem advances (recorded : Recorded k compute inner s r) (keeps : Keeps Advances compute) :
    s.Advances r.after := by
  cases recorded with
  | held there => exact .refl s
  | refused absent runs => exact .refl s
  | @computed value s' absent idle ran =>
    have inside : (s.enter k).Advances s' := after_ok ran ▸ keeps (s.enter k)
    exact inside.store absent idle value
  | @failed e s' absent idle ran =>
    have inside : (s.enter k).Advances s' := after_error ran ▸ keeps (s.enter k)
    exact inside.leave

theorem trail (recorded : Recorded k compute inner s r) (keeps : Keeps Advances compute)
    (inside : CellTrail (s.enter k) (AccessRecord.momentsOf (inner (s.enter k)))
      (after compute (s.enter k))) : CellTrail s r.moments r.after := by
  have called : CellMoment.After ⟨.called k, s⟩ s := ⟨fun _ _ there => there, nofun, nofun⟩
  have started (absent : s.value? k = none) : CellMoment.After ⟨.started k, s.enter k⟩ s := by
    refine ⟨fun _ _ there => there, fun other event => ?_, nofun⟩
    cases event
    exact absent
  have returned (before final : Cells κ V ρ) (outcome : Except Error (V k))
      (kept : ∀ other value, before.value? other = some value → final.value? other = some value) :
      CellTrail before [⟨.returned k outcome, final⟩] final :=
    .cons ⟨kept, nofun, nofun⟩ (.nil fun _ _ there => there)
  rw [AccessRecord.moments_eq]
  cases recorded with
  | held there => exact .cons called (returned s s _ fun _ _ there => there)
  | refused absent runs => exact .cons called (returned s s _ fun _ _ there => there)
  | @computed value s' absent idle ran =>
    have empty : s'.value? k = none :=
      (after_ok ran ▸ keeps (s.enter k)).waiting k List.mem_cons_self absent
    have stored : CellMoment.After ⟨.stored k value, (s'.leave k).store k value⟩ s' := by
      refine ⟨fun _ _ known => value?_store_kept empty value known, nofun, fun other v event => ?_⟩
      cases event
      exact ⟨empty, by simp⟩
    rw [after_ok ran] at inside
    have stop := returned ((s'.leave k).store k value) _ (.ok value) fun _ _ there => there
    exact .cons called (.cons (started absent) (inside.append (.cons stored stop)))
  | @failed e s' absent idle ran =>
    rw [after_error ran] at inside
    have stop := returned s' (s'.leave k) (.error e) fun _ _ there => there
    exact .cons called (.cons (started absent) (inside.append stop))

theorem runs_iff (recorded : Recorded k compute inner s r) :
    r.ran.isSome ↔ r.before.value? r.cell = none ∧ r.cell ∉ r.before.running := by
  cases recorded with
  | held there => simp [there]
  | refused absent runs => simp [runs]
  | computed absent idle ran => simp [absent, idle]
  | failed absent idle ran => simp [absent, idle]

theorem outcome_eq (recorded : Recorded k compute inner s r) {result : Except Error (V r.cell)}
    {left : Cells κ V ρ} (ran : r.ran = some (result, left)) : r.outcome = result := by
  cases recorded with
  | held there => cases ran
  | refused absent runs => cases ran
  | computed absent idle computed =>
    cases ran
    rfl
  | failed absent idle computed =>
    cases ran
    rfl

theorem failed_empty (recorded : Recorded k compute inner s r) (keeps : Keeps Advances compute)
    {e : Error} {left : Cells κ V ρ} (ran : r.ran = some (.error e, left)) :
    r.after.value? r.cell = none := by
  cases recorded with
  | held there => cases ran
  | refused absent runs => cases ran
  | computed absent idle computed => cases ran
  | failed absent idle computed =>
    cases ran
    have inside : (s.enter k).Advances left := after_error computed ▸ keeps (s.enter k)
    exact inside.waiting k List.mem_cons_self absent

theorem fromRun (recorded : Recorded k compute inner s r) : r.FromRun := by
  intro other same
  cases recorded with
  | held there =>
    have fetched : fetch k other s = .ok _ s := fetch_held there
    exact ⟨outcome_ok fetched, after_ok fetched⟩
  | refused absent runs =>
    have fetched : fetch k other s = .error _ s := fetch_refused absent runs
    exact ⟨outcome_error fetched, after_error fetched⟩
  | computed absent idle ran =>
    obtain ⟨came, left⟩ := same _ _ rfl
    have fetched := fetch_computed absent idle (left ▸ ok_of_outcome came)
    exact ⟨outcome_ok fetched, after_ok fetched⟩
  | failed absent idle ran =>
    obtain ⟨came, left⟩ := same _ _ rfl
    have fetched := fetch_failed absent idle (left ▸ error_of_outcome came)
    exact ⟨outcome_error fetched, after_error fetched⟩

theorem held_after (recorded : Recorded k compute inner s r) {value : V r.cell}
    (ok : r.outcome = .ok value) : r.after.value? r.cell = some value := by
  cases recorded with
  | held there =>
    cases ok
    exact there
  | refused absent runs => cases ok
  | computed absent idle ran =>
    cases ok
    simp
  | failed absent idle ran => cases ok

theorem proper (recorded : Recorded k compute inner s r) (keeps : Keeps Advances compute) :
    r.Proper where
  runs := recorded.runs_iff
  fromRun := recorded.fromRun
  result _ _ := recorded.outcome_eq
  failed _ _ := recorded.failed_empty keeps
  held _ := recorded.held_after
  restored := recorded.before_eq.symm ▸ (recorded.advances keeps).running

theorem refused_of_running (recorded : Recorded k compute inner s r) (waiting : s.Waiting)
    (runs : k ∈ s.running) : r.Refused := by
  have absent := waiting k runs
  cases recorded with
  | held there => exact nomatch absent.symm.trans there
  | refused => exact ⟨rfl, rfl, rfl, rfl⟩
  | computed _ idle => exact absurd runs idle
  | failed _ idle => exact absurd runs idle

theorem nested_eq (recorded : Recorded k compute inner s r) :
    r.nested = [] ∨ s.value? k = none ∧ r.nested = inner (s.enter k) := by
  cases recorded with
  | held there => exact .inl rfl
  | refused absent runs => exact .inl rfl
  | computed absent idle ran => exact .inr ⟨absent, rfl⟩
  | failed absent idle ran => exact .inr ⟨absent, rfl⟩

end Cells.Recorded

namespace CellProgram

theorem trail_records {α : Type} (p : CellProgram κ V ρ α) (s : Cells κ V ρ) :
    CellTrail s (AccessRecord.momentsOf (p.records s)) (after p.run s) := by
  induction p generalizing s with
  | done result => cases result <;> exact .nil fun _ _ there => there
  | look next ih => exact ih s s
  | change f next ih =>
    have changed : CellTrail s [] { s with rest := f s.rest } := .nil fun _ _ there => there
    exact changed.append (ih _)
  | access k init next ihInit ihNext =>
    have recorded := Cells.recorded_record k init.run init.records s
    exact (recorded.trail init.advances_run (ihInit _)).append (ihNext _ _)

end CellProgram

namespace AccessRecord

def MadeIn (r : AccessRecord κ V ρ) (running : List κ) : Prop :=
  ∃ (k : κ) (init : CellProgram κ V ρ (V k)) (s : Cells κ V ρ), s.Waiting ∧
    (∀ other ∈ running, other ∈ s.running) ∧ s.Recorded k init.run init.records r

end AccessRecord

namespace CellProgram

theorem madeIn_records {α : Type} (p : CellProgram κ V ρ α) {s : Cells κ V ρ}
    (waiting : s.Waiting) {r : AccessRecord κ V ρ} (among : r.Among (p.records s)) :
    r.MadeIn s.running := by
  induction p generalizing s with
  | done result => exact absurd among AccessRecord.not_among_nil
  | look next ih => exact ih s waiting among
  | change f next ih =>
    have changed : Cells.Waiting { s with rest := f s.rest } := waiting
    have made := ih changed among
    exact made
  | access k init next ihInit ihNext =>
    have recorded := Cells.recorded_record k init.run init.records s
    rcases AccessRecord.among_cons among with rfl | inside | later
    · exact ⟨k, init, s, waiting, fun _ member => member, recorded⟩
    · rcases recorded.nested_eq with none | ⟨absent, nested⟩
      · rw [none] at inside
        exact absurd inside AccessRecord.not_among_nil
      · rw [nested] at inside
        obtain ⟨k', init', s', waiting', running, recorded'⟩ :=
          ihInit (waiting.enter absent) inside
        exact ⟨k', init', s', waiting',
          fun other member => running other (List.mem_cons_of_mem _ member), recorded'⟩
    · have advances := recorded.advances init.advances_run
      have further := ihNext _ (waiting.advances advances) later
      rwa [advances.running] at further

theorem refused_inside {k : κ} {init : CellProgram κ V ρ (V k)} {s : Cells κ V ρ}
    {r inner : AccessRecord κ V ρ} (recorded : s.Recorded k init.run init.records r)
    (waiting : s.Waiting) (inside : inner.Among r.nested) (same : inner.cell = r.cell) :
    inner.Refused := by
  rcases recorded.nested_eq with none | ⟨absent, nested⟩
  · rw [none] at inside
    exact absurd inside AccessRecord.not_among_nil
  · rw [nested] at inside
    obtain ⟨k', init', s', waiting', running, recorded'⟩ :=
      init.madeIn_records (waiting.enter absent) inside
    have cell : k' = k := recorded'.cell_eq.symm.trans (same.trans recorded.cell_eq)
    subst cell
    exact recorded'.refused_of_running waiting' (running _ List.mem_cons_self)

/-- However a program and the computations of its cells ask for cells, all of them empty at first,
fail and carry on after errors, they keep to the discipline. -/
theorem disciplined {α : Type} (p : CellProgram κ V ρ α) (rest : ρ) :
    Disciplined (p.records { rest }) := by
  have waiting : Cells.Waiting ({ rest } : Cells κ V ρ) := nofun
  have trail := p.trail_records { rest }
  constructor
  · exact trail.pairwise.imp fun after => after.kept
  · refine trail.pairwise.imp_of_mem fun member _ after k value other first second => ?_
    have there := ((trail.after_of_mem _ member).stored k value first).2
    exact nomatch (after.stored k other second).1.symm.trans there
  · refine trail.pairwise.imp fun after k there event => ?_
    simp [after.started k event] at there
  · intro r among
    obtain ⟨k, init, s, _, _, recorded⟩ := p.madeIn_records waiting among
    exact recorded.proper init.advances_run
  · intro r inner among inside same
    obtain ⟨k, init, s, own, _, recorded⟩ := p.madeIn_records waiting among
    exact refused_inside recorded own inside same

end CellProgram

end

def reentrant : CellProgram Unit (fun _ => Nat) Unit Nat :=
  .access () (.access () (.done (.ok 1)) .done) fun _ => .access () (.done (.ok 2)) .done

theorem disciplined_reentrant :
    LawfulBEq Unit ∧ Disciplined (reentrant.records { rest := () }) :=
  ⟨inferInstance, reentrant.disciplined ()⟩

example : (reentrant.records { rest := () }).map (·.outcome) =
    [.error (.malformed .cyclic), .ok 2] := by cbv

end CliMetadata
