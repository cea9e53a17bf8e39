import CliMetadata.Proofs.Binding.Settled

set_option autoImplicit false

namespace CliMetadata

namespace Binding

section
variable {α β : Type}

theorem lift_congr_at {result : Except Error α} {f g : α → Binding β} {s : Session}
    (same : ∀ v, f v s = g v s) : (lift result >>= f) s = (lift result >>= g) s := by
  apply bind_congr_at
  intro v s' ran
  unfold lift at ran
  split at ran
  · cases ran
    exact same v
  · cases ran

theorem cell_congr_at {slot : Slot} {compute compute' : Binding slot.Value} {s : Session}
    (same : slot ∉ s.running → compute (s.enter slot) = compute' (s.enter slot)) :
    cell slot compute s = cell slot compute' s := by
  unfold cell Cells.fetch
  split
  · rfl
  by_cases running : slot ∈ s.running
  · simp [running]
  · rw [same running]

end

theorem typeReferenceBy_congr {a : AssemblyId} {assembly : Assembly}
    {outer outer' : Nat → Binding TypeDefinition} {s : Session}
    (same : ∀ rid, outer rid s = outer' rid s) (rid : Nat) :
    typeReferenceBy a assembly outer rid s = typeReferenceBy a assembly outer' rid s := by
  unfold typeReferenceBy
  apply lift_congr_at
  intro row
  apply lift_congr_at
  intro name
  apply lift_congr_at
  intro nameSpace
  dsimp only
  split
  · exact bind_congr_left (same _) _
  · rfl

def idleReferences (a : AssemblyId) (rows : Nat) (s : Session) : List Nat :=
  (List.range' 1 rows).filter fun rid => !s.running.contains (.typeRef a rid)

theorem idleReferences_enter {a : AssemblyId} {rows rid : Nat} {s : Session}
    (inside : 1 ≤ rid ∧ rid ≤ rows) (idle : .typeRef a rid ∉ s.running) :
    (idleReferences a rows (s.enter (.typeRef a rid))).length <
      (idleReferences a rows s).length := by
  have fewer : idleReferences a rows (s.enter (.typeRef a rid)) =
      (idleReferences a rows s).filter (· ≠ rid) := by
    rw [idleReferences, idleReferences, List.filter_filter]
    congr
    funext other
    simp
  rw [fewer]
  apply List.length_filter_lt_length_iff_exists.2
  refine ⟨rid, List.mem_filter.2 ⟨List.mem_range'_1.2 ⟨inside.1, by omega⟩, ?_⟩, by simp⟩
  simp [idle]

theorem typeReferenceWithin_congr {a : AssemblyId} {found : Assembly}
    {beyond beyond' : Nat → Binding TypeDefinition} {levels levels' rid : Nat} {s : Session}
    (there : s.context.assembly? a = some found)
    (enough : (idleReferences a (found.module.tables.rows .typeRef) s).length < levels)
    (enough' : (idleReferences a (found.module.tables.rows .typeRef) s).length < levels') :
    typeReferenceWithin a beyond levels rid s = typeReferenceWithin a beyond' levels' rid s := by
  -- every level follows one row more
  induction levels generalizing levels' rid s with
  | zero => cases enough
  | succ levels ih =>
    obtain ⟨levels', rfl⟩ : ∃ n, levels' = n + 1 := ⟨levels' - 1, by omega⟩
    unfold typeReferenceWithin
    apply bind_congr_at
    intro assembly s' ran
    rw [assembly_eq, there] at ran
    cases ran
    dsimp only
    split
    · rfl
    next inside =>
      apply cell_congr_at
      intro idle
      have fewer :=
        @idleReferences_enter a (found.module.tables.rows .typeRef) rid s (by omega) idle
      apply typeReferenceBy_congr
      intro rid'
      exact ih there (by omega) (by omega)

theorem idleReferences_le (a : AssemblyId) (rows : Nat) (s : Session) :
    (idleReferences a rows s).length ≤ rows := by
  have bound := List.length_filter_le (fun rid => !s.running.contains (.typeRef a rid))
    (List.range' 1 rows)
  rwa [List.length_range'] at bound

theorem typeReference_of_enough {a : AssemblyId} {found : Assembly}
    {beyond : Nat → Binding TypeDefinition} {levels rid : Nat} {s : Session}
    (there : s.context.assembly? a = some found)
    (enough : (idleReferences a (found.module.tables.rows .typeRef) s).length < levels) :
    typeReferenceWithin a beyond levels rid s = typeReference a rid s := by
  have first : assembly a s = .ok found s := assembly_loaded there
  have all := idleReferences_le a (found.module.tables.rows .typeRef) s
  rw [typeReference, bind_after_ok first]
  exact typeReferenceWithin_congr there enough (by omega)

theorem typeReferenceWithin_typeReference (a : AssemblyId) (levels : Nat) :
    typeReferenceWithin a (typeReference a) levels = typeReference a := by
  induction levels with
  | zero => rfl
  | succ levels ih =>
    funext rid s
    cases there : s.context.assembly? a with
    | none =>
      have missing : assembly a s = .error .entityDropped s := by rw [assembly_eq, there]
      rw [typeReferenceWithin, typeReference, bind_after_error missing, bind_after_error missing]
    | some found =>
      have first : assembly a s = .ok found s := assembly_loaded there
      rw [typeReferenceWithin, typeReference, bind_after_ok first, bind_after_ok first,
        typeReferenceWithin, bind_after_ok first, ih]
      dsimp only
      split
      · rfl
      next inside =>
        apply cell_congr_at
        intro idle
        have fewer :=
          @idleReferences_enter a (found.module.tables.rows .typeRef) rid s (by omega) idle
        have all := idleReferences_le a (found.module.tables.rows .typeRef) s
        apply typeReferenceBy_congr
        intro rid'
        have inside' : Session.context (s.enter (.typeRef a rid)) = s.context := rfl
        rw [← inside'] at there
        exact (typeReference_of_enough there (by omega)).symm

end Binding

end CliMetadata
