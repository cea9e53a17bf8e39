import CliMetadata.Proofs.Binding.Settling

set_option autoImplicit false

namespace CliMetadata.Session.Grows

variable {s s' : Session}

theorem assembly? (grown : s.Grows s') {id : AssemblyId} {a : Assembly}
    (there : s.context.assembly? id = some a) : s'.context.assembly? id = some a :=
  grown.context.toExtends.assembly? there

theorem contextLives (grown : s.Grows s') : s'.contextLives = s.contextLives := by
  rw [Session.contextLives, Session.contextLives, grown.client, grown.context.resolver]

theorem assemblyLives (grown : s.Grows s') (id : AssemblyId) :
    s'.assemblyLives id = s.assemblyLives id := by
  rw [Session.assemblyLives, Session.assemblyLives, grown.contextLives, grown.client]

theorem liveAssemblies (grown : s.Grows s') {entry : AssemblyId × Assembly}
    (there : entry ∈ s.liveAssemblies) : entry ∈ s'.liveAssemblies := by
  obtain ⟨behind, whole⟩ := grown.context.assemblies
  simp only [Session.liveAssemblies, ← whole, List.zipIdx_append, List.filterMap_append,
    grown.assemblyLives]
  exact List.mem_append_left _ there

theorem typeReferenced (grown : s.Grows s') {t : TypeId} (referenced : s.typeReferenced t = true) :
    s'.typeReferenced t = true := by
  simp only [Session.typeReferenced, List.any_eq_true, Prod.exists] at referenced ⊢
  obtain ⟨id, a, there, rid, inside, bound⟩ := referenced
  refine ⟨id, a, grown.liveAssemblies there, rid, inside, ?_⟩
  obtain ⟨definition, value, same⟩ := Option.map_eq_some_iff.1 (beq_iff_eq.1 bound)
  rw [grown.values _ _ value]
  exact beq_iff_eq.2 (congrArg some same)

theorem typeHeld (grown : s.Grows s') {t : TypeId} (held : s.typeHeld t = true) :
    s'.typeHeld t = true := by
  simp only [Session.typeHeld, Bool.or_eq_true, grown.assemblyLives, grown.client] at held ⊢
  exact held.imp_right grown.typeReferenced

theorem heldBy? (grown : s.Grows s') {t outer : TypeId} (held : s.heldBy? t = some outer) :
    s'.heldBy? t = some outer := by
  simp only [Session.heldBy?, Option.bind_eq_bind, Option.bind_eq_some_iff] at held ⊢
  obtain ⟨definition, value, enclosing, inside, nested, types, member⟩ := held
  exact ⟨definition, grown.values _ _ value, enclosing, inside, nested, grown.values _ _ types,
    member⟩

-- The further out the types are sought that may hold it, the more types live.
theorem typeLivesWithin (grown : s.Grows s') {levels more : Nat} (deeper : levels ≤ more)
    {t : TypeId} (lives : s.typeLivesWithin levels t = true) :
    s'.typeLivesWithin more t = true := by
  induction levels generalizing more t with
  | zero =>
    have held := grown.typeHeld lives
    cases more with
    | zero => exact held
    | succ more => simp [Session.typeLivesWithin, held]
  | succ levels ih =>
    cases more with
    | zero => cases deeper
    | succ more =>
      simp only [Session.typeLivesWithin, Bool.or_eq_true, Option.any_eq_true] at lives ⊢
      rcases lives with held | ⟨outer, holds, lives⟩
      · exact .inl (grown.typeHeld held)
      · exact .inr ⟨outer, grown.heldBy? holds, ih (Nat.le_of_succ_le_succ deeper) lives⟩

theorem typeLives (grown : s.Grows s') {t : TypeId} (lives : s.typeLives t = true) :
    s'.typeLives t = true := by
  refine grown.typeLivesWithin ?_ lives
  cases there : s.context.assembly? t.assembly with
  | none => exact Nat.zero_le _
  | some a => exact Nat.le_of_eq (by rw [grown.assembly? there])

end CliMetadata.Session.Grows

theorem CliMetadata.Session.liveAssembly_iff {s : Session} {id : AssemblyId} {a : Assembly} :
    s.liveAssembly id = .ok a ↔ s.context.assembly? id = some a ∧ s.assemblyLives id = true := by
  unfold Session.liveAssembly Session.whileAlive
  cases s.context.assembly? id <;> cases s.assemblyLives id <;> simp

theorem CliMetadata.Session.liveAssembly_of_held {s : Session} {id : AssemblyId} {a : Assembly}
    (there : s.context.assembly? id = some a) (lives : s.client.holdsContext = true) :
    s.liveAssembly id = .ok a :=
  Session.liveAssembly_iff.2
    ⟨there, by simp [Session.assemblyLives, Session.contextLives, lives]⟩

theorem CliMetadata.Session.assembly?_of_live {s : Session} {id : AssemblyId} {a : Assembly}
    (lives : s.liveAssembly id = .ok a) : s.context.assembly? id = some a :=
  (Session.liveAssembly_iff.1 lives).1

namespace CliMetadata.Binding

theorem liveAssembly_live {s : Session} {id : AssemblyId} {a : Assembly}
    (lives : s.liveAssembly id = .ok a) : liveAssembly id s = .ok a s := by
  unfold liveAssembly view lift
  simp only [lives]

theorem assembly_eq (a : AssemblyId) (s : Session) :
    assembly a s = match s.context.assembly? a with
      | some found => .ok found s
      | none => .error .entityDropped s := by
  unfold assembly view lift
  cases there : s.context.assembly? a <;> simp only [there]

theorem assembly_loaded {a : AssemblyId} {found : Assembly} {s : Session}
    (there : s.context.assembly? a = some found) : assembly a s = .ok found s := by
  rw [assembly_eq, there]

theorem liveAssembly_loaded {a : AssemblyId} {found : Assembly} {s : Session}
    (there : s.context.assembly? a = some found) (lives : s.client.holdsContext = true) :
    liveAssembly a s = .ok found s := liveAssembly_live (Session.liveAssembly_of_held there lives)

theorem definition_inside {a : AssemblyId} {assembly : Assembly} {rid : Nat} {s : Session}
    (there : s.context.assembly? a = some assembly) (least : 1 ≤ rid)
    (most : rid ≤ assembly.typeCount) :
    definition a rid s = cell (.definition ⟨a, rid⟩) (lift (assembly.definition a rid)) s := by
  have found : Binding.assembly a s = .ok assembly s := assembly_loaded there
  have inside : ¬(rid = 0 ∨ assembly.typeCount < rid) := by omega
  unfold definition
  rw [bind_after_ok found]
  simp only [inside, if_false]

theorem settles_assembly (id : AssemblyId) : Settles (assembly id) := by
  refine .view fun s later a seen grown => ?_
  cases there : s.context.assembly? id with
  | none => rw [there] at seen; cases seen
  | some found =>
    rw [there] at seen
    rw [grown.assembly? there]
    exact seen

theorem settles_liveAssembly (id : AssemblyId) : Settles (liveAssembly id) := by
  refine .view fun s later a seen grown => ?_
  unfold Session.liveAssembly Session.whileAlive at seen ⊢
  rw [grown.assemblyLives]
  cases there : s.context.assembly? id with
  | none => rw [there] at seen; cases seen
  | some found =>
    rw [there] at seen
    rw [grown.assembly? there]
    exact seen

theorem settles_liveType (t : TypeId) : Settles (liveType t) := by
  refine .view fun s later definition seen grown => ?_
  unfold Session.liveType Session.whileAlive at seen ⊢
  cases there : s.value? (.definition t) with
  | none => rw [there] at seen; cases seen
  | some found =>
    rw [there] at seen
    rw [grown.values _ _ there]
    by_cases lives : s.typeLives t
    · simp only [lives] at seen
      simp only [grown.typeLives lives]
      exact seen
    · simp [lives] at seen

end CliMetadata.Binding
