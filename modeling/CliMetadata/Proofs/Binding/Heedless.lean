import CliMetadata.Proofs.Binding.Lifetime

set_option autoImplicit false

namespace CliMetadata

def Session.computing (s : Session) (running : List Slot) : Session := { s with running }

namespace Binding

/-- Where it succeeds, it does so in the same way whatever cells are being computed. -/
def Heedless {α : Type} (x : Binding α) : Prop :=
  ∀ ⦃s : Session⦄ ⦃value : α⦄ ⦃s' : Session⦄, x s = .ok value s' → ∀ running : List Slot,
    x (s.computing running) = .ok value (s'.computing running)

section
variable {α β : Type}

theorem Heedless.pure (value : α) : Heedless (pure value : Binding α) := by
  intro s _ s' ran running
  cases ran
  rfl

theorem Heedless.bind {x : Binding α} {f : α → Binding β} (first : Heedless x)
    (rest : ∀ value, Heedless (f value)) : Heedless (x >>= f) := by
  intro s result s' ran running
  obtain ⟨value, between, ran, further⟩ := ok_of_bind_ok ran
  exact (bind_after_ok (first ran running) f).trans (rest value further running)

theorem Heedless.view {f : Session → Except Error α}
    (same : ∀ (s : Session) (running : List Slot), f (s.computing running) = f s) :
    Heedless (view f) := by
  intro s value s' ran running
  unfold Binding.view Binding.lift at ran ⊢
  rw [same]
  split at ran
  next => cases ran; rfl
  next => cases ran

theorem Heedless.lift (result : Except Error α) : Heedless (lift result) :=
  .view fun _ _ => rfl

theorem heedless_loading (x : Loading α) : Heedless (loading x) := by
  intro s value s' ran running
  have same : (s.computing running).context = s.context := rfl
  unfold loading at ran ⊢
  rw [same]
  split at ran
  next => cases ran; rfl
  next => cases ran

end

theorem heedless_resolveAssembly (identity : AssemblyIdentity) (flags : Nat) :
    Heedless (resolveAssembly identity flags) := by
  intro s target s' ran running
  have same : (s.computing running).contextLives = s.contextLives := rfl
  unfold resolveAssembly at ran ⊢
  rw [get_bind] at ran ⊢
  rw [same]
  split at ran
  next => cases ran
  next lives =>
    rw [if_neg lives]
    exact heedless_loading _ ran running

theorem cell_computing {slot : Slot} {compute : Binding slot.Value} (heedless : Heedless compute)
    {s s' : Session} {value : slot.Value} (ran : cell slot compute s = .ok value s')
    {running : List Slot} (idle : slot ∉ running) :
    cell slot compute (s.computing running) = .ok value (s'.computing running) := by
  rcases cell_ok ran with ⟨present, rfl⟩ | ⟨absent, between, computed, rfl⟩
  · exact cell_of_value present
  · have computed := heedless computed (slot :: running)
    have again : cell slot compute (s.computing running) = .ok value
        (((between.computing (slot :: running)).leave slot).store slot value) :=
      cell_of_computed absent idle computed
    rw [again]
    simp [Session.computing, Cells.leave, Cells.store]

theorem reference_computing {a : AssemblyId} {rid : Nat} {s s' : Session} {target : AssemblyId}
    (ran : reference a rid s = .ok target s') {running : List Slot}
    (idle : .reference a rid ∉ running) :
    reference a rid (s.computing running) = .ok target (s'.computing running) := by
  unfold reference at ran ⊢
  obtain ⟨assembly, between, found, ran⟩ := ok_of_bind_ok ran
  have found : Binding.assembly a (s.computing running) =
    .ok assembly (between.computing running) := Heedless.view (fun _ _ => rfl) found running
  rw [bind_after_ok found]
  dsimp only at ran ⊢
  split at ran
  next => cases ran
  next inside =>
    rw [if_neg inside]
    obtain ⟨_, later, fetched, ran⟩ := ok_of_bind_ok ran
    obtain ⟨_, _, lived, same⟩ := ok_of_bind_ok ran
    cases same
    have fetched := cell_computing (by
      refine (Heedless.lift _).bind fun named => ?_
      split
      · exact .pure a
      · exact heedless_resolveAssembly _ _) fetched idle
    have lived : liveAssembly _ (later.computing running) = .ok _ (Session.computing _ running) :=
      Heedless.view (fun _ _ => rfl) lived running
    exact (bind_after_ok fetched _).trans (bind_after_ok lived _)

end Binding

end CliMetadata
