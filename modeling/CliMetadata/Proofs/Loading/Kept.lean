import CliMetadata.Proofs.Loading.Call

set_option autoImplicit false

namespace CliMetadata.Loading

/-- The relation goes on over whatever a call does to the context step by step. A request and its
claim are taken back after all that is done in between. -/
structure Kept (R : LoadContext → LoadContext → Prop) : Prop where
  refl : ∀ c, R c c
  trans : ∀ {c c' c''}, R c c' → R c' c'' → R c c''
  place : ∀ c m a, Assembly.ofModule m = .ok a → R c (LoadContext.place c a).2
  addKey : ∀ c identity id, R c (LoadContext.addKey c identity id)
  record : ∀ c identity flags, R c (LoadContext.record c identity flags)
  undone : ∀ c c' identity, R ((LoadContext.enter c identity).claim identity) c' →
    R c (LoadContext.release c' identity).leave

namespace Kept

variable {R : LoadContext → LoadContext → Prop} {ask : AssemblyIdentity → Nat → Loading AssemblyId}

theorem and {S : LoadContext → LoadContext → Prop} (first : Kept R) (second : Kept S) :
    Kept fun c c' => R c c' ∧ S c c' where
  refl c := ⟨first.refl c, second.refl c⟩
  trans left right := ⟨first.trans left.1 right.1, second.trans left.2 right.2⟩
  place c m a made := ⟨first.place c m a made, second.place c m a made⟩
  addKey c identity id := ⟨first.addKey c identity id, second.addKey c identity id⟩
  record c identity flags := ⟨first.record c identity flags, second.record c identity flags⟩
  undone c c' identity kept :=
    ⟨first.undone c c' identity kept.1, second.undone c c' identity kept.2⟩

theorem loadFrom (kept : Kept R) (source : ModuleSource) : Keeps R (loadFrom source) := by
  intro c
  rcases loadFrom_cases source c with ⟨m, a, made, loaded⟩ | ⟨e, failed⟩
  · rw [after_ok loaded]
    exact kept.place c m a made
  · rw [after_error failed]
    exact kept.refl c

theorem loadAs (kept : Kept R) (identity : AssemblyIdentity) (m : Module) :
    Keeps R (loadAs identity m) := by
  intro c
  rcases loadAs_cases identity m c with ⟨a, made, loaded⟩ | ⟨e, failed⟩
  · rw [after_ok loaded]
    exact kept.trans (kept.place c m a made) (kept.addKey _ identity _)
  · rw [after_error failed]
    exact kept.refl c

theorem follow (kept : Kept R) (asks : ∀ identity flags, Keeps R (ask identity flags))
    (consultation : Consultation) : Keeps R (follow ask consultation) := by
  induction consultation with
  | answer result =>
    intro c
    cases result <;> exact kept.refl c
  | load source next ih =>
    intro c
    rw [after_follow_load]
    exact kept.trans (kept.loadFrom source c) (ih _ _)
  | resolve identity flags next ih =>
    intro c
    rw [after_follow_resolve]
    exact kept.trans (asks identity flags c) (ih _ _)

theorem consult (kept : Kept R) (asks : ∀ identity flags, Keeps R (ask identity flags))
    (identity : AssemblyIdentity) (flags : Nat) : Keeps R (consult ask identity flags) := by
  intro c
  cases resolver : c.resolver with
  | none =>
    rw [after_error (consult_alone resolver)]
    exact kept.refl c
  | some r =>
    have whole := kept.trans (kept.record c identity flags)
      (kept.follow asks (r.consult c.requests.length identity flags) (c.record identity flags))
    cases followed : Loading.follow ask (r.consult c.requests.length identity flags)
      (c.record identity flags) with
    | ok m c' => rwa [after_ok (consult_ok resolver followed), ← after_ok followed]
    | error e c' => rwa [after_error (consult_error resolver followed), ← after_error followed]

theorem findOrLoad (kept : Kept R) {supply : Loading Module} (supplies : Keeps R supply)
    (identity : AssemblyIdentity) : Keeps R (findOrLoad identity supply) := by
  intro c
  cases found : c.find? identity with
  | some id =>
    rw [after_ok (findOrLoad_found found)]
    exact kept.refl c
  | none =>
    by_cases under : c.isResolving identity
    · rw [after_error (findOrLoad_refused found under)]
      exact kept.refl c
    by_cases taken : c.isClaimed identity
    · rw [after_error (findOrLoad_taken found under taken)]
      exact kept.refl c
    have supplied := Keeps.bind (R := R) kept.trans supplies
      (kept.loadAs identity) ((c.enter identity).claim identity)
    have undone := kept.undone c _ identity supplied
    unfold after at undone ⊢
    rw [findOrLoad_entered found under taken]
    split at undone <;> simp_all

theorem resolve (kept : Kept R) (depth : Nat) (identity : AssemblyIdentity) (flags : Nat) :
    Keeps R (resolve depth identity flags) := by
  -- What the resolver asks for while it is asked has one level less to go.
  induction depth generalizing identity flags with
  | zero =>
    have nothing : Keeps R (throw .exhausted : Loading Module) := fun c => kept.refl c
    exact kept.findOrLoad nothing identity
  | succ depth ih => exact kept.findOrLoad (kept.consult ih identity flags) identity

end Kept

end CliMetadata.Loading
