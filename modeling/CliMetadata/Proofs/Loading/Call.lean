import CliMetadata.Proofs.Loading.Store
import CliMetadata.Proofs.Running

set_option autoImplicit false

namespace CliMetadata

namespace Loading

theorem load_cases (m : Module) (c : LoadContext) :
    (∃ a, Assembly.ofModule m = .ok a ∧ load m c = .ok (c.place a).1 (c.place a).2) ∨
      ∃ e, load m c = .error e c := by
  unfold load
  cases Assembly.ofModule m with
  | ok a => exact .inl ⟨a, rfl, rfl⟩
  | error e => exact .inr ⟨e, rfl⟩

theorem loadFrom_cases (source : ModuleSource) (c : LoadContext) :
    (∃ m a, Assembly.ofModule m = .ok a ∧
      loadFrom source c = .ok (c.place a).1 (c.place a).2) ∨ ∃ e, loadFrom source c = .error e c := by
  unfold loadFrom
  cases source.read with
  | ok m => exact (load_cases m c).imp_left fun loaded => ⟨m, loaded⟩
  | error e => exact .inr ⟨e, rfl⟩

theorem loadAs_cases (identity : AssemblyIdentity) (m : Module) (c : LoadContext) :
    (∃ a, Assembly.ofModule m = .ok a ∧ loadAs identity m c =
      .ok (c.place a).1 ((c.place a).2.addKey identity (c.place a).1)) ∨
      ∃ e, loadAs identity m c = .error e c := by
  rcases load_cases m c with ⟨a, made, loaded⟩ | ⟨e, failed⟩
  · exact .inl ⟨a, made, bind_after_ok loaded _⟩
  · exact .inr ⟨e, bind_after_error failed _⟩

end Loading

def LoadContext.asking? (c : LoadContext) (identity : AssemblyIdentity) (flags : Nat) :
    Option (Consultation × LoadContext) :=
  if (c.find? identity).isSome ∨ c.isResolving identity ∨ c.isClaimed identity then none
  else c.resolver.map fun r => (r.consult c.requests.length identity flags,
    ((c.enter identity).claim identity).record identity flags)

theorem LoadContext.asking?_some {c asked : LoadContext} {identity : AssemblyIdentity}
    {flags : Nat} {consultation : Consultation}
    (asking : c.asking? identity flags = some (consultation, asked)) :
    c.find? identity = none ∧ ¬c.isResolving identity ∧ ¬c.isClaimed identity ∧
      ∃ r, c.resolver = some r ∧ r.consult c.requests.length identity flags = consultation ∧
        ((c.enter identity).claim identity).record identity flags = asked := by
  unfold asking? at asking
  split at asking
  next => cases asking
  next allowed =>
    obtain ⟨r, resolver, same⟩ := Option.map_eq_some_iff.1 asking
    obtain ⟨absent, new, free⟩ : ¬(c.find? identity).isSome ∧ ¬c.isResolving identity ∧
        ¬c.isClaimed identity := by
      simpa only [not_or] using allowed
    exact ⟨by simpa using absent, new, free, r, resolver, congrArg Prod.fst same,
      congrArg Prod.snd same⟩

theorem LoadContext.sameStore_asking {c asked : LoadContext} {identity : AssemblyIdentity}
    {flags : Nat} {consultation : Consultation}
    (asking : c.asking? identity flags = some (consultation, asked)) :
    c.find? identity = none ∧ c.SameStore asked ∧
      asked.requests = (identity, flags) :: c.requests := by
  obtain ⟨absent, _, _, r, _, _, rfl⟩ := asking?_some asking
  exact ⟨absent, ⟨rfl, rfl⟩, rfl⟩

namespace Loading

section
variable {α : Type} {identity : AssemblyIdentity} {x : Loading α} {c : LoadContext}

theorem requesting_eq : requesting identity x c =
    if c.isResolving identity then
      .error (.referenceCycle (.chain (identity :: c.resolving).reverse)) c
    else between (·.enter identity) (·.leave) x c := by
  rw [requesting, get_bind]
  by_cases under : c.isResolving identity
  · simp only [under, if_true]
    rfl
  · simp only [under, if_false, Bool.false_eq_true]

theorem claiming_eq : claiming identity x c =
    if c.isClaimed identity then .error (.referenceCycle (.chain [identity, identity])) c
    else between (·.claim identity) (·.release identity) x c := by
  rw [claiming, get_bind]
  by_cases taken : c.isClaimed identity
  · simp only [taken, if_true]
    rfl
  · simp only [taken, if_false, Bool.false_eq_true]

@[simp] theorem attempt_eq (x : Loading α) (c : LoadContext) :
    attempt x c = .ok (outcome x c) (after x c) := by
  unfold attempt outcome after
  cases x c <;> rfl

end

section
variable {ask : AssemblyIdentity → Nat → Loading AssemblyId} {identity : AssemblyIdentity}
  {flags : Nat} {c : LoadContext}

theorem consult_alone (alone : c.resolver = none) :
    consult ask identity flags c =
      .error (.assemblyNotFound identity.display "no resolver configured") c := by
  rw [consult, get_bind, alone]
  rfl

theorem consult_eq {r : Resolver} (resolver : c.resolver = some r) :
    consult ask identity flags c =
      match follow ask (r.consult c.requests.length identity flags) (c.record identity flags) with
      | .ok m c' => .ok m c'
      | .error e c' => .error (failure identity e) c' := by
  rw [consult, get_bind, resolver]
  dsimp only
  rw [get_bind, modify_bind, bind_after_ok (attempt_eq _ _), outcome, after]
  cases follow ask (r.consult c.requests.length identity flags) (c.record identity flags) with
  | ok m c' => rfl
  | error e c' => rfl

theorem consult_ok {r : Resolver} (resolver : c.resolver = some r) {m : Module} {c' : LoadContext}
    (followed : follow ask (r.consult c.requests.length identity flags) (c.record identity flags) =
      .ok m c') : consult ask identity flags c = .ok m c' := by
  rw [consult_eq resolver, followed]

theorem consult_error {r : Resolver} (resolver : c.resolver = some r) {e : Error} {c' : LoadContext}
    (followed : follow ask (r.consult c.requests.length identity flags) (c.record identity flags) =
      .error e c') : consult ask identity flags c = .error (failure identity e) c' := by
  rw [consult_eq resolver, followed]

end

section
variable {identity : AssemblyIdentity} {supply : Loading Module} {c : LoadContext}

theorem findOrLoad_found {id : AssemblyId} (found : c.find? identity = some id) :
    findOrLoad identity supply c = .ok id c := by
  rw [findOrLoad, get_bind, found]
  rfl

theorem findOrLoad_absent (absent : c.find? identity = none) :
    findOrLoad identity supply c =
      requesting identity (claiming identity (supply >>= loadAs identity)) c := by
  rw [findOrLoad, get_bind, absent]

theorem findOrLoad_refused (absent : c.find? identity = none) (under : c.isResolving identity) :
    findOrLoad identity supply c =
      .error (.referenceCycle (.chain (identity :: c.resolving).reverse)) c := by
  rw [findOrLoad_absent absent, requesting_eq, if_pos under]

theorem findOrLoad_taken (absent : c.find? identity = none) (new : ¬c.isResolving identity)
    (taken : c.isClaimed identity) :
    findOrLoad identity supply c = .error (.referenceCycle (.chain [identity, identity])) c := by
  have taken' : (c.enter identity).isClaimed identity := taken
  rw [findOrLoad_absent absent, requesting_eq, if_neg new, between, claiming_eq, if_pos taken']
  simp

theorem findOrLoad_entered (absent : c.find? identity = none) (new : ¬c.isResolving identity)
    (free : ¬c.isClaimed identity) :
    findOrLoad identity supply c =
      match (supply >>= loadAs identity) ((c.enter identity).claim identity) with
      | .ok id c' => .ok id (c'.release identity).leave
      | .error e c' => .error e (c'.release identity).leave := by
  have free' : ¬(c.enter identity).isClaimed identity := free
  rw [findOrLoad_absent absent, requesting_eq, if_neg new, between, claiming_eq, if_neg free',
    between]
  cases (supply >>= loadAs identity) ((c.enter identity).claim identity) <;> rfl

end

section
variable (depth : Nat) {identity : AssemblyIdentity} (flags : Nat) {c : LoadContext}

theorem resolve_found {id : AssemblyId} (found : c.find? identity = some id) :
    resolve depth identity flags c = .ok id c := by
  cases depth <;> exact findOrLoad_found found

theorem resolve_refused (absent : c.find? identity = none) (under : c.isResolving identity) :
    resolve depth identity flags c =
      .error (.referenceCycle (.chain (identity :: c.resolving).reverse)) c := by
  cases depth <;> exact findOrLoad_refused absent under

theorem resolve_taken (absent : c.find? identity = none) (new : ¬c.isResolving identity)
    (taken : c.isClaimed identity) :
    resolve depth identity flags c = .error (.referenceCycle (.chain [identity, identity])) c := by
  cases depth <;> exact findOrLoad_taken absent new taken

theorem resolve_cut (absent : c.find? identity = none) (new : ¬c.isResolving identity)
    (free : ¬c.isClaimed identity) : resolve 0 identity flags c = .error .exhausted c := by
  have undone : (((c.enter identity).claim identity).release identity).leave = c := by simp
  change findOrLoad identity (throw .exhausted) c = _
  rw [findOrLoad_entered absent new free]
  exact congrArg _ undone

theorem resolve_entered (absent : c.find? identity = none) (new : ¬c.isResolving identity)
    (free : ¬c.isClaimed identity) :
    resolve (depth + 1) identity flags c =
      match (consult (resolve depth) identity flags >>= loadAs identity)
        ((c.enter identity).claim identity) with
      | .ok id c' => .ok id (c'.release identity).leave
      | .error e c' => .error e (c'.release identity).leave :=
  findOrLoad_entered absent new free

theorem quiet_leave (identity : AssemblyIdentity) (c : LoadContext) :
    c.Quiet (c.release identity).leave :=
  ⟨⟨rfl, rfl⟩, rfl⟩

theorem resolve_alone (absent : c.find? identity = none) (new : ¬c.isResolving identity)
    (free : ¬c.isClaimed identity) (alone : c.resolver = none) :
    resolve (depth + 1) identity flags c =
      .error (.assemblyNotFound identity.display "no resolver configured") c := by
  have alone' : ((c.enter identity).claim identity).resolver = none := alone
  have undone : (((c.enter identity).claim identity).release identity).leave = c := by simp
  rw [resolve_entered depth flags absent new free, bind_after_error (consult_alone alone')]
  exact congrArg _ undone

theorem resolve_unasked (unasked : depth = 0 ∨ c.asking? identity flags = none) :
    (∃ id, c.find? identity = some id ∧ resolve depth identity flags c = .ok id c) ∨
      ∃ e, resolve depth identity flags c = .error e c := by
  cases found : c.find? identity with
  | some id => exact .inl ⟨id, rfl, resolve_found depth flags found⟩
  | none =>
    right
    by_cases under : c.isResolving identity
    · exact ⟨_, resolve_refused depth flags found under⟩
    by_cases taken : c.isClaimed identity
    · exact ⟨_, resolve_taken depth flags found under taken⟩
    cases depth with
    | zero => exact ⟨_, resolve_cut flags found under taken⟩
    | succ depth =>
      have alone : c.resolver = none := by
        simpa [LoadContext.asking?, found, under, taken] using unasked
      exact ⟨_, resolve_alone depth flags found under taken alone⟩

-- A request that gets to the resolver adds, behind what the resolver has added meanwhile, the
-- assembly it was supplied; or it fails and adds nothing more.
theorem resolve_asked {consultation : Consultation} {asked : LoadContext}
    (asking : c.asking? identity flags = some (consultation, asked)) :
    (∃ a c', resolve (depth + 1) identity flags c =
        .ok ((after (follow (resolve depth) consultation) asked).place a).1 c' ∧
      (((after (follow (resolve depth) consultation) asked).place a).2.addKey identity
        ((after (follow (resolve depth) consultation) asked).place a).1).Quiet c') ∨
      ∃ e c', resolve (depth + 1) identity flags c = .error e c' ∧
        (after (follow (resolve depth) consultation) asked).Quiet c' := by
  obtain ⟨absent, new, free, r, resolver, rfl, rfl⟩ := LoadContext.asking?_some asking
  have resolver' : ((c.enter identity).claim identity).resolver = some r := resolver
  rw [resolve_entered depth flags absent new free]
  cases followed : follow (resolve depth) (r.consult c.requests.length identity flags)
    (((c.enter identity).claim identity).record identity flags) with
  | ok m c' =>
    rw [after_ok followed, bind_after_ok (consult_ok resolver' followed)]
    rcases loadAs_cases identity m c' with ⟨a, _, loaded⟩ | ⟨e, failed⟩
    · exact .inl ⟨a, _, by rw [loaded], quiet_leave identity _⟩
    · exact .inr ⟨e, _, by rw [failed], quiet_leave identity _⟩
  | error e c' =>
    rw [after_error followed, bind_after_error (consult_error resolver' followed)]
    exact .inr ⟨_, _, rfl, quiet_leave identity _⟩

end

section
variable (ask : AssemblyIdentity → Nat → Loading AssemblyId) (c : LoadContext)
  (next : Except Error AssemblyId → Consultation)

@[simp] theorem follow_load (source : ModuleSource) :
    follow ask (.load source next) c =
      follow ask (next (outcome (loadFrom source) c)) (after (loadFrom source) c) :=
  bind_after_ok (attempt_eq (loadFrom source) c) _

@[simp] theorem follow_resolve (identity : AssemblyIdentity) (flags : Nat) :
    follow ask (.resolve identity flags next) c =
      follow ask (next (outcome (ask identity flags) c)) (after (ask identity flags) c) :=
  bind_after_ok (attempt_eq (ask identity flags) c) _

theorem after_follow_load (source : ModuleSource) :
    after (follow ask (.load source next)) c =
      after (follow ask (next (outcome (loadFrom source) c))) (after (loadFrom source) c) :=
  after_congr (follow_load ask c next ..)

theorem after_follow_resolve (identity : AssemblyIdentity) (flags : Nat) :
    after (follow ask (.resolve identity flags next)) c =
      after (follow ask (next (outcome (ask identity flags) c))) (after (ask identity flags) c) :=
  after_congr (follow_resolve ask c next ..)

theorem outcome_follow_load (source : ModuleSource) :
    outcome (follow ask (.load source next)) c =
      outcome (follow ask (next (outcome (loadFrom source) c))) (after (loadFrom source) c) :=
  outcome_congr (follow_load ask c next ..)

theorem outcome_follow_resolve (identity : AssemblyIdentity) (flags : Nat) :
    outcome (follow ask (.resolve identity flags next)) c =
      outcome (follow ask (next (outcome (ask identity flags) c)))
        (after (ask identity flags) c) :=
  outcome_congr (follow_resolve ask c next ..)

end

end Loading

end CliMetadata
