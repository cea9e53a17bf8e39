import CliMetadata.Loading.Context

set_option autoImplicit false

namespace CliMetadata.LoadContext

structure SameStore (c c' : LoadContext) : Prop where
  assemblies : c'.assemblies = c.assemblies
  index : c'.index = c.index

structure Quiet (c c' : LoadContext) : Prop extends SameStore c c' where
  requests : c'.requests = c.requests

structure Extends (c c' : LoadContext) : Prop where
  assemblies : c.assemblies <+: c'.assemblies
  index : c.index <+: c'.index

/-- The assemblies have different identities, each is found under its own, and what the index holds
are places of assemblies. -/
structure Consistent (c : LoadContext) : Prop where
  distinct : c.assemblies.Pairwise fun a b => ¬a.identity.same b.identity
  own : ∀ i (inside : i < c.assemblies.length), c.find? c.assemblies[i].identity = some ⟨i⟩
  keys : c.index.Pairwise fun entry other => ¬entry.1.same other.1
  stored : ∀ entry ∈ c.index, entry.2.position < c.assemblies.length

theorem Extends.refl (c : LoadContext) : c.Extends c := ⟨List.prefix_rfl, List.prefix_rfl⟩

theorem Extends.trans {c c' c'' : LoadContext} (first : c.Extends c') (second : c'.Extends c'') :
    c.Extends c'' :=
  ⟨first.assemblies.trans second.assemblies, first.index.trans second.index⟩

theorem SameStore.extends {c c' : LoadContext} (same : c.SameStore c') : c.Extends c' := by
  have assemblies : c.assemblies <+: c'.assemblies := same.assemblies ▸ List.prefix_rfl
  have index : c.index <+: c'.index := same.index ▸ List.prefix_rfl
  exact ⟨assemblies, index⟩

section
variable (c : LoadContext) (identity other : AssemblyIdentity) (flags : Nat)

@[simp] theorem find?_enter : (c.enter identity).find? other = c.find? other := rfl

@[simp] theorem find?_leave : c.leave.find? other = c.find? other := rfl

@[simp] theorem find?_claim : (c.claim identity).find? other = c.find? other := rfl

@[simp] theorem find?_release : (c.release identity).find? other = c.find? other := rfl

@[simp] theorem find?_record : (c.record identity flags).find? other = c.find? other := rfl

@[simp] theorem resolver_enter : (c.enter identity).resolver = c.resolver := rfl

@[simp] theorem resolver_claim : (c.claim identity).resolver = c.resolver := rfl

@[simp] theorem resolver_record : (c.record identity flags).resolver = c.resolver := rfl

@[simp] theorem requests_enter : (c.enter identity).requests = c.requests := rfl

@[simp] theorem requests_claim : (c.claim identity).requests = c.requests := rfl

@[simp] theorem requests_record :
    (c.record identity flags).requests = (identity, flags) :: c.requests := rfl

@[simp] theorem isClaimed_enter : (c.enter identity).isClaimed other = c.isClaimed other := rfl

@[simp] theorem leave_enter : (c.enter identity).leave = c := rfl

@[simp] theorem leave_release_claim_enter :
    (((c.enter identity).claim identity).release identity).leave = c := by
  simp [enter, claim, release, leave]

end

theorem find?_congr (c : LoadContext) {identity other : AssemblyIdentity}
    (same : identity.same other = true) : c.find? identity = c.find? other := by
  have alike : ∀ entry : AssemblyIdentity × AssemblyId,
      entry.1.same identity = entry.1.same other := by
    intro entry
    rw [Bool.eq_iff_iff, AssemblyIdentity.same_iff, AssemblyIdentity.same_iff,
      AssemblyIdentity.same_iff.1 same]
  simp only [find?, alike]

theorem SameStore.find? {c c' : LoadContext} (same : c.SameStore c') (identity : AssemblyIdentity) :
    c'.find? identity = c.find? identity := by
  simp only [LoadContext.find?, same.index]

theorem Extends.find? {c c' : LoadContext} (grown : c.Extends c') {identity : AssemblyIdentity}
    {id : AssemblyId} (found : c.find? identity = some id) : c'.find? identity = some id := by
  obtain ⟨behind, whole⟩ := grown.index
  simp only [LoadContext.find?] at found ⊢
  obtain ⟨entry, first, place⟩ := Option.map_eq_some_iff.1 found
  rw [← whole, List.find?_append, first]
  exact congrArg some place

theorem Extends.assembly? {c c' : LoadContext} (grown : c.Extends c') {id : AssemblyId}
    {a : Assembly} (there : c.assembly? id = some a) : c'.assembly? id = some a := by
  obtain ⟨behind, whole⟩ := grown.assemblies
  have inside := (List.getElem?_eq_some_iff.1 there).1
  rw [LoadContext.assembly?] at there ⊢
  rw [← whole, List.getElem?_append_left inside, there]

theorem find?_append_of_none {c c' : LoadContext} {key : AssemblyIdentity} {id : AssemblyId}
    (index : c'.index = c.index ++ [(key, id)]) (identity : AssemblyIdentity) :
    c'.find? identity =
      (c.find? identity).or (if key.same identity then some id else none) := by
  simp only [find?, index, List.find?_append, List.find?_cons, List.find?_nil]
  cases c.index.find? fun entry => entry.1.same identity with
  | some entry => simp
  | none => cases key.same identity <;> simp

theorem not_same_of_find?_none {c : LoadContext} {identity : AssemblyIdentity}
    (absent : c.find? identity = none) : ∀ entry ∈ c.index, ¬entry.1.same identity := by
  simpa [find?] using absent

theorem Consistent.of_sameStore {c c' : LoadContext} (consistent : c.Consistent)
    (same : c.SameStore c') : c'.Consistent := by
  obtain ⟨distinct, own, keys, stored⟩ := consistent
  constructor
  · rwa [same.assemblies]
  · intro i inside
    rw [same.find?]
    simp only [same.assemblies] at inside ⊢
    exact own i inside
  · rwa [same.index]
  · rwa [same.index, same.assemblies]

theorem consistent_fresh (resolver : Option Resolver) :
    ({ resolver } : LoadContext).Consistent where
  distinct := .nil
  own := fun _ inside => absurd inside (Nat.not_lt_zero _)
  keys := .nil
  stored := fun _ member => absurd member List.not_mem_nil

theorem Consistent.stored_of_find? {c : LoadContext} (consistent : c.Consistent)
    {identity : AssemblyIdentity} {id : AssemblyId} (found : c.find? identity = some id) :
    id.position < c.assemblies.length := by
  obtain ⟨entry, first, rfl⟩ := Option.map_eq_some_iff.1 found
  exact consistent.stored entry (List.mem_of_find?_eq_some first)

theorem extends_push (c : LoadContext) (a : Assembly) : c.Extends (c.push a) :=
  ⟨List.prefix_append _ _, List.prefix_append _ _⟩

theorem Consistent.push {c : LoadContext} (consistent : c.Consistent) {a : Assembly}
    (absent : c.find? a.identity = none) : (c.push a).Consistent := by
  have others := not_same_of_find?_none absent
  constructor
  · refine List.pairwise_append.2 ⟨consistent.distinct, List.pairwise_singleton _ _, ?_⟩
    intro b member _ last same
    obtain rfl := List.mem_singleton.1 last
    obtain ⟨i, inside, rfl⟩ := List.getElem_of_mem member
    have found := consistent.own i inside
    rw [c.find?_congr same, absent] at found
    cases found
  · intro i inside
    by_cases old : i < c.assemblies.length
    · have kept : (c.push a).assemblies[i] = c.assemblies[i] := List.getElem_append_left old
      rw [kept]
      exact (c.extends_push a).find? (consistent.own i old)
    · have last : i = c.assemblies.length := by
        simp only [LoadContext.push, List.length_append, List.length_singleton] at inside
        omega
      subst last
      have new : (c.push a).assemblies[c.assemblies.length] = a := by
        simp [LoadContext.push]
      rw [new, find?_append_of_none rfl, absent, AssemblyIdentity.same_refl]
      rfl
  · refine List.pairwise_append.2 ⟨consistent.keys, List.pairwise_singleton _ _, ?_⟩
    intro entry member _ last
    obtain rfl := List.mem_singleton.1 last
    exact others entry member
  · intro entry member
    have count : (c.push a).assemblies.length = c.assemblies.length + 1 := by
      simp [LoadContext.push]
    rw [count]
    rcases List.mem_append.1 member with old | new
    · exact Nat.lt_succ_of_lt (consistent.stored entry old)
    · obtain rfl := List.mem_singleton.1 new
      exact Nat.lt_succ_self _

theorem extends_addKey (c : LoadContext) (identity : AssemblyIdentity) (id : AssemblyId) :
    c.Extends (c.addKey identity id) := by
  unfold addKey
  split
  · exact .refl c
  · exact ⟨List.prefix_rfl, List.prefix_append _ _⟩

theorem Consistent.addKey {c : LoadContext} (consistent : c.Consistent)
    (identity : AssemblyIdentity) {id : AssemblyId} (inside : id.position < c.assemblies.length) :
    (c.addKey identity id).Consistent := by
  unfold LoadContext.addKey
  split
  · exact consistent
  next absent =>
    have others := not_same_of_find?_none absent
    have kept : c.Extends { c with index := c.index ++ [(identity, id)] } :=
      ⟨List.prefix_rfl, List.prefix_append _ _⟩
    refine ⟨consistent.distinct, fun i inside => kept.find? (consistent.own i inside), ?_, ?_⟩
    · refine List.pairwise_append.2 ⟨consistent.keys, List.pairwise_singleton _ _, ?_⟩
      intro entry member _ last
      obtain rfl := List.mem_singleton.1 last
      exact others entry member
    · intro entry member
      rcases List.mem_append.1 member with old | new
      · exact consistent.stored entry old
      · obtain rfl := List.mem_singleton.1 new
        exact inside

theorem find?_addKey (c : LoadContext) (identity : AssemblyIdentity) (id : AssemblyId) :
    ((c.addKey identity id).find? identity).isSome := by
  unfold addKey
  split
  next found => rw [found]; rfl
  next absent =>
    rw [find?_append_of_none rfl, absent, AssemblyIdentity.same_refl]
    rfl

-- An entry that is there already stands before the one that is added.
@[simp] theorem find?_addKey_eq (c : LoadContext) (key : AssemblyIdentity) (id : AssemblyId)
    (identity : AssemblyIdentity) : (c.addKey key id).find? identity =
      (c.find? identity).or (if key.same identity then some id else none) := by
  cases found : c.find? key with
  | none =>
    have added : c.addKey key id = { c with index := c.index ++ [(key, id)] } := by
      rw [addKey, found]
    rw [added, find?_append_of_none rfl]
  | some other =>
    have kept : c.addKey key id = c := by rw [addKey, found]
    rw [kept]
    by_cases same : key.same identity
    · rw [← c.find?_congr same, found]
      rfl
    · simp [same]

@[simp] theorem find?_place (c : LoadContext) (a : Assembly) (identity : AssemblyIdentity) :
    (c.place a).2.find? identity =
      (c.find? identity).or (if a.identity.same identity then some (c.place a).1 else none) := by
  cases found : c.find? a.identity with
  | none =>
    have placed : c.place a = (⟨c.assemblies.length⟩, c.push a) := by rw [place, found]
    rw [placed, find?_append_of_none rfl]
  | some id =>
    have placed : c.place a = (id, c) := by rw [place, found]
    rw [placed]
    by_cases same : a.identity.same identity
    · rw [← c.find?_congr same, found]
      rfl
    · simp [same]

@[simp] theorem find?_place_own (c : LoadContext) (a : Assembly) :
    (c.place a).2.find? a.identity = some (c.place a).1 := by
  unfold place
  split
  next found => exact found
  next absent =>
    rw [find?_append_of_none rfl, absent, AssemblyIdentity.same_refl]
    rfl

theorem extends_place (c : LoadContext) (a : Assembly) : c.Extends (c.place a).2 := by
  unfold place
  split
  · exact .refl c
  · exact c.extends_push a

@[simp] theorem requests_place (c : LoadContext) (a : Assembly) :
    (c.place a).2.requests = c.requests := by
  unfold place
  split <;> rfl

@[simp] theorem requests_addKey (c : LoadContext) (identity : AssemblyIdentity) (id : AssemblyId) :
    (c.addKey identity id).requests = c.requests := by
  unfold addKey
  split <;> rfl

theorem Consistent.place {c : LoadContext} (consistent : c.Consistent) (a : Assembly) :
    (c.place a).2.Consistent ∧ (c.place a).1.position < (c.place a).2.assemblies.length := by
  unfold LoadContext.place
  split
  next found => exact ⟨consistent, consistent.stored_of_find? found⟩
  next absent => exact ⟨consistent.push absent, by simp [LoadContext.push]⟩

end CliMetadata.LoadContext
