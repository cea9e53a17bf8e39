import CliMetadata.Proofs.Binding.Orderly
import CliMetadata.Proofs.Nesting
import CliMetadata.Proofs.Storage.Image
import CliMetadata.Proofs.Table.Ownership

set_option autoImplicit false

namespace CliMetadata

namespace Assembly

variable {a : Assembly} {id : AssemblyId} {nesting : Nesting}

theorem Inside.rids {rids : List Nat} {types : List TypeDefinition}
    (inside : a.Inside id rids types) : types.map (·.id.rid) = rids := by
  induction inside with
  | nil => rfl
  | cons gives _ ih => rw [List.map_cons, ih, (definition_ok gives).1]

theorem Inside.mem_iff {rids : List Nat} {types : List TypeDefinition} {t : TypeDefinition}
    (inside : a.Inside id rids types) (gives : a.definition id t.id.rid = .ok t) :
    t ∈ types ↔ t.id.rid ∈ rids := by
  rw [← inside.rids, List.mem_map]
  constructor
  · exact fun member => ⟨t, member, rfl⟩
  · rintro ⟨other, member, same⟩
    obtain ⟨rid, -, given⟩ := exists_of_mem_right inside member
    rw [(definition_ok given).1] at same
    cases same
    cases gives.symm.trans given
    exact member

end Assembly

theorem Ledger.ensures_enclosingType {L : Ledger} (t : TypeDefinition) (s : Session) :
    L.Ensures t.enclosingType s fun outer s' => (outer = none ∧ t.enclosing = none) ∨
      ∃ rid d, outer = some d ∧ t.enclosing = some rid ∧
        s'.value? (.definition ⟨t.id.assembly, rid⟩) = some d := by
  unfold TypeDefinition.enclosingType
  split
  next alone => exact ensures_pure (.inl ⟨rfl, alone⟩)
  next rid around =>
    refine (ensures_liveAssembly t.id.assembly s).bind fun _ s' _ _ => ?_
    refine (ensures_definition t.id.assembly rid s').bind fun d s'' _ value => ?_
    exact ensures_pure (.inr ⟨rid, d, rfl, around, value⟩)

namespace Session.Orderly

variable {s s' : Session} (orderly : s.Orderly) {id : AssemblyId} {a : Assembly}
  (there : s.context.assembly? id = some a) {nesting : Nesting} (nested : a.nesting = .ok nesting)
  {t : TypeDefinition} (gives : a.definition id t.id.rid = .ok t)
include orderly there nested gives

theorem enclosingType_ok {outer : Option TypeDefinition} (ran : t.enclosingType s = .ok outer s') :
    (outer = none ∧ nesting.enclosing? t.id.rid = none) ∨ ∃ rid d, outer = some d ∧
      nesting.enclosing? t.id.rid = some rid ∧ a.definition id rid = .ok d := by
  have own : t.id.assembly = id := congrArg TypeId.assembly (Assembly.definition_ok gives).1
  obtain ⟨_, _, -, -, -, -, indexed, -, -, -, enclosing⟩ := Assembly.definition_parts gives
  cases nested.symm.trans indexed
  obtain ⟨follows, answered⟩ := Ledger.ensures_enclosingType t s orderly.invariant.1
  rw [after_ok ran] at follows
  rw [← enclosing]
  refine (answered outer s' ran).imp_right ?_
  rintro ⟨rid, d, same, around, value⟩
  refine ⟨rid, d, same, around, ?_⟩
  exact follows.sound.plain.definition_told (follows.grows.assembly? there) (own ▸ value)

theorem nestedTypes_ok {types : List TypeDefinition} (ran : t.nestedTypes s = .ok types s') :
    a.Inside id (nesting.nested t.id.rid) types := by
  have own : t.id.assembly = id := congrArg TypeId.assembly (Assembly.definition_ok gives).1
  obtain ⟨follows, value⟩ := Ledger.ensures_nestedTypes t s orderly.invariant.1
  rw [after_ok ran] at follows
  subst own
  exact Ledger.nestedTypes_told follows.sound (follows.grows.assembly? there) nested
    (value types s' ran)

end Session.Orderly

namespace Assembly

/-- What the types of an assembly tell about each other, in whatever sessions they are asked. -/
structure TypesNest (a : Assembly) (nesting : Nesting) : Prop where
  around : ∀ {s s' : Session} {id : AssemblyId} {t : TypeDefinition} {outer},
    s.Orderly → s.context.assembly? id = some a → a.definition id t.id.rid = .ok t →
    t.enclosingType s = .ok outer s' → outer.map (·.id.rid) = nesting.enclosing? t.id.rid
  inside : ∀ {s s' : Session} {id : AssemblyId} {t : TypeDefinition} {types},
    s.Orderly → s.context.assembly? id = some a → a.definition id t.id.rid = .ok t →
    t.nestedTypes s = .ok types s' → types.map (·.id.rid) = nesting.nested t.id.rid
  inverse : ∀ {r r' s s' : Session} {id : AssemblyId} {inner outer : TypeDefinition} {found types},
    r.Orderly → r.context.assembly? id = some a → a.definition id inner.id.rid = .ok inner →
    s.Orderly → s.context.assembly? id = some a → a.definition id outer.id.rid = .ok outer →
    inner.enclosingType r = .ok found r' → outer.nestedTypes s = .ok types s' →
    (found = some outer ↔ inner ∈ types)

theorem typesNest {a : Assembly} {nesting : Nesting} (nested : a.nesting = .ok nesting)
    (inverse : ∀ inner outer, nesting.enclosing? inner = some outer ↔
      inner ∈ nesting.nested outer) : a.TypesNest nesting where
  around orderly there gives ran := by
    rcases orderly.enclosingType_ok there nested gives ran with
      ⟨rfl, alone⟩ | ⟨rid, d, rfl, around, given⟩
    · exact alone.symm
    · rw [around, Option.map_some, (definition_ok given).1]
  inside orderly there gives ran := (orderly.nestedTypes_ok there nested gives ran).rids
  inverse := by
    intro r r' s s' id inner outer found types first there gives second there' gives' ran ran'
    have inside := second.nestedTypes_ok there' nested gives' ran'
    rw [inside.mem_iff gives, ← inverse]
    rcases first.enclosingType_ok there nested gives ran with
      ⟨rfl, alone⟩ | ⟨rid, d, rfl, around, given⟩
    · simp [alone]
    · rw [around, Option.some_inj, Option.some_inj]
      constructor
      · rintro rfl
        rw [(definition_ok given).1]
      · rintro rfl
        exact Except.ok.inj (given.symm.trans gives')

/-- The index lists under each type exactly those that it says lie inside it, which are those that a
row pairs with it, in the order of their rows; and types tell nothing else. There is no index if a
type lies inside two others. -/
theorem nesting_inverse {a : Assembly} {rows : List (Row .nestedClass)}
    (made : ofModule a.module = .ok a) (read : a.module.allRows .nestedClass = .ok rows) :
    (Module.NestedOnce rows → ∃ nesting, a.nesting = .ok nesting ∧
      nesting.Inverse (Module.nestedPairs rows) ∧ a.TypesNest nesting) ∧
    (¬Module.NestedOnce rows → ∃ twice,
      1 < ((Module.nestedPairs rows).map (·.nested)).count twice ∧
        a.nesting = .error (.malformed (.nestedTwice twice))) := by
  rw [(ofModule_eq made).2.1]
  refine ⟨fun once => ?_, Module.nesting_twice read⟩
  obtain ⟨nesting, nested, inverse⟩ := Module.nesting_once read once
  have index := (ofModule_eq made).2.1.trans nested
  exact ⟨nesting, nested, inverse, typesNest index inverse.listed⟩

end Assembly

theorem Ledger.enclosingType_loads {s : Session} {a : Assembly} {t d : TypeDefinition} {rid : Nat}
    (sound : full.Sound s) (idle : .definition ⟨t.id.assembly, rid⟩ ∉ s.running)
    (lives : s.liveAssembly t.id.assembly = .ok a) (around : t.enclosing = some rid)
    (gives : a.definition t.id.assembly rid = .ok d) :
    ∃ s', t.enclosingType s = .ok (some d) s' := by
  have there := Session.assembly?_of_live lives
  obtain ⟨s', ran, -⟩ := definition_loads sound idle there gives
  refine ⟨s', ?_⟩
  unfold TypeDefinition.enclosingType
  simp only [around]
  rw [bind_after_ok (Binding.liveAssembly_live lives), bind_after_ok ran]
  rfl

/-- The metadata of an assembly with the types A, B, C, D and E. Rows tell in this order that the
given one lies inside A, E inside itself, B inside A and C inside D. -/
def nestedSeveral (inside : UInt8) : ByteArray := image [
  ("#~", tableStream [
    (.module, [[0, 0, 0, 0, 0, 0, 0, 0, 0, 0]]),
    (.typeDef, [
      [0, 0, 0, 0, 1, 0, 0, 0, 0, 0, 1, 0, 1, 0],
      [0, 0, 0, 0, 3, 0, 0, 0, 0, 0, 1, 0, 1, 0],
      [0, 0, 0, 0, 5, 0, 0, 0, 0, 0, 1, 0, 1, 0],
      [0, 0, 0, 0, 7, 0, 0, 0, 0, 0, 1, 0, 1, 0],
      [0, 0, 0, 0, 9, 0, 0, 0, 0, 0, 1, 0, 1, 0]]),
    (.nestedClass, [
      [inside, 0, 1, 0],
      [5, 0, 5, 0],
      [2, 0, 1, 0],
      [3, 0, 4, 0]])]),
  ("#Strings", stringHeap ["A", "B", "C", "D", "E"])]

theorem nesting_inverse_several :
    (∃ (a : Assembly) (nesting : Nesting) (s r r' : Session) (inner outer : TypeDefinition)
      (types : List TypeDefinition), a.nesting = .ok nesting ∧ nesting.enclosing? 5 = some 5 ∧
      5 ∈ nesting.nested 5 ∧ (nesting.nested 1).Pairwise (· < ·) ∧ 2 ∈ nesting.nested 1 ∧
      4 ∈ nesting.nested 1 ∧ s.Orderly ∧ inner.enclosingType s = .ok (some outer) r ∧
      outer.nestedTypes s = .ok types r' ∧ inner ∈ types) ∧
    ∃ a : Assembly, a.nesting = .error (.malformed (.nestedTwice 2)) := by
  constructor
  · obtain ⟨a, -, made, passes⟩ := Assembly.exists_read (nestedSeveral 4) (fun a =>
      (a.module.allRows .nestedClass).toOption.any (fun rows => Module.NestedOnce rows &&
        (Module.nestedPairs rows).map (fun row => (row.nested, row.enclosing)) =
          [(4, 1), (5, 5), (2, 1), (3, 4)]) &&
      (a.definition ⟨0⟩ 1).isOk && (a.definition ⟨0⟩ 2).isOk &&
      (a.definition ⟨0⟩ 4).isOk) (by decide +kernel)
    simp only [Bool.and_eq_true, decide_eq_true_eq, Option.any_eq_true, except_toOption_some]
      at passes
    obtain ⟨⟨⟨⟨rows, read, once, pairs⟩, first⟩, second⟩, fourth⟩ := passes
    obtain ⟨nesting, nested, inverse, nest⟩ := (Assembly.nesting_inverse made read).1 once
    have lies (inner outer : Nat) : nesting.enclosing? inner = some outer ↔
        (inner, outer) ∈ [(4, 1), (5, 5), (2, 1), (3, 4)] := by
      rw [inverse.paired, ← pairs, List.mem_map]
      constructor
      · exact fun member => ⟨_, member, rfl⟩
      · rintro ⟨row, member, same⟩
        cases same
        exact member
    obtain ⟨outer, gives⟩ := of_isOk first
    obtain ⟨inner, gives'⟩ := of_isOk fourth
    have own := (Assembly.definition_ok gives).1
    have own' := (Assembly.definition_ok gives').1
    have lives : (Session.holding a).liveAssembly ⟨0⟩ = .ok a :=
      Session.liveAssembly_of_held rfl rfl
    have orderly := Session.orderly_holding made
    have sound := orderly.invariant.1
    obtain ⟨_, _, -, -, -, -, indexed, -, -, -, enclosing⟩ := Assembly.definition_parts gives'
    cases nested.symm.trans indexed
    have around : inner.enclosing = some 1 := enclosing.trans ((lies 4 1).2 (by decide))
    obtain ⟨r, ran⟩ := Ledger.enclosingType_loads sound List.not_mem_nil (by rwa [own']) around
      (by rwa [own'])
    obtain ⟨types, r', ran', -⟩ := Ledger.nestedTypes_loads sound List.not_mem_nil
      (fun _ => List.not_mem_nil) (by rwa [own]) nested (fun rid member => by
        rw [own] at member ⊢
        have there := (lies rid 1).1 ((inverse.listed rid 1).2 member)
        obtain rfl | rfl : rid = 4 ∨ rid = 2 := by simpa using there
        · exact of_isOk fourth
        · exact of_isOk second)
    refine ⟨a, nesting, _, r, r', inner, outer, types, nested, (lies 5 5).2 (by decide),
      (inverse.listed 5 5).1 ((lies 5 5).2 (by decide)), inverse.ascending 1,
      (inverse.listed 2 1).1 ((lies 2 1).2 (by decide)),
      (inverse.listed 4 1).1 ((lies 4 1).2 (by decide)), orderly, ran, ran', ?_⟩
    exact (nest.inverse orderly rfl (by rwa [own']) orderly rfl (by rwa [own]) ran ran').1 rfl
  · obtain ⟨a, -, made, passes⟩ := Assembly.exists_read (nestedSeveral 2) (fun a =>
      (a.module.allRows .nestedClass).toOption.any fun rows =>
        (Module.nestedPairs rows).map (·.nested) = [2, 5, 2, 3]) (by decide +kernel)
    simp only [Option.any_eq_true, except_toOption_some, decide_eq_true_eq] at passes
    obtain ⟨rows, read, twice⟩ := passes
    obtain ⟨rid, counted, refused⟩ := (Assembly.nesting_inverse made read).2 (by
      rw [Module.NestedOnce, twice]
      decide)
    rw [twice] at counted
    have second : rid = 2 := by
      have member : rid ∈ [2, 5, 2, 3] := List.count_pos_iff.1 (by omega)
      by_contra other
      obtain rfl | rfl : rid = 5 ∨ rid = 3 := by simpa [other] using member
      · exact absurd counted (by decide)
      · exact absurd counted (by decide)
    exact ⟨a, second ▸ refused⟩

end CliMetadata
