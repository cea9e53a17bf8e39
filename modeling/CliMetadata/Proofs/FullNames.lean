import CliMetadata.Proofs.Hierarchy
import CliMetadata.Proofs.Storage.Image

set_option autoImplicit false

namespace CliMetadata

namespace Module

variable {m : Module} {rid : Nat}

theorem fullName_ends {nesting : Nesting} (reads : (m.types nesting.Inside).Reads rid) :
    (m.fullName nesting rid = .error (.malformed (.nestingCycle rid)) ↔
      (m.types nesting.Inside).Endless rid) ∧
    (¬(m.types nesting.Inside).Endless rid → ∃ names, (m.types nesting.Inside).Path rid names () ∧
      m.fullName nesting rid = .ok (joinNames names)) := by
  obtain ⟨cyclic, follows⟩ := (walks_namesAround m nesting rid).ends (types_within nesting) reads
  have joined : m.fullName nesting rid =
      (m.namesAround nesting rid m.typeCount rid []).map joinNames := by
    unfold fullName
    cases m.namesAround nesting rid m.typeCount rid [] <;> rfl
  refine ⟨?_, fun ends => ?_⟩
  · rw [joined, except_map_error, ← cyclic, except_map_error]
  · obtain ⟨names, ⟨⟩, path, ran⟩ := follows ends
    obtain ⟨_, found, same⟩ := except_map_ok.1 ran
    cases same
    exact ⟨names, path, by rw [joined, found]; rfl⟩

theorem exportedName_ends (reads : m.exportedTypes.Reads rid) {row : Row .exportedType}
    (at_ : m.rowAt .exportedType rid = .ok row) :
    (m.exportedName (.ofRow row) = .error (.malformed (.exportedNesting rid)) ↔
      m.exportedTypes.Endless rid) ∧
    (¬m.exportedTypes.Endless rid → ∃ names implementation,
      m.exportedTypes.Path rid names implementation ∧
      m.exportedName (.ofRow row) = .ok (joinNames names, implementation)) := by
  obtain ⟨cyclic, follows⟩ := (walks_exportedAround m rid).ends exportedTypes_within reads
  have own : (ExportedTypeRow.ofRow row).rid = rid := rid_of_rowAt at_
  have joined : m.exportedName (.ofRow row) =
      (m.exportedAround rid m.exportedCount (.ofRow row) []).map (Prod.map joinNames id) := by
    unfold exportedName
    rw [own]
    cases m.exportedAround rid m.exportedCount (.ofRow row) [] <;> rfl
  rw [at_] at cyclic follows
  refine ⟨?_, fun ends => ?_⟩
  · rw [joined, except_map_error]
    exact cyclic
  · obtain ⟨names, implementation, path, ran⟩ := follows ends
    have found : m.exportedAround rid m.exportedCount (.ofRow row) [] =
      .ok (names, implementation) := ran
    exact ⟨names, implementation, path, by rw [joined, found]; rfl⟩

def InsideBy (rows : List (Row .nestedClass)) (rid outer : Nat) : Prop :=
  ⟨rid, outer⟩ ∈ nestedPairs rows

theorem inside_eq {nesting : Nesting} {rows : List (Row .nestedClass)}
    (inverse : nesting.Inverse (nestedPairs rows)) : nesting.Inside = InsideBy rows :=
  funext fun rid => funext fun outer => propext (inverse.paired rid outer)

end Module

namespace Assembly

open CliMetadata.Module

def fullNameAt (a : Assembly) (rid : Nat) : Except Error String := do
  a.module.fullName (← a.nesting) rid

/-- The full name of a type comes to its end as the way outwards does. -/
structure NamedOutwards (a : Assembly) (rows : List (Row .nestedClass)) (rid : Nat) : Prop where
  cyclic : a.fullNameAt rid = .error (.malformed (.nestingCycle rid)) ↔
    (a.module.types (InsideBy rows)).Endless rid
  ends : ¬(a.module.types (InsideBy rows)).Endless rid → ∃ names,
    (a.module.types (InsideBy rows)).Path rid names () ∧ a.fullNameAt rid = .ok (joinNames names)

structure ExportedOutwards (a : Assembly) (rid : Nat) : Prop where
  cyclic : a.exportedAt rid = .error (.malformed (.exportedNesting rid)) ↔
    a.module.exportedTypes.Endless rid
  ends : ¬a.module.exportedTypes.Endless rid → ∃ names implementation,
    a.module.exportedTypes.Path rid names implementation ∧
      a.exportedAt rid = .ok (joinNames names, implementation)

/-- Names end as the ways outwards do, from every row from which all that stands on the way can be
read. Types that are defined have names only if none of them lies inside two others. -/
theorem fullNames_end {data : ByteArray} {a : Assembly} (loaded : Module.read data = .ok a.module)
    (made : ofModule a.module = .ok a) : ∃ rows, a.module.allRows .nestedClass = .ok rows ∧
      (NestedOnce rows → ∀ rid, (a.module.types (InsideBy rows)).Reads rid →
        a.NamedOutwards rows rid) ∧
      (¬NestedOnce rows → ∃ twice, 1 < ((nestedPairs rows).map (·.nested)).count twice ∧
        ∀ rid, a.fullNameAt rid = .error (.malformed (.nestedTwice twice))) ∧
      ∀ rid, a.module.exportedTypes.Reads rid → a.ExportedOutwards rid := by
  obtain ⟨rows, read⟩ := exists_allRows loaded (t := .nestedClass) (by decide)
  have index := (ofModule_eq made).2.1
  refine ⟨rows, read, fun once rid reads => ?_, fun twice => ?_, fun rid reads => ?_⟩
  · obtain ⟨nesting, nested, inverse⟩ := nesting_once read once
    have whole : a.fullNameAt rid = a.module.fullName nesting rid := by
      rw [fullNameAt, index, nested]
      rfl
    rw [← inside_eq inverse] at reads
    obtain ⟨cyclic, ends⟩ := fullName_ends reads
    rw [← whole, inside_eq inverse] at cyclic ends
    exact ⟨cyclic, ends⟩
  · obtain ⟨twice, counted, refused⟩ := nesting_twice read twice
    refine ⟨twice, counted, fun rid => ?_⟩
    rw [fullNameAt, index, refused]
    rfl
  · obtain ⟨_, named⟩ := reads.names rid .refl
    obtain ⟨row, at_, -⟩ := except_bind_ok.1 named
    have whole : a.exportedAt rid = a.module.exportedName (.ofRow row) := by
      rw [exportedAt, at_]
      rfl
    obtain ⟨cyclic, ends⟩ := exportedName_ends reads at_
    rw [← whole] at cyclic ends
    exact ⟨cyclic, ends⟩

end Assembly

/-- The metadata of an assembly with the types N.A, B, C, D and E, where C lies inside B, B inside
N.A, E inside D and D inside itself. It exports the types B, N.A, D and E, of which the first lies
inside the second, and the last two lie inside each other. -/
def nestedNames : ByteArray := image [
  ("#~", tableStream [
    (.module, [[0, 0, 0, 0, 0, 0, 0, 0, 0, 0]]),
    (.typeDef, [
      [0, 0, 0, 0, 1, 0, 0x0b, 0, 0, 0, 1, 0, 1, 0],
      [0, 0, 0, 0, 3, 0, 0, 0, 0, 0, 1, 0, 1, 0],
      [0, 0, 0, 0, 5, 0, 0, 0, 0, 0, 1, 0, 1, 0],
      [0, 0, 0, 0, 7, 0, 0, 0, 0, 0, 1, 0, 1, 0],
      [0, 0, 0, 0, 9, 0, 0, 0, 0, 0, 1, 0, 1, 0]]),
    (.exportedType, [
      [0, 0, 0, 0, 0, 0, 0, 0, 3, 0, 0, 0, 0x0a, 0],
      [0, 0, 0, 0, 0, 0, 0, 0, 1, 0, 0x0b, 0, 0, 0],
      [0, 0, 0, 0, 0, 0, 0, 0, 7, 0, 0, 0, 0x12, 0],
      [0, 0, 0, 0, 0, 0, 0, 0, 9, 0, 0, 0, 0x0e, 0]]),
    (.nestedClass, [
      [3, 0, 2, 0],
      [5, 0, 4, 0],
      [2, 0, 1, 0],
      [4, 0, 4, 0]])]),
  ("#Strings", stringHeap ["A", "B", "C", "D", "E", "N"])]

theorem Hierarchy.Reads.of_closed {α : Type} {h : Hierarchy α} {rid count : Nat}
    (closed : ∀ r outer, h.Inside r outer → 1 ≤ outer ∧ outer ≤ count)
    (each : ∀ r, 1 ≤ r → r ≤ count → (h.name r).isOk = true ∧ (h.root r).isOk = true)
    (least : 1 ≤ rid) (most : rid ≤ count) : h.Reads rid := by
  have within {r : Nat} (meets : h.Meets rid r) : 1 ≤ r ∧ r ≤ count := by
    rcases Relation.ReflTransGen.cases_tail meets with rfl | ⟨inner, -, inside⟩
    · exact ⟨least, most⟩
    · exact closed inner r inside
  constructor
  · intro r meets
    exact of_isOk (each r (within meets).1 (within meets).2).1
  · intro r meets _
    exact of_isOk (each r (within meets).1 (within meets).2).2

def readsNested (types exported : Nat) (a : Assembly) : Bool :=
  ((a.module.allRows .nestedClass).toOption.any fun rows =>
    (Module.nestedPairs rows).all fun row => 1 ≤ row.enclosing && row.enclosing ≤ types) &&
  (List.range types).all (fun i => ((a.module.types fun _ _ => False).name (i + 1)).isOk &&
    ((a.module.types fun _ _ => False).root (i + 1)).isOk) &&
  (List.range exported).all fun i => (a.module.exportedTypes.name (i + 1)).isOk &&
    (a.module.exportedTypes.root (i + 1)).isOk &&
    (a.module.rowAt .exportedType (i + 1)).toOption.any fun row =>
      let implementation := (ExportedTypeRow.ofRow row).implementation
      implementation.table ≠ .exportedType ||
        1 ≤ implementation.row && implementation.row ≤ exported

theorem reads_nested {a : Assembly} {rows : List (Row .nestedClass)} {types : Nat}
    (reads : readsNested types a.module.exportedCount a = true)
    (read : a.module.allRows .nestedClass = .ok rows) :
    (∀ rid, 1 ≤ rid → rid ≤ types → (a.module.types (Module.InsideBy rows)).Reads rid) ∧
      ∀ rid, 1 ≤ rid → rid ≤ a.module.exportedCount → a.module.exportedTypes.Reads rid := by
  simp only [readsNested, read, Bool.and_eq_true, List.all_eq_true, List.mem_range,
    Option.any_eq_true, Except.toOption, Option.some.injEq, decide_eq_true_eq] at reads
  obtain ⟨⟨⟨_, rfl, pairs⟩, defined⟩, exported⟩ := reads
  constructor
  · intro rid least most
    refine .of_closed (fun r outer inside => pairs _ inside) (fun r first last => ?_) least most
    have each := defined (r - 1) (by omega)
    rwa [Nat.sub_add_cancel first] at each
  · intro rid least most
    refine .of_closed (fun r outer inside => ?_) (fun r first last => ?_) least most
    · obtain ⟨row, at_, inside⟩ := inside
      obtain ⟨first, last⟩ := Module.within_of_rowAt at_
      have last : r ≤ a.module.exportedCount := last
      obtain ⟨-, _, same, bounds⟩ := exported (r - 1) (by omega)
      rw [Nat.sub_add_cancel first, at_] at same
      cases same
      simpa [inside] using bounds
    · have each := (exported (r - 1) (by omega)).1
      rwa [Nat.sub_add_cancel first] at each

theorem fullNames_end_nested : ∃ (a : Assembly) (rows : List (Row .nestedClass)),
    Module.read nestedNames = .ok a.module ∧ a.module.allRows .nestedClass = .ok rows ∧
    a.NamedOutwards rows 3 ∧ a.fullNameAt 3 = .ok "N.A/B/C" ∧
    a.NamedOutwards rows 5 ∧ (a.module.types (Module.InsideBy rows)).Endless 5 ∧
    a.ExportedOutwards 1 ∧ a.exportedAt 1 = .ok ("N.A/B", ⟨.file, 0⟩) ∧
    a.ExportedOutwards 4 ∧ a.module.exportedTypes.Endless 4 := by
  obtain ⟨a, loaded, making, passes⟩ := Assembly.exists_read nestedNames (fun a =>
    readsNested 5 a.module.exportedCount a && a.module.exportedCount = 4 &&
      (a.module.allRows .nestedClass).toOption.any (fun rows => Module.NestedOnce rows) &&
      a.fullNameAt 3 = .ok "N.A/B/C" && a.fullNameAt 5 = .error (.malformed (.nestingCycle 5)) &&
      a.exportedAt 1 = .ok ("N.A/B", ⟨.file, 0⟩) &&
      a.exportedAt 4 = .error (.malformed (.exportedNesting 4))) (by decide +kernel)
  simp only [Bool.and_eq_true, decide_eq_true_eq, Option.any_eq_true, except_toOption_some]
    at passes
  obtain ⟨⟨⟨⟨⟨⟨reads, count⟩, rows, read, once⟩, third⟩, fifth⟩, first⟩, fourth⟩ := passes
  obtain ⟨_, same, named, -, exported⟩ := Assembly.fullNames_end loaded making
  cases read.symm.trans same
  obtain ⟨types, others⟩ := reads_nested reads read
  have circular := named once 5 (types 5 (by decide) (by decide))
  have circle := exported 4 (others 4 (by decide) (by omega))
  exact ⟨a, rows, loaded, read, named once 3 (types 3 (by decide) (by decide)), third, circular,
    circular.cyclic.1 fifth, exported 1 (others 1 (by decide) (by omega)), first, circle,
    circle.cyclic.1 fourth⟩

def nestedTwice : ByteArray := image [
  ("#~", tableStream [
    (.module, [[0, 0, 0, 0, 0, 0, 0, 0, 0, 0]]),
    (.typeDef, [
      [0, 0, 0, 0, 1, 0, 0, 0, 0, 0, 1, 0, 1, 0],
      [0, 0, 0, 0, 3, 0, 0, 0, 0, 0, 1, 0, 1, 0]]),
    (.nestedClass, [
      [2, 0, 1, 0],
      [2, 0, 1, 0]])]),
  ("#Strings", stringHeap ["A", "B"])]

/-- No name is found for A, although it lies in no other type and its own name is there. -/
theorem fullName_unindexed : ∃ (a : Assembly) (rows : List (Row .nestedClass)),
    Module.read nestedTwice = .ok a.module ∧ Assembly.ofModule a.module = .ok a ∧
    a.module.allRows .nestedClass = .ok rows ∧ (a.module.types (Module.InsideBy rows)).Reads 1 ∧
    (a.module.types (Module.InsideBy rows)).Path 1 ["A"] () ∧
    a.fullNameAt 1 = .error (.malformed (.nestedTwice 2)) ∧ ¬a.NamedOutwards rows 1 := by
  obtain ⟨a, loaded, making, passes⟩ := Assembly.exists_read nestedTwice (fun a =>
    readsNested 2 a.module.exportedCount a &&
      (a.module.allRows .nestedClass).toOption.any (fun rows =>
        (Module.nestedPairs rows).all fun row => row.nested = 2) &&
      (a.module.types fun _ _ => False).root 1 = .ok ("A", ()) &&
      a.fullNameAt 1 = .error (.malformed (.nestedTwice 2))) (by decide +kernel)
  simp only [Bool.and_eq_true, decide_eq_true_eq, Option.any_eq_true, except_toOption_some,
    List.all_eq_true] at passes
  obtain ⟨⟨⟨reads, rows, read, second⟩, named⟩, refused⟩ := passes
  have path : (a.module.types (Module.InsideBy rows)).Path 1 ["A"] () :=
    .root (fun outer inside => by cases second _ inside) named
  refine ⟨a, rows, loaded, making, read, (reads_nested reads read).1 1 (by decide) (by decide),
    path, refused, fun outwards => ?_⟩
  obtain ⟨_, -, same⟩ := outwards.ends path.not_endless
  cases refused.symm.trans same

end CliMetadata
