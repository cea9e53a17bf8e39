import CliMetadata.Binding.Definition
import CliMetadata.Proofs.Assembly
import CliMetadata.Proofs.Table.Bisection
import Mathlib.Data.Nat.Find

set_option autoImplicit false

namespace CliMetadata

theorem exists_mapM_ok {ε α β : Type} {f : α → Except ε β} {values : List α}
    (each : ∀ v ∈ values, ∃ r, f v = .ok r) : ∃ results, values.mapM f = .ok results := by
  induction values with
  | nil => exact ⟨[], rfl⟩
  | cons v values ih =>
    obtain ⟨result, first⟩ := each v List.mem_cons_self
    obtain ⟨others, rest⟩ := ih fun other member => each other (List.mem_cons_of_mem _ member)
    exact ⟨result :: others, by rw [List.mapM_cons, first, rest]; rfl⟩

theorem of_isOk {ε α : Type} {x : Except ε α} (succeeds : x.isOk = true) :
    ∃ value, x = .ok value := by
  cases x with
  | ok value => exact ⟨value, rfl⟩
  | error e => cases succeeds

theorem of_not_isOk {ε α : Type} {x : Except ε α} (fails : x.isOk = false) :
    ∃ e, x = .error e := by
  cases x with
  | ok value => cases fails
  | error e => exact ⟨e, rfl⟩

/-- The first with a property among the `count` numbers from `start` on. -/
structure FirstFrom (p : Nat → Prop) (start count found : Nat) : Prop where
  least : start ≤ found
  within : found < start + count
  holds : p found
  first : ∀ n, start ≤ n → n < found → ¬p n

namespace FirstFrom

variable {p : Nat → Prop} {start count found other : Nat}

theorem unique (first : FirstFrom p start count found) (second : FirstFrom p start count other) :
    found = other := by
  rcases Nat.lt_trichotomy found other with less | same | greater
  · exact absurd first.holds (second.first found first.least less)
  · exact same
  · exact absurd second.holds (first.first other second.least greater)

theorem here (holds : p start) : FirstFrom p start (count + 1) start :=
  ⟨Nat.le_refl _, by omega, holds, fun n least less => absurd less (by omega)⟩

theorem behind (fails : ¬p start) (first : FirstFrom p (start + 1) count found) :
    FirstFrom p start (count + 1) found where
  least := Nat.le_of_succ_le first.least
  within := by
    have := first.within
    omega
  holds := first.holds
  first := by
    intro n least less
    rcases Nat.eq_or_lt_of_le least with rfl | later
    · exact fails
    · exact first.first n later less

theorem congr {q : Nat → Prop} (same : ∀ n, start ≤ n → n < start + count → (p n ↔ q n)) :
    FirstFrom p start count found ↔ FirstFrom q start count found := by
  refine ⟨fun first => ?_, fun first => ?_⟩
  · refine ⟨first.least, first.within, (same found first.least first.within).1 first.holds, ?_⟩
    exact fun n least less holds => first.first n least less
      ((same n least (Nat.lt_trans less first.within)).2 holds)
  · refine ⟨first.least, first.within, (same found first.least first.within).2 first.holds, ?_⟩
    exact fun n least less holds => first.first n least less
      ((same n least (Nat.lt_trans less first.within)).1 holds)

theorem exists_le {n : Nat} (least : start ≤ n) (within : n < start + count) (holds : p n) :
    ∃ found ≤ n, FirstFrom p start count found := by
  classical
  have some_ : ∃ n, start ≤ n ∧ p n := ⟨n, least, holds⟩
  have smallest : Nat.find some_ ≤ n := Nat.find_min' some_ ⟨least, holds⟩
  obtain ⟨from_, there⟩ := Nat.find_spec some_
  exact ⟨_, smallest, from_, Nat.lt_of_le_of_lt smallest within, there,
    fun _ least less holds => Nat.find_min some_ less ⟨least, holds⟩⟩

theorem tail (fails : ¬p start) (first : FirstFrom p start (count + 1) found) :
    FirstFrom p (start + 1) count found where
  least := by
    have different : start ≠ found := fun same => fails (same ▸ first.holds)
    have := first.least
    omega
  within := by
    have := first.within
    omega
  holds := first.holds
  first := fun n least less => first.first n (by omega) less

end FirstFrom

namespace Module

variable {m : Module} {nesting : Nesting}

theorem namesAround_ok {start left current : Nat} {inner names : List String}
    (ran : m.namesAround nesting start left current inner = .ok names) :
    ∃ outermost between, names = outermost :: (between ++ inner) := by
  induction left generalizing current inner with
  | zero =>
    unfold namesAround at ran
    obtain ⟨_, _, ran⟩ := except_bind_ok.1 ran
    obtain ⟨_, _, ran⟩ := except_bind_ok.1 ran
    split at ran
    · obtain ⟨nameSpace, _, ran⟩ := except_bind_ok.1 ran
      cases ran
      exact ⟨_, [], rfl⟩
    · cases ran
  | succ left ih =>
    unfold namesAround at ran
    obtain ⟨_, _, ran⟩ := except_bind_ok.1 ran
    obtain ⟨name, _, ran⟩ := except_bind_ok.1 ran
    split at ran
    · obtain ⟨nameSpace, _, ran⟩ := except_bind_ok.1 ran
      cases ran
      exact ⟨_, [], rfl⟩
    · obtain ⟨outermost, between, rfl⟩ := ih ran
      exact ⟨outermost, between ++ [name], by simp⟩

theorem slash_mem_joinNames (outer name : String) (inner : List String) :
    '/' ∈ (joinNames (outer :: name :: inner)).toList := by
  simp [joinNames]

theorem slash_mem_fullName {rid outer : Nat} {fullName : String}
    (inside : nesting.enclosing? rid = some outer) (named : m.fullName nesting rid = .ok fullName) :
    '/' ∈ fullName.toList := by
  obtain ⟨names, ran, same⟩ := except_bind_ok.1 named
  cases same
  unfold namesAround at ran
  obtain ⟨_, _, ran⟩ := except_bind_ok.1 ran
  obtain ⟨name, _, ran⟩ := except_bind_ok.1 ran
  rw [inside] at ran
  dsimp only at ran
  split at ran
  · cases ran
  · obtain ⟨outermost, between, rfl⟩ := namesAround_ok ran
    cases between <;> exact slash_mem_joinNames _ _ _

theorem fullName_outermost {rid : Nat} {row : Row .typeDef} {name nameSpace : String}
    (outermost : nesting.enclosing? rid = none) (at_ : m.rowAt .typeDef rid = .ok row)
    (named : m.string (TypeDefRow.ofRow row).name = .ok name)
    (spaced : m.string (TypeDefRow.ofRow row).nameSpace = .ok nameSpace) :
    m.fullName nesting rid = .ok (qualify nameSpace name) := by
  have found : m.namesAround nesting rid m.typeCount rid [] = .ok [qualify nameSpace name] := by
    unfold namesAround
    refine except_bind_ok.2 ⟨row, at_, except_bind_ok.2 ⟨name, named, ?_⟩⟩
    rw [outermost]
    exact except_bind_ok.2 ⟨nameSpace, spaced, rfl⟩
  exact except_bind_ok.2 ⟨_, found, by simp [joinNames, pure, Except.pure]⟩

end Module

namespace Assembly

def Names (a : Assembly) (rid : Nat) (name : String) : Prop :=
  ∃ nesting, a.module.nesting = .ok nesting ∧ a.module.fullName nesting rid = .ok name

def Defines (a : Assembly) (name : String) (rid : Nat) : Prop :=
  FirstFrom (a.Names · name) 1 a.typeCount rid

def exportedAt (a : Assembly) (rid : Nat) : Except Error (String × CodedIndex) := do
  a.module.exportedName (.ofRow (← a.module.rowAt .exportedType rid))

def ExportsAt (a : Assembly) (rid : Nat) (name : String) (implementation : CodedIndex) : Prop :=
  a.exportedAt rid = .ok (name, implementation)

def ExportsSome (a : Assembly) (name : String) (rid : Nat) : Prop :=
  ∃ implementation, a.ExportsAt rid name implementation

def ExportsNothing (a : Assembly) (rid : Nat) : Prop := ∃ e, a.exportedAt rid = .error e

def Exports (a : Assembly) (name : String) (implementation : CodedIndex) : Prop :=
  ∃ rid, FirstFrom (a.ExportsSome name) 1 a.module.exportedCount rid ∧
    a.ExportsAt rid name implementation

/-- Every row of `TypeDef`, its names and those of the types around it can be read. -/
structure NamesRead (a : Assembly) : Prop where
  nesting : ∃ nesting, a.module.nesting = .ok nesting
  rows : ∀ rid, 1 ≤ rid → rid ≤ a.typeCount → ∃ row name nameSpace,
    a.module.rowAt .typeDef rid = .ok row ∧
      a.module.string (TypeDefRow.ofRow row).name = .ok name ∧
      a.module.string (TypeDefRow.ofRow row).nameSpace = .ok nameSpace
  names : ∀ rid, 1 ≤ rid → rid ≤ a.typeCount → ∃ name, a.Names rid name

-- What the rows refer to, such as base types, is not read.
structure Decodes (a : Assembly) : Prop extends NamesRead a where
  made : ofModule a.module = .ok a
  exported : ∀ rid, 1 ≤ rid → rid ≤ a.module.exportedCount →
    ∃ name implementation, a.ExportsAt rid name implementation

variable {a : Assembly} {name : String}

theorem definition_parts {id : AssemblyId} {rid : Nat} {t : TypeDefinition}
    (gives : a.definition id rid = .ok t) : ∃ row nesting, a.module.rowAt .typeDef rid = .ok row ∧
      (a.module.kindOf (.ofRow row) a.isCoreLibrary).result = .ok t.kind ∧
      a.module.string (TypeDefRow.ofRow row).name = .ok t.name ∧
      a.module.string (TypeDefRow.ofRow row).nameSpace = .ok t.nameSpace ∧
      a.nesting = .ok nesting ∧ a.module.fullName nesting rid = .ok t.fullName ∧ t.id = ⟨id, rid⟩ ∧
      t.extends_ = (TypeDefRow.ofRow row).extends_ ∧ t.enclosing = nesting.enclosing? rid := by
  unfold definition at gives
  obtain ⟨row, at_, gives⟩ := except_bind_ok.1 gives
  obtain ⟨kind, decided, gives⟩ := except_bind_ok.1 gives
  obtain ⟨nesting, nested, gives⟩ := except_bind_ok.1 gives
  obtain ⟨name, named, gives⟩ := except_bind_ok.1 gives
  obtain ⟨nameSpace, spaced, gives⟩ := except_bind_ok.1 gives
  obtain ⟨fullName, full, gives⟩ := except_bind_ok.1 gives
  cases gives
  exact ⟨row, nesting, at_, decided, named, spaced, nested, full, rfl, rfl, rfl⟩

theorem definition_within {id : AssemblyId} {rid : Nat} {t : TypeDefinition}
    (gives : a.definition id rid = .ok t) : 1 ≤ rid ∧ rid ≤ a.typeCount := by
  obtain ⟨_, _, at_, -⟩ := definition_parts gives
  exact Module.within_of_rowAt at_

theorem definition_ok {id : AssemblyId} {rid : Nat} {t : TypeDefinition}
    (gives : a.definition id rid = .ok t) : t.id = ⟨id, rid⟩ ∧
      ∃ nesting, a.nesting = .ok nesting ∧ a.module.fullName nesting rid = .ok t.fullName := by
  obtain ⟨_, nesting, -, -, -, -, nested, named, same, -⟩ := definition_parts gives
  exact ⟨same, nesting, nested, named⟩

theorem slash_mem_of_nested {id : AssemblyId} {rid : Nat} {t : TypeDefinition}
    (gives : a.definition id rid = .ok t) (nested : t.isNested = true) :
    '/' ∈ t.fullName.toList := by
  obtain ⟨_, nesting, -, -, -, -, -, named, -, -, enclosing⟩ := definition_parts gives
  obtain ⟨outer, inside⟩ := Option.isSome_iff_exists.1 nested
  exact Module.slash_mem_fullName (enclosing.symm.trans inside) named

theorem Names.unique {rid : Nat} {name other : String} (first : a.Names rid name)
    (second : a.Names rid other) : name = other := by
  obtain ⟨nesting, nested, named⟩ := first
  obtain ⟨_, same, others⟩ := second
  cases nested.symm.trans same
  cases named.symm.trans others
  rfl

theorem Names.within {rid : Nat} (names : a.Names rid name) : 1 ≤ rid ∧ rid ≤ a.typeCount := by
  obtain ⟨_, -, named⟩ := names
  obtain ⟨_, ran, -⟩ := except_bind_ok.1 named
  unfold Module.namesAround at ran
  obtain ⟨_, at_, -⟩ := except_bind_ok.1 ran
  exact Module.within_of_rowAt at_

theorem Names.exists_defines {rid : Nat} (names : a.Names rid name) :
    ∃ least ≤ rid, a.Defines name least := by
  obtain ⟨least, most⟩ := names.within
  exact FirstFrom.exists_le least (by omega) names

theorem ExportsAt.within {rid : Nat} {implementation : CodedIndex}
    (exports : a.ExportsAt rid name implementation) : 1 ≤ rid ∧ rid ≤ a.module.exportedCount := by
  obtain ⟨_, at_, -⟩ := except_bind_ok.1 exports
  exact Module.within_of_rowAt at_

theorem ExportsAt.unique {rid : Nat} {name other : String} {implementation more : CodedIndex}
    (first : a.ExportsAt rid name implementation) (second : a.ExportsAt rid other more) :
    name = other ∧ implementation = more := by
  cases (Eq.symm first).trans second
  exact ⟨rfl, rfl⟩

theorem Exports.unique {implementation more : CodedIndex} (first : a.Exports name implementation)
    (second : a.Exports name more) : implementation = more := by
  obtain ⟨rid, found, exports⟩ := first
  obtain ⟨_, same, others⟩ := second
  cases found.unique same
  exact (exports.unique others).2

theorem typeNames_ok {nesting : Nesting} {names : List (String × Nat)}
    (nested : a.module.nesting = .ok nesting) (listed : a.module.typeNames nesting = .ok names) :
    names.length = a.typeCount ∧ ∀ (i : Nat) (inside : i < names.length),
      names[i].2 = i + 1 ∧ a.Names (i + 1) names[i].1 := by
  have each := List.forall₂_iff_get.1 (mapM_ok listed)
  refine ⟨by simpa [typeCount] using each.1.symm, fun i inside => ?_⟩
  have made := each.2 i (by simpa [← each.1] using inside) inside
  obtain ⟨n, named, same⟩ := except_bind_ok.1 made
  rw [List.get_eq_getElem, List.getElem_range] at named
  have entry : names[i] = (n, i + 1) := by simpa using (Except.ok.inj same).symm
  rw [entry]
  exact ⟨rfl, nesting, nested, named⟩

def Indexed (a : Assembly) : Prop :=
  ∃ nesting names, a.module.nesting = .ok nesting ∧ a.module.typeNames nesting = .ok names

theorem indexed_of_names (nested : ∃ nesting, a.module.nesting = .ok nesting)
    (each : ∀ rid, 1 ≤ rid → rid ≤ a.typeCount → ∃ name, a.Names rid name) : a.Indexed := by
  obtain ⟨nesting, nested⟩ := nested
  obtain ⟨names, listed⟩ : ∃ names, a.module.typeNames nesting = .ok names := by
    refine exists_mapM_ok fun i member => ?_
    obtain ⟨name, _, same, named⟩ := each (i + 1) (by omega) (List.mem_range.1 member)
    cases nested.symm.trans same
    exact ⟨(name, i + 1), by rw [named]; rfl⟩
  exact ⟨nesting, names, nested, listed⟩

section
variable (made : ofModule a.module = .ok a)
include made

theorem indexed_of_typeNamed? {rid? : Option Nat} (looked : a.typeNamed? name = .ok rid?) :
    a.Indexed := by
  obtain ⟨names, named, _⟩ := except_bind_ok.1 looked
  rw [(ofModule_eq made).2.2.1] at named
  obtain ⟨nesting, nested, listed⟩ := except_bind_ok.1 named
  exact ⟨nesting, names, nested, listed⟩

namespace Indexed

variable (indexed : a.Indexed)
include indexed

theorem typeNamed?_first (name : String) :
    (∃ rid, a.Defines name rid ∧ a.typeNamed? name = .ok (some rid)) ∨
      ((∀ rid, ¬a.Defines name rid) ∧ a.typeNamed? name = .ok none) := by
  obtain ⟨nesting, names, nested, listed⟩ := indexed
  obtain ⟨length, each⟩ := typeNames_ok nested listed
  have look : a.typeNamed? name = .ok ((names.find? (·.1 == name)).map (·.2)) := by
    rw [typeNamed?, (ofModule_eq made).2.2.1, nested, Except.bind, listed]
    rfl
  rw [look]
  cases found : names.find? (·.1 == name) with
  | none =>
    refine .inr ⟨fun rid defines => ?_, rfl⟩
    obtain ⟨i, rfl⟩ := Nat.exists_eq_add_of_le' defines.least
    have inside : i < names.length := by
      have := defines.within
      omega
    have same := (each i inside).2.unique defines.holds
    exact List.find?_eq_none.1 found names[i] (List.getElem_mem inside) (by simp [same])
  | some entry =>
    obtain ⟨passes, i, inside, rfl, earlier⟩ := List.find?_eq_some_iff_getElem.1 found
    obtain ⟨number, named⟩ := each i inside
    have same : names[i].1 = name := by simpa using passes
    refine .inl ⟨i + 1, ⟨by omega, by omega, same ▸ named, fun n least less holds => ?_⟩, ?_⟩
    · obtain ⟨j, rfl⟩ := Nat.exists_eq_add_of_le' least
      have before : j < names.length := by omega
      have fails := earlier j (by omega)
      simp [(each j before).2.unique holds] at fails
    · simp [number]

theorem typeNamed?_eq_some {rid : Nat} :
    a.typeNamed? name = .ok (some rid) ↔ a.Defines name rid := by
  rcases indexed.typeNamed?_first made name with ⟨found, defines, look⟩ | ⟨none, look⟩
  · refine ⟨fun same => ?_, fun other => by rw [look, defines.unique other]⟩
    cases look.symm.trans same
    exact defines
  · exact ⟨fun same => (nomatch look.symm.trans same), fun defines => absurd defines (none rid)⟩

theorem typeNamed?_eq_none :
    a.typeNamed? name = .ok none ↔ ∀ rid, ¬a.Defines name rid := by
  rcases indexed.typeNamed?_first made name with ⟨found, defines, look⟩ | ⟨none, look⟩
  · exact ⟨fun same => (nomatch look.symm.trans same), fun never => absurd defines (never found)⟩
  · exact ⟨fun _ => none, fun _ => look⟩

end Indexed

theorem definition_named {id : AssemblyId} {rid : Nat} {t : TypeDefinition}
    (gives : a.definition id rid = .ok t) : a.Names rid t.fullName := by
  obtain ⟨_, nesting, nested, named⟩ := definition_ok gives
  exact ⟨nesting, (ofModule_eq made).2.1 ▸ nested, named⟩

end

theorem exportedFrom_succ {view : TableView .exportedType} (name : String) (count start : Nat)
    (there : a.module.tables.view? .exportedType = some view) :
    a.module.exportedFrom view name (count + 1) start = (do
      let (found, implementation) ← a.exportedAt start
      if found = name then return some implementation
      else a.module.exportedFrom view name count (start + 1)) := by
  have got : a.module.rowAt .exportedType start = view.get? start := by
    rw [Module.rowAt, Module.row, there]
    rfl
  rw [Module.exportedFrom, exportedAt, got]
  cases view.get? start <;> rfl

theorem exportedFrom_first {view : TableView .exportedType} (name : String) (count start : Nat)
    (there : a.module.tables.view? .exportedType = some view) :
    (∃ rid, FirstFrom (fun rid => a.ExportsSome name rid ∨ a.ExportsNothing rid) start count rid ∧
        a.module.exportedFrom view name count start =
          (a.exportedAt rid).map fun found => some found.2) ∨
      ((∀ rid, ¬FirstFrom (fun rid => a.ExportsSome name rid ∨ a.ExportsNothing rid)
          start count rid) ∧ a.module.exportedFrom view name count start = .ok none) := by
  induction count generalizing start with
  | zero =>
    refine .inr ⟨fun rid first => ?_, rfl⟩
    have := first.least
    have := first.within
    omega
  | succ count ih =>
    rw [exportedFrom_succ name count start there]
    cases at_ : a.exportedAt start with
    | error e => exact .inl ⟨start, .here (.inr ⟨e, at_⟩), by rw [at_]; rfl⟩
    | ok found =>
      obtain ⟨other, implementation⟩ := found
      by_cases same : other = name
      · subst same
        refine .inl ⟨start, .here (.inl ⟨implementation, at_⟩), ?_⟩
        rw [at_]
        exact if_pos rfl
      have fails : ¬(a.ExportsSome name start ∨ a.ExportsNothing start) := by
        rintro (⟨_, others⟩ | ⟨e, failed⟩)
        · exact same (ExportsAt.unique at_ others).1
        · cases at_.symm.trans failed
      change (∃ rid, _ ∧ ite (other = name) _ _ = _) ∨ _ ∧ ite (other = name) _ _ = _
      rw [if_neg same]
      rcases ih (start + 1) with ⟨rid, first, ran⟩ | ⟨none, ran⟩
      · exact .inl ⟨rid, first.behind fails, ran⟩
      · exact .inr ⟨fun rid first => none rid (first.tail fails), ran⟩

theorem exported?_first (a : Assembly) (name : String) :
    (∃ rid, FirstFrom (fun rid => a.ExportsSome name rid ∨ a.ExportsNothing rid) 1
        a.module.exportedCount rid ∧
        a.module.exported? name = (a.exportedAt rid).map fun found => some found.2) ∨
      ((∀ rid, ¬FirstFrom (fun rid => a.ExportsSome name rid ∨ a.ExportsNothing rid) 1
          a.module.exportedCount rid) ∧ a.module.exported? name = .ok none) := by
  unfold Module.exported?
  split
  next absent =>
    have empty : a.module.exportedCount = 0 := TableStream.rows_of_absent absent
    refine .inr ⟨fun rid first => ?_, rfl⟩
    have := first.least
    have := first.within
    omega
  next view there =>
    rw [show view.count = a.module.exportedCount from TableStream.count_of_view there]
    exact exportedFrom_first name _ 1 there

theorem NamesRead.indexed (read : a.NamesRead) : a.Indexed :=
  indexed_of_names read.nesting read.names

def namesReadable (a : Assembly) : Bool :=
  a.names.isOk && (List.range a.typeCount).all fun i =>
    (a.module.rowAt .typeDef (i + 1)).toOption.any fun row =>
      (a.module.string (TypeDefRow.ofRow row).name).isOk &&
        (a.module.string (TypeDefRow.ofRow row).nameSpace).isOk

theorem NamesRead.of_readable (made : ofModule a.module = .ok a)
    (reads : a.namesReadable = true) : a.NamesRead := by
  simp only [namesReadable, Bool.and_eq_true, List.all_eq_true, List.mem_range,
    Option.any_eq_true, except_toOption_some] at reads
  obtain ⟨indexed, rows⟩ := reads
  obtain ⟨names, indexed⟩ := of_isOk indexed
  rw [(ofModule_eq made).2.2.1] at indexed
  obtain ⟨nesting, nested, listed⟩ := except_bind_ok.1 indexed
  obtain ⟨count, each⟩ := typeNames_ok nested listed
  refine ⟨⟨nesting, nested⟩, fun rid least most => ?_, fun rid least most => ?_⟩
  · obtain ⟨i, rfl⟩ := Nat.exists_eq_add_of_le' least
    obtain ⟨row, at_, named, spaced⟩ := rows i most
    obtain ⟨name, named⟩ := of_isOk named
    obtain ⟨nameSpace, spaced⟩ := of_isOk spaced
    exact ⟨row, name, nameSpace, at_, named, spaced⟩
  · obtain ⟨i, rfl⟩ := Nat.exists_eq_add_of_le' least
    exact ⟨_, (each i (by omega)).2⟩

def readable (a : Assembly) : Bool :=
  a.namesReadable &&
    (List.range a.module.exportedCount).all fun i => (a.exportedAt (i + 1)).isOk

theorem Decodes.of_readable (made : ofModule a.module = .ok a) (reads : a.readable = true) :
    a.Decodes := by
  obtain ⟨named, exported⟩ := by simpa only [readable, Bool.and_eq_true] using reads
  refine ⟨.of_readable made named, made, fun rid least most => ?_⟩
  obtain ⟨i, rfl⟩ := Nat.exists_eq_add_of_le' least
  obtain ⟨⟨name, implementation⟩, exports⟩ :=
    of_isOk (List.all_eq_true.1 exported i (List.mem_range.2 most))
  exact ⟨name, implementation, exports⟩

namespace Decodes

variable (decodes : a.Decodes)
include decodes

theorem typeNamed?_eq_some {rid : Nat} :
    a.typeNamed? name = .ok (some rid) ↔ a.Defines name rid :=
  decodes.indexed.typeNamed?_eq_some decodes.made

theorem typeNamed?_eq_none :
    a.typeNamed? name = .ok none ↔ ∀ rid, ¬a.Defines name rid :=
  decodes.indexed.typeNamed?_eq_none decodes.made

theorem exported?_first (name : String) :
    (∃ implementation, a.Exports name implementation ∧
        a.module.exported? name = .ok (some implementation)) ∨
      ((∀ implementation, ¬a.Exports name implementation) ∧
        a.module.exported? name = .ok none) := by
  have named (rid : Nat) (least : 1 ≤ rid) (within : rid < 1 + a.module.exportedCount) :
      (a.ExportsSome name rid ∨ a.ExportsNothing rid) ↔ a.ExportsSome name rid := by
    refine or_iff_left fun ⟨e, failed⟩ => ?_
    obtain ⟨_, _, reads⟩ := decodes.exported rid least (by omega)
    cases failed.symm.trans reads
  rcases Assembly.exported?_first a name with ⟨rid, first, look⟩ | ⟨none, look⟩
  · have first := (FirstFrom.congr named).1 first
    obtain ⟨implementation, exports⟩ := first.holds
    exact .inl ⟨implementation, ⟨rid, first, exports⟩, by rw [look, exports]; rfl⟩
  · exact .inr ⟨fun _ ⟨rid, first, _⟩ => none rid ((FirstFrom.congr named).2 first), look⟩

theorem exported?_eq_some {implementation : CodedIndex} :
    a.module.exported? name = .ok (some implementation) ↔ a.Exports name implementation := by
  rcases decodes.exported?_first name with ⟨found, exports, look⟩ | ⟨none, look⟩
  · refine ⟨fun same => ?_, fun other => by rw [look, exports.unique other]⟩
    cases look.symm.trans same
    exact exports
  · exact ⟨fun same => (nomatch look.symm.trans same),
      fun exports => absurd exports (none implementation)⟩

end Decodes

end Assembly

end CliMetadata
