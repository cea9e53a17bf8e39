import CliMetadata.Binding.Definition
import CliMetadata.Proofs.Hierarchy
import CliMetadata.Proofs.Table.Ownership

set_option autoImplicit false

namespace CliMetadata

def Slashless (name : String) : Prop := '/' ∉ name.toList

instance (name : String) : Decidable (Slashless name) := inferInstanceAs (Decidable (¬_))

theorem Slashless.qualify {nameSpace name : String} (spaced : Slashless nameSpace)
    (named : Slashless name) : Slashless (qualify nameSpace name) := by
  unfold CliMetadata.qualify
  split
  · exact named
  · unfold Slashless at *
    simp [spaced, named]

theorem joinNames_inj {names others : List String} (plain : ∀ name ∈ names, Slashless name)
    (plain' : ∀ name ∈ others, Slashless name) (some_ : names ≠ []) (some_' : others ≠ [])
    (same : joinNames names = joinNames others) : names = others := by
  have parts {names : List String} (plain : ∀ name ∈ names, Slashless name) (some_ : names ≠ []) :
      (joinNames names).toList.splitOn '/' = names.map String.toList := by
    have joined : (joinNames names).toList = ['/'].intercalate (names.map String.toList) := by
      simp [joinNames]
    rw [joined]
    refine List.splitOn_intercalate '/' (fun part member => ?_) (by simpa using some_)
    obtain ⟨name, inside, rfl⟩ := List.mem_map.1 member
    exact plain name inside
  have lists := (parts plain some_).symm.trans (same ▸ parts plain' some_')
  exact List.map_injective_iff.2 (fun _ _ => String.toList_inj.1) lists

namespace Assembly

/-- Everything about the types of the assembly loads, they have names of their own, in which no
slashes stand, and no other types are exported. -/
structure Plain (a : Assembly) : Prop where
  unexported : a.module.exportedCount = 0
  indexed : ∃ nesting, a.nesting = .ok nesting
  defined : ∀ id rid, 1 ≤ rid → rid ≤ a.typeCount → ∃ t, a.definition id rid = .ok t
  nested : ∀ {nesting}, a.nesting = .ok nesting → ∀ id outer, 1 ≤ outer → outer ≤ a.typeCount →
    ∀ rid ∈ nesting.nested outer, ∃ t, a.definition id rid = .ok t
  distinct : ∀ {rid other name}, a.Names rid name → a.Names other name → rid = other
  slashless : ∀ {id rid t}, a.definition id rid = .ok t → Slashless t.name ∧ Slashless t.nameSpace

theorem definition_renumbered {a : Assembly} {id : AssemblyId} {rid : Nat} {t : TypeDefinition}
    (gives : a.definition id rid = .ok t) (other : AssemblyId) :
    a.definition other rid = .ok { t with id := ⟨other, rid⟩ } := by
  unfold definition at gives ⊢
  obtain ⟨row, there, gives⟩ := except_bind_ok.1 gives
  obtain ⟨kind, decided, gives⟩ := except_bind_ok.1 gives
  obtain ⟨nesting, nested, gives⟩ := except_bind_ok.1 gives
  obtain ⟨name, named, gives⟩ := except_bind_ok.1 gives
  obtain ⟨nameSpace, spaced, gives⟩ := except_bind_ok.1 gives
  obtain ⟨fullName, full, gives⟩ := except_bind_ok.1 gives
  cases gives
  refine except_bind_ok.2 ⟨row, there, except_bind_ok.2 ⟨kind, decided, ?_⟩⟩
  refine except_bind_ok.2 ⟨nesting, nested, except_bind_ok.2 ⟨name, named, ?_⟩⟩
  exact except_bind_ok.2 ⟨nameSpace, spaced, except_bind_ok.2 ⟨fullName, full, rfl⟩⟩

theorem plain_of_definitions {a : Assembly} (made : ofModule a.module = .ok a)
    (unexported : a.module.exportedCount = 0) {nesting : Nesting} (nested : a.nesting = .ok nesting)
    (within : ∀ outer ∈ List.range' 1 a.typeCount, ∀ rid ∈ nesting.nested outer,
      rid ∈ List.range' 1 a.typeCount)
    {types : List TypeDefinition}
    (loaded : (List.range' 1 a.typeCount).mapM (a.definition ⟨0⟩) = .ok types)
    (distinct : (types.map (·.fullName)).Nodup)
    (slashless : ∀ t ∈ types, Slashless t.name ∧ Slashless t.nameSpace) : a.Plain := by
  have inside {rid : Nat} (member : rid ∈ List.range' 1 a.typeCount) :
      ∃ t ∈ types, a.definition ⟨0⟩ rid = .ok t := by
    obtain ⟨t, member, gives⟩ := exists_of_mem_right (mapM_ok loaded).flip member
    exact ⟨t, member, gives⟩
  have range {rid : Nat} (least : 1 ≤ rid) (most : rid ≤ a.typeCount) :
      rid ∈ List.range' 1 a.typeCount := List.mem_range'_1.2 (by omega)
  have defined (id : AssemblyId) {rid : Nat} (member : rid ∈ List.range' 1 a.typeCount) :
      ∃ t, a.definition id rid = .ok t := by
    obtain ⟨t, -, gives⟩ := inside member
    exact ⟨_, definition_renumbered gives id⟩
  refine ⟨unexported, ⟨nesting, nested⟩, fun id rid least most => defined id (range least most),
    fun same id outer least most rid member => ?_, fun {rid other name} names names' => ?_,
    fun {id rid t} gives => ?_⟩
  · cases nested.symm.trans same
    exact defined id (within outer (range least most) rid member)
  · obtain ⟨t, member, gives⟩ := inside (range names.within.1 names.within.2)
    obtain ⟨u, member', gives'⟩ := inside (range names'.within.1 names'.within.2)
    have same : t.fullName = u.fullName := ((definition_named made gives).unique names).trans
      ((definition_named made gives').unique names').symm
    cases List.inj_on_of_nodup_map distinct member member' same
    exact congrArg TypeId.rid ((definition_ok gives).1.symm.trans (definition_ok gives').1)
  · obtain ⟨least, most⟩ := definition_within gives
    obtain ⟨u, member, gives'⟩ := inside (range least most)
    cases gives.symm.trans (definition_renumbered gives' id)
    exact slashless u member

def Path (a : Assembly) (rid : Nat) (names : List String) : Prop :=
  ∃ nesting, a.module.nesting = .ok nesting ∧ (a.module.types nesting.Inside).Path rid names ()

variable {a : Assembly} {rid : Nat} {names : List String}

theorem names_iff_path {name : String} :
    a.Names rid name ↔ ∃ names, a.Path rid names ∧ name = joinNames names := by
  constructor
  · rintro ⟨nesting, nested, named⟩
    obtain ⟨names, path, same⟩ := Module.fullName_ok_iff.1 named
    exact ⟨names, ⟨nesting, nested, path⟩, same⟩
  · rintro ⟨names, ⟨nesting, nested, path⟩, same⟩
    exact ⟨nesting, nested, Module.fullName_ok_iff.2 ⟨names, path, same⟩⟩

theorem Path.ne_nil (path : a.Path rid names) : names ≠ [] := by
  obtain ⟨_, -, path⟩ := path
  exact path.ne_nil

theorem Path.within (path : a.Path rid names) : 1 ≤ rid ∧ rid ≤ a.typeCount :=
  (names_iff_path.2 ⟨names, path, rfl⟩).within

section
variable (made : ofModule a.module = .ok a) {nesting : Nesting} (nested : a.nesting = .ok nesting)
include made nested

theorem module_nesting : a.module.nesting = .ok nesting := (ofModule_eq made).2.1 ▸ nested

theorem path_inner {outer : Nat} {id : AssemblyId} {t : TypeDefinition}
    (inside : nesting.enclosing? rid = some outer) (gives : a.definition id rid = .ok t)
    (around : a.Path outer names) : a.Path rid (names ++ [t.name]) := by
  obtain ⟨_, same, path⟩ := around
  cases (module_nesting made nested).symm.trans same
  obtain ⟨row, _, at_, -, named, -⟩ := definition_parts gives
  exact ⟨nesting, module_nesting made nested, .inner inside (except_bind_ok.2 ⟨row, at_, named⟩)
    path⟩

theorem path_outer {id : AssemblyId} {t : TypeDefinition} {name : String}
    (path : a.Path rid (names ++ [name])) (some_ : names ≠ [])
    (gives : a.definition id rid = .ok t) : t.name = name ∧
      ∃ outer, nesting.enclosing? rid = some outer ∧ a.Path outer names := by
  obtain ⟨_, same, path⟩ := path
  cases (module_nesting made nested).symm.trans same
  obtain ⟨row, _, at_, -, named, -⟩ := definition_parts gives
  generalize whole : names ++ [name] = all at path
  cases path with
  | root _ _ =>
    cases names with
    | nil => exact absurd rfl some_
    | cons first rest =>
      have length := congrArg List.length whole
      simp at length
  | inner inside called around =>
    obtain ⟨rfl, own⟩ := List.append_inj' whole rfl
    cases own
    obtain ⟨_, same, called⟩ := except_bind_ok.1 called
    cases at_.symm.trans same
    exact ⟨Except.ok.inj (named.symm.trans called), _, inside, nesting,
      module_nesting made nested, around⟩

end

namespace Plain

variable (plain : a.Plain)
include plain

theorem path_unique {other : Nat} (path : a.Path rid names) (path' : a.Path other names) :
    rid = other :=
  plain.distinct (names_iff_path.2 ⟨names, path, rfl⟩) (names_iff_path.2 ⟨names, path', rfl⟩)

theorem slashless_path (path : a.Path rid names) : ∀ name ∈ names, Slashless name := by
  obtain ⟨nesting, nested, path⟩ := path
  have own {rid : Nat} {row : Row .typeDef} (at_ : a.module.rowAt .typeDef rid = .ok row) :
      ∃ t : TypeDefinition, a.module.string (TypeDefRow.ofRow row).name = .ok t.name ∧
        a.module.string (TypeDefRow.ofRow row).nameSpace = .ok t.nameSpace ∧
        Slashless t.name ∧ Slashless t.nameSpace := by
    obtain ⟨least, most⟩ := Module.within_of_rowAt at_
    obtain ⟨t, gives⟩ := plain.defined ⟨0⟩ rid least most
    obtain ⟨_, _, same, -, named, spaced, -⟩ := definition_parts gives
    cases at_.symm.trans same
    exact ⟨t, named, spaced, plain.slashless gives⟩
  generalize () = told at path
  induction path with
  | root _ named =>
    obtain ⟨row, at_, named⟩ := except_bind_ok.1 named
    obtain ⟨name, called, named⟩ := except_bind_ok.1 named
    obtain ⟨nameSpace, spaced, same⟩ := except_bind_ok.1 named
    cases same
    obtain ⟨t, named, spaced', first, second⟩ := own at_
    cases called.symm.trans named
    cases spaced.symm.trans spaced'
    intro name member
    obtain rfl := List.mem_singleton.1 member
    exact second.qualify first
  | inner _ named _ ih =>
    obtain ⟨row, at_, called⟩ := except_bind_ok.1 named
    obtain ⟨t, named, -, first, -⟩ := own at_
    cases called.symm.trans named
    intro name member
    rcases List.mem_append.1 member with outer | last
    · exact ih name outer
    · obtain rfl := List.mem_singleton.1 last
      exact first

theorem names_joined (parts : ∀ name ∈ names, Slashless name) (some_ : names ≠ []) :
    a.Names rid (joinNames names) ↔ a.Path rid names := by
  refine ⟨fun named => ?_, fun path => names_iff_path.2 ⟨names, path, rfl⟩⟩
  obtain ⟨others, path, same⟩ := names_iff_path.1 named
  exact joinNames_inj parts (plain.slashless_path path) some_ path.ne_nil same ▸ path

theorem indexed_names (made : ofModule a.module = .ok a) : a.Indexed := by
  obtain ⟨nesting, nested⟩ := plain.indexed
  refine indexed_of_names ⟨nesting, module_nesting made nested⟩ fun rid least most => ?_
  obtain ⟨t, gives⟩ := plain.defined ⟨0⟩ rid least most
  exact ⟨_, definition_named made gives⟩

theorem exported?_none (name : String) : a.module.exported? name = .ok none := by
  have absent : a.module.tables.view? .exportedType = none := by
    have empty : a.module.tables.rows .exportedType = 0 := plain.unexported
    simp [TableStream.view?, TableStream.has, empty]
  rw [Module.exported?, absent]

end Plain

end Assembly

end CliMetadata
