import CliMetadata.Proofs.Assembly
import CliMetadata.Proofs.Binding.Members
import CliMetadata.Proofs.Binding.Reached
import CliMetadata.Proofs.Storage.Image
import CliMetadata.Proofs.Table.Bisection
import Mathlib.Data.List.Sort

set_option autoImplicit false

namespace CliMetadata

section
variable {α β ε : Type} (number : α → Nat)

theorem mapM_numbered (f : α → Except ε β) (e : ε) {values : List α}
    (fine : ∀ value ∈ values, ∃ result, f value = .ok result) (start : Nat) :
    (values.zipIdx start).mapM (fun (value, position) =>
      if number value = position then f value else .error e) =
    if values.map number = List.range' start values.length then values.mapM f else .error e := by
  induction values generalizing start with
  | nil => rfl
  | cons value rest ih =>
    obtain ⟨result, first⟩ := fine value List.mem_cons_self
    rw [List.zipIdx_cons, List.mapM_cons, List.mapM_cons,
      ih (fun other member => fine other (List.mem_cons_of_mem _ member))]
    simp only [List.map_cons, List.length_cons, List.range'_succ, List.cons.injEq]
    by_cases same : number value = start
    next =>
      simp only [same, if_true, true_and, first]
      split <;> rfl
    next =>
      simp only [same, if_false, false_and]
      rfl

theorem map_mergeSort_eq_range_iff (values : List α) :
    (values.mergeSort fun a b => number a ≤ number b).map number = List.range values.length ↔
      (values.map number).Perm (List.range values.length) := by
  have sorted : ((values.mergeSort fun a b => number a ≤ number b).map number).Perm
      (values.map number) := (List.mergeSort_perm _ _).map number
  constructor
  · intro same
    exact same ▸ sorted.symm
  · intro permuted
    have rising : ((values.mergeSort fun a b => number a ≤ number b).map number).Pairwise
        (· ≤ ·) := by
      rw [List.pairwise_map]
      exact (List.pairwise_mergeSort (by grind) (by grind) values).imp (by simp)
    exact (sorted.trans permuted).eq_of_pairwise' rising List.pairwise_le_range

end

theorem Module.rowsOf_unsorted {m : Module} {t : Table} {rows : List (Row t)}
    (read : m.allRows t = .ok rows) (plain : t.keyIsFirst = false) (key : Token) :
    m.rowsOf t key = .ok (rows.filter (·.key? = some key)) := by
  unfold allRows at read
  unfold rowsOf
  split at read
  next absent =>
    cases read
    rw [absent]
    rfl
  next view there =>
    have lists := TableView.lists_of_rows read
    have all := TableView.allFrom_eq key (lists.readsFrom 0) 0
    rw [List.drop_zero, lists.length] at all
    simp only [there]
    rw [Scan.result_eq, TableView.findAll, if_neg (by simp [TableView.canBisect, plain])]
    exact outcome_ok all

def GenericParam.withoutRow (p : GenericParam) : GenericParam := { p with token := ⟨0⟩ }

namespace Module

def paramsOf (rows : List (Row .genericParam)) (owner : Token) : List GenericParamRow :=
  (rows.filter (·.key? = some owner)).map .ofRow

def describe (m : Module) (row : GenericParamRow) : Nat × Nat × Except Error String :=
  (row.number, row.flags, m.string row.name)

def paramOf (m : Module) (id : GenericOwner) (owner : Token) (level : GenericLevel) (arity : Nat)
    (row : GenericParamRow) : Except Error GenericParam := do
  let name ← m.string row.name
  return {
    id := ⟨id, row.number⟩, token := row.token, owner, level, number := row.number, name
    flags := row.flags, ownerArity := arity }

variable {m : Module} {id : GenericOwner} {owner : Token} {level : GenericLevel}

theorem paramOf_ok {arity : Nat} {row : GenericParamRow} {p : GenericParam} :
    m.paramOf id owner level arity row = .ok p ↔ ∃ name, m.string row.name = .ok name ∧ p = {
      id := ⟨id, row.number⟩, token := row.token, owner, level, number := row.number, name
      flags := row.flags, ownerArity := arity } := by
  unfold paramOf
  rw [except_bind_ok]
  constructor
  · rintro ⟨name, named, same⟩
    exact ⟨name, named, (Except.ok.inj same).symm⟩
  · rintro ⟨name, named, rfl⟩
    exact ⟨name, named, rfl⟩

theorem exists_paramOf {own : List GenericParamRow} {arity : Nat}
    (named : ∀ row ∈ own, ∃ name, m.string row.name = .ok name) :
    ∀ row ∈ own.mergeSort fun a b => a.number ≤ b.number,
      ∃ p, m.paramOf id owner level arity row = .ok p := by
  intro row member
  obtain ⟨name, named⟩ := named row (List.mem_mergeSort.1 member)
  exact ⟨_, paramOf_ok.2 ⟨name, named, rfl⟩⟩

theorem genericParams_eq (id : GenericOwner) {rows : List (Row .genericParam)}
    (owns : GenericLevel.ofOwner owner = .ok level) (read : m.allRows .genericParam = .ok rows)
    (named : ∀ row ∈ paramsOf rows owner, ∃ name, m.string row.name = .ok name) :
    m.genericParams id owner =
      if ((paramsOf rows owner).map (·.number)).Perm (List.range (paramsOf rows owner).length) then
        ((paramsOf rows owner).mergeSort fun a b => a.number ≤ b.number).mapM
          (m.paramOf id owner level (paramsOf rows owner).length)
      else .error (.malformed (.genericNumbers owner (paramsOf rows owner).length)) := by
  have found := rowsOf_unsorted read rfl owner
  have checked := mapM_numbered (·.number) (m.paramOf id owner level (paramsOf rows owner).length)
    (.malformed (.genericNumbers owner (paramsOf rows owner).length)) (exists_paramOf named) 0
  rw [List.length_mergeSort, ← List.range_eq_range'] at checked
  simp only [map_mergeSort_eq_range_iff] at checked
  rw [← checked]
  unfold genericParams
  rw [owns, found]
  refine congrArg (List.mapM · _) (funext fun (row, position) => ?_)
  dsimp only
  by_cases numbered : row.number = position
  next =>
    subst numbered
    rw [if_pos rfl, if_neg (not_not.2 rfl), paramsOf, List.length_map]
    rfl
  next =>
    rw [if_neg numbered, if_pos numbered, paramsOf, List.length_map]
    rfl

/-- The parameters of an owner stand at the places of their numbers. -/
structure Numbered (m : Module) (id : GenericOwner) (owner : Token) (level : GenericLevel)
    (own : List GenericParamRow) (params : List GenericParam) : Prop where
  numbers : (own.map (·.number)).Perm (List.range own.length)
  count : params.length = own.length
  placed : ∀ i p, params[i]? = some p ↔
    ∃ row ∈ own, row.number = i ∧ m.paramOf id owner level own.length row = .ok p

theorem numbered_of_read {own : List GenericParamRow} {params : List GenericParam}
    (numbers : (own.map (·.number)).Perm (List.range own.length))
    (read : (own.mergeSort fun a b => a.number ≤ b.number).mapM
      (m.paramOf id owner level own.length) = .ok params) :
    m.Numbered id owner level own params := by
  have places := (map_mergeSort_eq_range_iff (·.number) own).2 numbers
  generalize sorting : (own.mergeSort fun a b => a.number ≤ b.number) = sorted at read places
  obtain ⟨length, each⟩ := List.forall₂_iff_get.1 (mapM_ok read)
  have count : sorted.length = own.length := by rw [← sorting, List.length_mergeSort]
  have member (row : GenericParamRow) : row ∈ sorted ↔ row ∈ own := by
    rw [← sorting, List.mem_mergeSort]
  have number (i : Nat) (inside : i < sorted.length) : sorted[i].number = i := by
    have at_ := congrArg (·[i]?) places
    simpa [inside, count ▸ inside] using at_
  refine ⟨numbers, by omega, fun i p => ?_⟩
  constructor
  · intro here
    obtain ⟨inside, rfl⟩ := List.getElem?_eq_some_iff.1 here
    exact ⟨sorted[i], (member _).1 (List.getElem_mem _), number i (by omega),
      each i (by omega) inside⟩
  · rintro ⟨row, listed, rfl, gives⟩
    obtain ⟨i, inside, rfl⟩ := List.getElem_of_mem ((member row).2 listed)
    rw [number i inside, List.getElem?_eq_some_iff]
    exact ⟨by omega, Except.ok.inj ((each i inside (by omega)).symm.trans gives)⟩

theorem genericParams_cases (id : GenericOwner) {rows : List (Row .genericParam)}
    (owns : GenericLevel.ofOwner owner = .ok level) (read : m.allRows .genericParam = .ok rows)
    (named : ∀ row ∈ paramsOf rows owner, ∃ name, m.string row.name = .ok name) :
    (∃ params, m.genericParams id owner = .ok params ∧
        m.Numbered id owner level (paramsOf rows owner) params) ∨
      ¬((paramsOf rows owner).map (·.number)).Perm (List.range (paramsOf rows owner).length) ∧
        m.genericParams id owner =
          .error (.malformed (.genericNumbers owner (paramsOf rows owner).length)) := by
  have whole := genericParams_eq id owns read named
  by_cases numbers : ((paramsOf rows owner).map (·.number)).Perm
    (List.range (paramsOf rows owner).length)
  next =>
    rw [if_pos numbers] at whole
    obtain ⟨params, made⟩ := exists_mapM_ok (exists_paramOf named)
    exact .inl ⟨params, whole.trans made, numbered_of_read numbers made⟩
  next =>
    rw [if_neg numbers] at whole
    exact .inr ⟨numbers, whole⟩

namespace Numbered

variable {own : List GenericParamRow} {params : List GenericParam}
  (numbered : m.Numbered id owner level own params)
include numbered

theorem arity : ∀ p ∈ params, p.ownerArity = own.length := by
  intro p member
  obtain ⟨i, inside, same⟩ := List.getElem_of_mem member
  obtain ⟨row, -, -, gives⟩ := (numbered.placed i p).1 (List.getElem?_eq_some_iff.2 ⟨inside, same⟩)
  obtain ⟨_, -, rfl⟩ := paramOf_ok.1 gives
  rfl

theorem node_of_level {scope : GenericScope} (params_ : scope.params level = params) (k : Nat) :
    ((∃ node, scope.param level k = .ok node) ↔ k < own.length) ∧
    ∀ node, scope.param level k = .ok node → ∃ row ∈ own, row.number = k ∧
      ∃ p, m.paramOf id owner level own.length row = .ok p ∧ node = p.node := by
  unfold GenericScope.param
  rw [params_, ← numbered.count]
  cases here : params[k]? with
  | some p =>
    obtain ⟨inside, -⟩ := List.getElem?_eq_some_iff.1 here
    refine ⟨⟨fun _ => inside, fun _ => ⟨_, rfl⟩⟩, fun node same => ?_⟩
    cases same
    obtain ⟨row, listed, number, gives⟩ := (numbered.placed k p).1 here
    exact ⟨row, listed, number, p, numbered.count ▸ gives, rfl⟩
  | none =>
    have outside := List.getElem?_eq_none_iff.1 here
    refine ⟨⟨fun ⟨_, same⟩ => (nomatch same), fun inside => absurd inside (by omega)⟩, ?_⟩
    exact fun _ same => nomatch same

theorem reordered {m' : Module} {others : List GenericParamRow} {params' : List GenericParam}
    (numbered' : m'.Numbered id owner level others params')
    (same : (own.map m.describe).Perm (others.map m'.describe)) :
    params.map (·.withoutRow) = params'.map (·.withoutRow) := by
  have length : own.length = others.length := by simpa using same.length_eq
  refine List.ext_getElem (by simp [numbered.count, numbered'.count, length]) fun i inside _ => ?_
  rw [List.getElem_map, List.getElem_map]
  obtain ⟨row, listed, number, gives⟩ := (numbered.placed i _).1 (List.getElem?_eq_getElem _)
  obtain ⟨name, named, made⟩ := paramOf_ok.1 gives
  obtain ⟨other, listed', alike⟩ :=
    List.mem_map.1 (same.mem_iff.1 (List.mem_map.2 ⟨row, listed, rfl⟩))
  obtain ⟨number', flags, named'⟩ : other.number = row.number ∧ other.flags = row.flags ∧
    m'.string other.name = m.string row.name := by simpa [describe] using alike
  have there := (numbered'.placed i _).2 ⟨other, listed', number'.trans number,
    paramOf_ok.2 ⟨name, named'.trans named, rfl⟩⟩
  obtain ⟨_, made'⟩ := List.getElem?_eq_some_iff.1 there
  rw [made, made', number', flags, length]
  rfl

end Numbered

theorem genericParams_reordered (id : GenericOwner) {m' : Module}
    {rows others : List (Row .genericParam)}
    (owns : GenericLevel.ofOwner owner = .ok level) (read : m.allRows .genericParam = .ok rows)
    (named : ∀ row ∈ paramsOf rows owner, ∃ name, m.string row.name = .ok name)
    (read' : m'.allRows .genericParam = .ok others)
    (same : ((paramsOf rows owner).map m.describe).Perm
      ((paramsOf others owner).map m'.describe)) :
    (m.genericParams id owner).map (·.map (·.withoutRow)) =
      (m'.genericParams id owner).map (·.map (·.withoutRow)) := by
  have length : (paramsOf rows owner).length = (paramsOf others owner).length := by
    simpa using same.length_eq
  have numbers : ((paramsOf rows owner).map (·.number)).Perm
      ((paramsOf others owner).map (·.number)) := by
    simpa [List.map_map, Function.comp_def, describe] using same.map Prod.fst
  have named' : ∀ row ∈ paramsOf others owner, ∃ name, m'.string row.name = .ok name := by
    intro row listed
    obtain ⟨other, listed, alike⟩ :=
      List.mem_map.1 (same.mem_iff.2 (List.mem_map.2 ⟨row, listed, rfl⟩))
    obtain ⟨name, named⟩ := named other listed
    exact ⟨name, (congrArg (·.2.2) alike).symm.trans named⟩
  rcases genericParams_cases id owns read named with
    ⟨params, gives, numbered⟩ | ⟨wrong, failed⟩
  · rcases genericParams_cases id owns read' named' with
      ⟨params', gives', numbered'⟩ | ⟨wrong, -⟩
    · rw [gives, gives']
      exact congrArg Except.ok (numbered.reordered numbered' same)
    · exact absurd (numbers.symm.trans (length ▸ numbered.numbers)) wrong
  · rcases genericParams_cases id owns read' named' with
      ⟨_, -, numbered'⟩ | ⟨-, failed'⟩
    · exact absurd (numbers.trans (length ▸ numbered'.numbers)) wrong
    · rw [failed, failed', length]

end Module

inductive Declarer
  | type (t : TypeDefinition)
  | method (m : Method)

namespace Declarer

def id : Declarer → GenericOwner
  | type t => .type t.id
  | method m => .method m.id

def token : Declarer → Token
  | type t => t.token
  | method m => m.token

def table : Declarer → Table
  | type _ => .typeDef
  | method _ => .methodDef

def level : Declarer → GenericLevel
  | type _ => .type
  | method _ => .method

def params : Declarer → Binding (List GenericParam)
  | type t => t.genericParams
  | method m => m.genericParams

def scope : Declarer → Binding GenericScope
  | type t => t.genericScope
  | method m => m.genericScope

variable {d : Declarer}

theorem params_eq (d : Declarer) : d.params = .cell (.genericParams d.id) (do
    let assembly ← Binding.liveAssembly d.id.assembly
    Binding.lift (assembly.module.genericParams d.id d.token)) := by
  cases d <;> rfl

theorem level_of_token (owns : d.token.table? = some d.table) :
    GenericLevel.ofOwner d.token = .ok d.level := by
  unfold GenericLevel.ofOwner
  rw [owns]
  cases d <;> rfl

/-- The parameters have not been asked for, and nothing hinders it. -/
structure Unasked (d : Declarer) (s : Session) (a : Assembly) : Prop where
  lives : s.liveAssembly d.id.assembly = .ok a
  empty : s.value? (.genericParams d.id) = none
  idle : .genericParams d.id ∉ s.running

theorem Unasked.outcome {s : Session} {a : Assembly} (unasked : d.Unasked s a) :
    outcome d.params s = a.module.genericParams d.id d.token := by
  have living : Binding.liveAssembly d.id.assembly (s.enter (.genericParams d.id)) =
    .ok a (s.enter (.genericParams d.id)) := Binding.liveAssembly_live unasked.lives
  have computes := bind_after_ok living fun assembly =>
    Binding.lift (assembly.module.genericParams d.id d.token)
  rw [params_eq]
  cases gives : a.module.genericParams d.id d.token with
  | ok params =>
    exact outcome_ok (Binding.cell_of_unchanged unasked.empty unasked.idle
      (computes.trans (by rw [gives]; rfl)))
  | error e =>
    exact outcome_error (Cells.fetch_failed unasked.empty unasked.idle
      (computes.trans (by rw [gives]; rfl)))

theorem scope_of_params {s s' later later' : Session} {params : List GenericParam}
    {scope : GenericScope} (ran : d.params s = .ok params s') (grown : s'.Grows later)
    (given : d.scope later = .ok scope later') : scope.params d.level = params := by
  cases d with
  | type t =>
    obtain ⟨_, _, again, same⟩ := ok_of_bind_ok given
    cases same
    cases (t.settles_genericParams.again ran grown).symm.trans again
    rfl
  | method m =>
    obtain ⟨t, _, found, given⟩ := ok_of_bind_ok given
    obtain ⟨_, _, around, given⟩ := ok_of_bind_ok given
    obtain ⟨_, _, again, same⟩ := ok_of_bind_ok given
    cases same
    have onward := ((Binding.settles_declaringType _).growing found).trans
      (t.settles_genericParams.growing around)
    cases (m.settles_genericParams.again ran (grown.trans onward)).symm.trans again
    rfl

/-- What the rows of an owner come to. -/
structure Numbers (d : Declarer) (s : Session) (a : Assembly) (own : List GenericParamRow) :
    Prop where
  loads : (∃ params s', d.params s = .ok params s') ↔
    (own.map (·.number)).Perm (List.range own.length)
  fails : ¬(own.map (·.number)).Perm (List.range own.length) →
    ∃ s', d.params s = .error (.malformed (.genericNumbers d.token own.length)) s'
  placed : ∀ {params s'}, d.params s = .ok params s' → params.length = own.length ∧
    ∀ i p, params[i]? = some p ↔ ∃ row ∈ own, row.number = i ∧
      a.module.paramOf d.id d.token d.level own.length row = .ok p
  arity : ∀ {params s'}, d.params s = .ok params s' → ∀ p ∈ params, p.ownerArity = own.length
  inScope : ∀ {params s' later scope later'}, d.params s = .ok params s' → s'.Grows later →
    d.scope later = .ok scope later' → ∀ k,
      ((∃ node, scope.param d.level k = .ok node) ↔ k < own.length) ∧
      ∀ node, scope.param d.level k = .ok node → ∃ row ∈ own, row.number = k ∧
        ∃ p, a.module.paramOf d.id d.token d.level own.length row = .ok p ∧ node = p.node
  reordered : ∀ {r b others}, d.Unasked r b → b.module.allRows .genericParam = .ok others →
    (own.map a.module.describe).Perm
      ((Module.paramsOf others d.token).map b.module.describe) →
    (outcome d.params s).map (·.map (·.withoutRow)) =
      (outcome d.params r).map (·.map (·.withoutRow))

section
variable {s : Session} {a : Assembly} {rows : List (Row .genericParam)} (unasked : d.Unasked s a)
  (owns : d.token.table? = some d.table) (read : a.module.allRows .genericParam = .ok rows)
  (named : ∀ row ∈ Module.paramsOf rows d.token, ∃ name, a.module.string row.name = .ok name)
include unasked owns read named

theorem params_cases :
    (∃ params, outcome d.params s = .ok params ∧
        a.module.Numbered d.id d.token d.level (Module.paramsOf rows d.token) params) ∨
      ¬((Module.paramsOf rows d.token).map (·.number)).Perm
          (List.range (Module.paramsOf rows d.token).length) ∧
        outcome d.params s =
          .error (.malformed (.genericNumbers d.token (Module.paramsOf rows d.token).length)) := by
  rw [unasked.outcome]
  exact Module.genericParams_cases d.id (level_of_token owns) read named

theorem numbered_of_params {params : List GenericParam} {s' : Session}
    (ran : d.params s = .ok params s') :
    a.module.Numbered d.id d.token d.level (Module.paramsOf rows d.token) params := by
  have came := outcome_ok ran
  rcases params_cases unasked owns read named with ⟨_, same, numbered⟩ | ⟨-, failed⟩
  · cases came.symm.trans same
    exact numbered
  · cases came.symm.trans failed

/-- An owner has parameters exactly if the numbers in its rows are those from zero on, wherever the
rows stand, and then each has the place of its number. -/
theorem params_numbered : d.Numbers s a (Module.paramsOf rows d.token) where
  loads := by
    refine ⟨fun ⟨_, _, ran⟩ => (numbered_of_params unasked owns read named ran).numbers,
      fun numbers => ?_⟩
    rcases params_cases unasked owns read named with ⟨_, came, -⟩ | ⟨wrong, -⟩
    · exact ⟨_, _, ok_of_outcome came⟩
    · exact absurd numbers wrong
  fails wrong := by
    rcases params_cases unasked owns read named with ⟨_, -, numbered⟩ | ⟨-, failed⟩
    · exact absurd numbered.numbers wrong
    · exact ⟨_, error_of_outcome failed⟩
  placed ran := by
    have numbered := numbered_of_params unasked owns read named ran
    exact ⟨numbered.count, numbered.placed⟩
  arity ran := (numbered_of_params unasked owns read named ran).arity
  inScope ran grown given :=
    (numbered_of_params unasked owns read named ran).node_of_level
      (scope_of_params ran grown given)
  reordered again read' same := by
    rw [unasked.outcome, again.outcome]
    exact Module.genericParams_reordered d.id (level_of_token owns) read named read' same

end

end Declarer

/-- The metadata of an assembly with the types L and M. The rows of `GenericParam` are those of L,
with the numbers 2, 0 and 1, and between them those of M, with the numbers 0 and 2. -/
def scatteredParams : ByteArray := image [
  ("#~", tableStream [
    (.module, [[0, 0, 0, 0, 0, 0, 0, 0, 0, 0]]),
    (.typeDef, [
      [0, 0, 0, 0, 1, 0, 0, 0, 0, 0, 1, 0, 1, 0],
      [0, 0, 0, 0, 3, 0, 0, 0, 0, 0, 1, 0, 1, 0]]),
    (.genericParam, [
      [2, 0, 0, 0, 2, 0, 9, 0],
      [0, 0, 0, 0, 4, 0, 5, 0],
      [0, 0, 0, 0, 2, 0, 5, 0],
      [1, 0, 0, 0, 2, 0, 7, 0],
      [2, 0, 0, 0, 4, 0, 9, 0]])]),
  ("#Strings", stringHeap ["L", "M", "A", "B", "C"])]

theorem params_numbered_scattered : ∃ (s s' s'' : Session) (a : Assembly) (d e : Declarer)
    (rows : List (Row .genericParam)) (params : List GenericParam),
    d.Unasked s a ∧ e.Unasked s a ∧ a.module.allRows .genericParam = .ok rows ∧
      (Module.paramsOf rows d.token).map (·.number) = [2, 0, 1] ∧
      d.params s = .ok params s' ∧ params.length = 3 ∧
      (∀ i name, (i, some name) ∈ [(2, some "C"), (0, some "A"), (1, some "B")] →
        params[i]?.map (·.name) = some name) ∧
      (Module.paramsOf rows e.token).map (·.number) = [0, 2] ∧
      e.params s = .error (.malformed (.genericNumbers e.token 2)) s'' := by
  obtain ⟨a, -, made, passes⟩ := Assembly.exists_read scatteredParams (fun a =>
    ((a.definition ⟨0⟩ 1).toOption.any fun t => t.token = ⟨0x02000001⟩) &&
    ((a.definition ⟨0⟩ 2).toOption.any fun t => t.token = ⟨0x02000002⟩) &&
    (a.module.allRows .genericParam).toOption.any fun rows =>
      (Module.paramsOf rows ⟨0x02000001⟩).map (fun row =>
        (row.number, (a.module.string row.name).toOption)) =
        [(2, some "C"), (0, some "A"), (1, some "B")] &&
      (Module.paramsOf rows ⟨0x02000002⟩).map (fun row =>
        (row.number, (a.module.string row.name).toOption)) = [(0, some "A"), (2, some "C")])
    (by decide +kernel)
  simp only [Bool.and_eq_true, decide_eq_true_eq, Option.any_eq_true, except_toOption_some]
    at passes
  obtain ⟨⟨⟨t, gives, token⟩, u, gives', token'⟩, rows, read, listed, listed'⟩ := passes
  have lives : (Session.holding a).liveAssembly ⟨0⟩ = .ok a := Session.liveAssembly_of_held rfl rfl
  have own := (Assembly.definition_ok gives).1
  have own' := (Assembly.definition_ok gives').1
  have unasked : (Declarer.type t).Unasked (Session.holding a) a :=
    ⟨by rwa [Declarer.id, own], by simp, List.not_mem_nil⟩
  have unasked' : (Declarer.type u).Unasked (Session.holding a) a :=
    ⟨by rwa [Declarer.id, own'], by simp, List.not_mem_nil⟩
  have named {owner : Token} {pairs : List (Nat × Option String)}
      (listed : (Module.paramsOf rows owner).map (fun row =>
        (row.number, (a.module.string row.name).toOption)) = pairs)
      (known : ∀ pair ∈ pairs, pair.2.isSome = true) :
      (Module.paramsOf rows owner).map (·.number) = pairs.map (·.1) ∧
        ∀ row ∈ Module.paramsOf rows owner, ∃ name, a.module.string row.name = .ok name := by
    subst listed
    refine ⟨by simp [Function.comp_def], fun row member => ?_⟩
    obtain ⟨name, same⟩ := Option.isSome_iff_exists.1 (known _ (List.mem_map.2 ⟨row, member, rfl⟩))
    exact ⟨name, except_toOption_some.1 same⟩
  obtain ⟨numbers, names⟩ := named listed (by decide)
  obtain ⟨numbers', names'⟩ := named listed' (by decide)
  rw [← token] at listed numbers names
  rw [← token'] at numbers' names'
  have loaded := Declarer.params_numbered unasked (by rw [Declarer.token, token]; rfl) read names
  have refused := Declarer.params_numbered unasked' (by rw [Declarer.token, token']; rfl) read
    names'
  have length : (Module.paramsOf rows t.token).length = 3 := by
    simpa using congrArg List.length numbers
  have length' : (Module.paramsOf rows u.token).length = 2 := by
    simpa using congrArg List.length numbers'
  obtain ⟨params, s', ran⟩ := loaded.loads.2 (by
    rw [Declarer.token, numbers, length]
    decide)
  obtain ⟨s'', failed⟩ := refused.fails (by
    rw [Declarer.token, numbers', length']
    decide)
  obtain ⟨count, placed⟩ := loaded.placed ran
  refine ⟨_, s', s'', a, .type t, .type u, rows, params, unasked, unasked', read, numbers, ran,
    count.trans length, fun i name member => ?_, numbers', ?_⟩
  · rw [← listed] at member
    obtain ⟨row, inside, same⟩ := List.mem_map.1 member
    obtain ⟨number, called⟩ := Prod.mk.inj same
    have here := (placed i _).2 ⟨row, inside, number,
      Module.paramOf_ok.2 ⟨name, except_toOption_some.1 called, rfl⟩⟩
    rw [here]
    rfl
  · rwa [Declarer.token, length'] at failed

end CliMetadata
