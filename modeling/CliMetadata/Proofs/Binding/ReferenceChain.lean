import CliMetadata.Proofs.Binding.Heedless
import CliMetadata.Proofs.Binding.NameIndex
import CliMetadata.Proofs.Binding.NestedTypes
import CliMetadata.Proofs.Binding.TypeReference
import CliMetadata.Proofs.PlainNames
import CliMetadata.Proofs.Storage.Image

set_option autoImplicit false

namespace CliMetadata

/-- The row lies in other rows of `TypeRef`, of which the outermost one has a scope. These are the
names on the way to it. -/
inductive Module.ReferenceChain (m : Module) : Nat → CodedIndex → List String → Prop
  | outermost {rid : Nat} {row : Row .typeRef} {name nameSpace : String}
    (at_ : m.rowAt .typeRef rid = .ok row) (outer : (TypeRefRow.ofRow row).isInner = false)
    (named : m.string (TypeRefRow.ofRow row).name = .ok name)
    (spaced : m.string (TypeRefRow.ofRow row).nameSpace = .ok nameSpace)
    (plain : Slashless name ∧ Slashless nameSpace) :
    ReferenceChain m rid (TypeRefRow.ofRow row).scope [qualify nameSpace name]
  | inner {rid : Nat} {row : Row .typeRef} {name nameSpace : String} {scope : CodedIndex}
    {names : List String} (at_ : m.rowAt .typeRef rid = .ok row)
    (inner : (TypeRefRow.ofRow row).isInner = true)
    (named : m.string (TypeRefRow.ofRow row).name = .ok name)
    (spaced : m.string (TypeRefRow.ofRow row).nameSpace = .ok nameSpace)
    (plain : Slashless name ∧ Slashless nameSpace)
    (around : ReferenceChain m (TypeRefRow.ofRow row).scope.row scope names) :
    ReferenceChain m rid scope (names ++ [name])

namespace Module.ReferenceChain

variable {m : Module} {rid : Nat} {scope : CodedIndex} {names : List String}

theorem ne_nil (chain : m.ReferenceChain rid scope names) : names ≠ [] := by
  cases chain <;> simp

theorem slashless (chain : m.ReferenceChain rid scope names) : ∀ name ∈ names, Slashless name := by
  induction chain with
  | outermost _ _ _ _ plain =>
    intro name member
    obtain rfl := List.mem_singleton.1 member
    exact plain.2.qualify plain.1
  | inner _ _ _ _ plain _ ih =>
    intro name member
    rcases List.mem_append.1 member with outer | last
    · exact ih name outer
    · obtain rfl := List.mem_singleton.1 last
      exact plain.1

theorem unique (chain : m.ReferenceChain rid scope names) {other : CodedIndex}
    {others : List String} (second : m.ReferenceChain rid other others) :
    scope = other ∧ names = others := by
  induction chain generalizing others with
  | outermost at_ outer named spaced _ =>
    cases second with
    | outermost at' _ named' spaced' _ =>
      cases at_.symm.trans at'
      cases named.symm.trans named'
      cases spaced.symm.trans spaced'
      exact ⟨rfl, rfl⟩
    | inner at' inner _ _ _ _ =>
      cases at_.symm.trans at'
      cases outer.symm.trans inner
  | inner at_ inner named _ _ _ ih =>
    cases second with
    | outermost at' outer _ _ _ =>
      cases at_.symm.trans at'
      cases outer.symm.trans inner
    | inner at' _ named' _ _ around =>
      cases at_.symm.trans at'
      cases named.symm.trans named'
      obtain ⟨rfl, rfl⟩ := ih around
      exact ⟨rfl, rfl⟩

end Module.ReferenceChain

namespace Binding

def lookInside (name : String) (around : TypeDefinition) : Binding TypeDefinition := do
  match (← around.nestedTypes).find? (·.name == name) with
  | some t => return t
  | none => throw (.typeNotFound s!"{around.fullName}/{name}")

def homeOf (a : AssemblyId) (scope : CodedIndex) : Binding AssemblyId :=
  if !scope.isNull && scope.table == .assemblyRef then reference a scope.row else pure a

section
variable {b : AssemblyId} {B : Assembly} {rid : Nat} {row : Row .typeRef} {s : Session}
  {name nameSpace : String}

theorem typeReference_eq (there : s.context.assembly? b = some B)
    (at_ : B.module.rowAt .typeRef rid = .ok row) : typeReference b rid s =
      cell (.typeRef b rid) (typeReferenceBy b B (typeReference b) rid) s := by
  have found : assembly b s = .ok B s := assembly_loaded there
  obtain ⟨least, most⟩ := Module.within_of_rowAt at_
  have inside : ¬(rid = 0 ∨ B.module.tables.rows .typeRef < rid) := by omega
  calc typeReference b rid s
      = typeReferenceWithin b (typeReference b) 1 rid s := by rw [typeReferenceWithin_typeReference]
    _ = cell (.typeRef b rid) (typeReferenceBy b B (typeReference b) rid) s := by
      rw [typeReferenceWithin, bind_after_ok found]
      dsimp only
      rw [if_neg inside]
      rfl

variable (at_ : B.module.rowAt .typeRef rid = .ok row)
  (named : B.module.string (TypeRefRow.ofRow row).name = .ok name)
  (spaced : B.module.string (TypeRefRow.ofRow row).nameSpace = .ok nameSpace)
  (outer : Nat → Binding TypeDefinition)
include at_ named spaced

theorem typeReferenceBy_outermost (alone : (TypeRefRow.ofRow row).isInner = false) :
    typeReferenceBy b B outer rid s = (homeOf b (TypeRefRow.ofRow row).scope >>= fun home =>
      requiredDefinition home (qualify nameSpace name)) s := by
  have alone : ¬((!(TypeRefRow.ofRow row).scope.isNull &&
    (TypeRefRow.ofRow row).scope.table == .typeRef) = true) := Bool.eq_false_iff.1 alone
  unfold typeReferenceBy
  rw [lift_bind_ok at_, lift_bind_ok named, lift_bind_ok spaced]
  dsimp only
  rw [if_neg alone]
  unfold homeOf
  split <;> rfl

theorem typeReferenceBy_inner (inner : (TypeRefRow.ofRow row).isInner = true) :
    typeReferenceBy b B outer rid s =
      (outer (TypeRefRow.ofRow row).scope.row >>= lookInside name) s := by
  unfold typeReferenceBy
  rw [lift_bind_ok at_, lift_bind_ok named, lift_bind_ok spaced]
  dsimp only
  exact congrFun (if_pos inner) s

end

theorem reference_held {a home target : AssemblyId} {rid : Nat} {s s' : Session}
    (value : s.value? (.reference a rid) = some home) (ran : reference a rid s = .ok target s') :
    target = home ∧ s' = s := by
  unfold reference at ran
  obtain ⟨found, between, first, ran⟩ := ok_of_bind_ok ran
  rw [assembly_eq] at first
  split at first
  next =>
    cases first
    dsimp only at ran
    split at ran
    · cases ran
    obtain ⟨_, later, fetched, ran⟩ := ok_of_bind_ok ran
    cases (cell_of_value value).symm.trans fetched
    obtain ⟨_, _, lived, same⟩ := ok_of_bind_ok ran
    cases same
    unfold liveAssembly view lift at lived
    split at lived <;> cases lived
    exact ⟨rfl, rfl⟩
  next => cases first

theorem homeOf_told {a b home : AssemblyId} {scope : CodedIndex} {s s' : Session}
    (homes : s.Homes b scope home) (ran : homeOf b scope s = .ok a s') : a = home ∧ s' = s := by
  unfold Session.Homes at homes
  unfold homeOf at ran
  split at homes
  next referenced =>
    rw [if_pos referenced] at ran
    exact reference_held homes ran
  next own =>
    rw [if_neg own] at ran
    cases ran
    exact ⟨homes.symm, rfl⟩

theorem homeOf_computing {a b : AssemblyId} {scope : CodedIndex} {s s' : Session}
    (ran : homeOf b scope s = .ok a s') {running : List Slot}
    (idle : ∀ rid, .reference b rid ∉ running) :
    homeOf b scope (s.computing running) = .ok a (s'.computing running) := by
  unfold homeOf at ran ⊢
  split at ran
  next referenced =>
    rw [if_pos referenced]
    exact reference_computing ran (idle _)
  next own =>
    rw [if_neg own]
    cases ran
    rfl

end Binding

section
variable {a : AssemblyId} {A : Assembly} (made : Assembly.ofModule A.module = .ok A)
  (plain : A.Plain)
include made plain

theorem Assembly.Plain.find_inside {nesting : Nesting} (nested : A.nesting = .ok nesting)
    {outer : Nat} {names : List String} {types : List TypeDefinition}
    (inside : A.Inside a (nesting.nested outer) types) (path : A.Path outer names)
    (name : String) :
    (∀ t, types.find? (·.name == name) = some t →
      A.definition a t.id.rid = .ok t ∧ A.Path t.id.rid (names ++ [name])) ∧
    (types.find? (·.name == name) = none → ∀ rid, ¬A.Path rid (names ++ [name])) := by
  obtain ⟨rows, -, inverse⟩ := Module.exists_inverse (module_nesting made nested)
  constructor
  · intro t found
    obtain ⟨rid, listed, gives⟩ := exists_of_mem_right inside (List.mem_of_find?_eq_some found)
    have named : t.name = name := by simpa using List.find?_some found
    have own : t.id.rid = rid := congrArg TypeId.rid (definition_ok gives).1
    subst own named
    exact ⟨gives, path_inner made nested ((inverse.listed _ _).2 listed) gives path⟩
  · intro missing rid whole
    obtain ⟨t, gives⟩ := plain.defined a rid whole.within.1 whole.within.2
    obtain ⟨named, around, encloses, further⟩ := path_outer made nested whole path.ne_nil gives
    cases plain.path_unique path further
    have listed := (inverse.listed _ _).1 encloses
    have own : t.id.rid = rid := congrArg TypeId.rid (definition_ok gives).1
    have member : t ∈ types := (inside.mem_iff (own ▸ gives)).2 (own ▸ listed)
    exact absurd (by simpa using named) (List.find?_eq_none.1 missing t member)

theorem Assembly.Plain.definitionNamed_path {r : Session} (sound : r.Sound)
    (idle : ∀ rid, .definition ⟨a, rid⟩ ∉ r.running) (there : r.context.assembly? a = some A)
    {names : List String} (parts : ∀ name ∈ names, Slashless name) (some_ : names ≠ []) :
    (∀ t : TypeDefinition, A.definition a t.id.rid = .ok t → A.Path t.id.rid names →
      ∃ r', Binding.definitionNamed a (joinNames names) r = .ok (some t) r') ∧
    ((∀ rid, ¬A.Path rid names) → Binding.definitionNamed a (joinNames names) r = .ok none r) := by
  have indexed := plain.indexed_names made
  have joined (rid : Nat) : A.Names rid (joinNames names) ↔ A.Path rid names :=
    plain.names_joined parts some_
  constructor
  · intro t gives path
    obtain ⟨least, -, defines⟩ := Names.exists_defines ((joined _).2 path)
    obtain rfl : least = t.id.rid := plain.distinct defines.holds ((joined _).2 path)
    obtain ⟨first, last⟩ := definition_within gives
    have came := (Binding.outcome_definition sound (idle _) there first last).trans gives
    have look := Binding.within_defined made indexed there Binding.maxForwards defines
    exact ⟨_, look.trans (bind_after_ok (ok_of_outcome came) _)⟩
  · intro unnamed
    have undefined (rid : Nat) (defines : A.Defines (joinNames names) rid) : False :=
      unnamed rid ((joined rid).1 defines.holds)
    have look := Binding.within_undefined made indexed there Binding.maxForwards undefined
    exact look.trans (Binding.lift_bind_ok (plain.exported?_none _) _ r)

end

def Session.OnlyReferences (s : Session) : Prop :=
  ∀ slot ∈ s.running, ∃ a rid, slot = .typeRef a rid

theorem Session.OnlyReferences.idle {s : Session} (only : s.OnlyReferences) {slot : Slot}
    (other : ∀ a rid, slot ≠ .typeRef a rid) : slot ∉ s.running := by
  intro runs
  obtain ⟨a, rid, same⟩ := only slot runs
  exact other a rid same

theorem Session.OnlyReferences.grown {s s' : Session} (only : s.OnlyReferences)
    (grows : s.Grows s') : s'.OnlyReferences := fun slot runs => only slot (grows.running ▸ runs)

namespace Ledger

open Binding

variable {a b : AssemblyId} {A B : Assembly} {r : Session} (sound : full.Sound r)
  (plain : A.Plain)
include sound plain

theorem finds_plain (there : r.context.assembly? a = some A) {fullName : String}
    {t : TypeDefinition} (finds : r.Finds a fullName t) :
    A.definition a t.id.rid = .ok t ∧ A.Names t.id.rid fullName := by
  have made := sound.context.assembly? there
  cases finds with
  | here loaded defined value =>
    cases there.symm.trans loaded
    have gives := sound.plain.definition_told there value
    have own := congrArg TypeId.rid (Assembly.definition_ok gives).1
    have defines := ((plain.indexed_names made).typeNamed?_eq_some made).1 defined
    rw [own]
    exact ⟨gives, defines.holds⟩
  | forwarded loaded _ exported _ =>
    cases there.symm.trans loaded
    cases (plain.exported?_none fullName).symm.trans exported

/-- What a chain of references comes to: the type to which the names on it are the way, or nothing
if there is none. -/
def ComesTo (a : AssemblyId) (A : Assembly) (names : List String) (x : Binding TypeDefinition)
    (r : Session) : Prop :=
  ∃ r' : Session, r'.context.assembly? a = some A ∧
    ((∃ t, x r = .ok t r' ∧ A.definition a t.id.rid = .ok t ∧ A.Path t.id.rid names) ∨
      ∃ missing, x r = .error (.typeNotFound missing) r' ∧ ∀ rid, ¬A.Path rid names)

theorem chain_told (there : r.context.assembly? b = some B) {rid : Nat} {scope : CodedIndex}
    {names : List String} (chain : B.module.ReferenceChain rid scope names) {r' : Session}
    (homed : homeOf b scope r = .ok a r') (lives : r'.liveAssembly a = .ok A) {t : TypeDefinition}
    (value : r.value? (.typeRef b rid) = some t) : r.context.assembly? a = some A ∧
      A.definition a t.id.rid = .ok t ∧ A.Path t.id.rid names := by
  induction chain generalizing t with
  | outermost at_ outer named spaced plainly =>
    obtain ⟨_, _, loaded, at', leads⟩ := sound.cells (.typeRef b _) t value
    cases there.symm.trans loaded
    cases at_.symm.trans at'
    cases leads with
    | inner inner _ _ _ _ => cases outer.symm.trans inner
    | outermost _ named' spaced' homes found =>
      cases named.symm.trans named'
      cases spaced.symm.trans spaced'
      obtain ⟨rfl, rfl⟩ := homeOf_told homes homed
      have there := Session.assembly?_of_live lives
      obtain ⟨gives, names⟩ := finds_plain sound plain there found
      refine ⟨there, gives, (plain.names_joined ?_ ?_).1 ?_⟩
      · intro name member
        obtain rfl := List.mem_singleton.1 member
        exact plainly.2.qualify plainly.1
      · simp
      · simpa [joinNames] using names
  | inner at_ inner named spaced plainly _ ih =>
    obtain ⟨_, _, loaded, at', leads⟩ := sound.cells (.typeRef b _) t value
    cases there.symm.trans loaded
    cases at_.symm.trans at'
    cases leads with
    | outermost outer _ _ _ _ => cases outer.symm.trans inner
    | @inner _ outer types _ named' around inside found =>
      cases named.symm.trans named'
      obtain ⟨home, gives, path⟩ := ih homed around
      obtain ⟨nesting, nested⟩ := plain.indexed
      have own : outer.id = ⟨a, outer.id.rid⟩ := (Assembly.definition_ok gives).1
      rw [own] at inside
      have types := nestedTypes_told sound home nested inside
      have made := sound.context.assembly? home
      exact ⟨home, (plain.find_inside made nested types path _).1 t found⟩

theorem requiredDefinition_comes (there : r.context.assembly? a = some A)
    (only : r.OnlyReferences) {fullName : String} (slashless : Slashless fullName) :
    ComesTo a A [fullName] (requiredDefinition a fullName) r := by
  have made := sound.context.assembly? there
  have parts : ∀ name ∈ [fullName], Slashless name := by simpa
  obtain ⟨finds, misses⟩ := plain.definitionNamed_path made sound.plain
    (fun _ => only.idle fun _ _ => nofun) there parts (by simp)
  have single : joinNames [fullName] = fullName := by simp [joinNames]
  rw [single] at finds misses
  by_cases some_ : ∃ rid, A.Path rid [fullName]
  next =>
    obtain ⟨rid, path⟩ := some_
    obtain ⟨t, gives⟩ := plain.defined a rid path.within.1 path.within.2
    obtain rfl : t.id.rid = rid := congrArg TypeId.rid (Assembly.definition_ok gives).1
    obtain ⟨r', looked⟩ := finds t gives path
    have follows := (ensures_definitionNamed a fullName r sound).1
    rw [after_ok looked] at follows
    exact ⟨r', follows.grows.assembly? there, .inl ⟨t, bind_after_ok looked _, gives, path⟩⟩
  next =>
    have none_ := not_exists.1 some_
    exact ⟨r, there, .inr ⟨fullName, bind_after_ok (misses none_) _, none_⟩⟩

theorem lookInside_comes (lives : r.liveAssembly a = .ok A) {outer : TypeDefinition}
    {names : List String} (gives : A.definition a outer.id.rid = .ok outer)
    (path : A.Path outer.id.rid names) (only : r.OnlyReferences) (name : String) :
    ComesTo a A (names ++ [name]) (lookInside name outer) r := by
  obtain ⟨nesting, nested⟩ := plain.indexed
  have there := Session.assembly?_of_live lives
  have made := sound.context.assembly? there
  have own : outer.id.assembly = a := congrArg TypeId.assembly (Assembly.definition_ok gives).1
  subst own
  obtain ⟨types, r', ran, follows, inside⟩ := nestedTypes_loads sound
    (only.idle fun _ _ => nofun) (fun _ => only.idle fun _ _ => nofun) lives nested
    (plain.nested nested _ _ path.within.1 path.within.2)
  obtain ⟨finds, misses⟩ := plain.find_inside made nested inside path name
  unfold lookInside
  cases found : types.find? (·.name == name) with
  | some t =>
    obtain ⟨given, whole⟩ := finds t found
    refine ⟨r', follows.grows.assembly? there, .inl ⟨t, (bind_after_ok ran _).trans ?_, given,
      whole⟩⟩
    simp only [found]
    rfl
  | none =>
    refine ⟨r', follows.grows.assembly? there, .inr ⟨s!"{outer.fullName}/{name}",
      (bind_after_ok ran _).trans ?_, misses found⟩⟩
    simp only [found]
    rfl

omit sound plain in
theorem cell_comes {rid : Nat} {names : List String} {compute : Binding TypeDefinition}
    (absent : r.value? (.typeRef b rid) = none) (idle : .typeRef b rid ∉ r.running)
    (comes : ComesTo a A names compute (r.enter (.typeRef b rid))) :
    ComesTo a A names (cell (.typeRef b rid) compute) r := by
  rcases comes with ⟨r', there, ⟨t, ran, found⟩ | ⟨missing, failed, none_⟩⟩
  · exact ⟨(r'.leave (.typeRef b rid)).store (.typeRef b rid) t, there,
      .inl ⟨t, cell_of_computed absent idle ran, found⟩⟩
  · exact ⟨r'.leave (.typeRef b rid), there,
      .inr ⟨missing, Cells.fetch_failed absent idle failed, none_⟩⟩

omit plain in
theorem homeOf_follows {scope : CodedIndex} {r' : Session} (ran : homeOf b scope r = .ok a r') :
    full.Follows r r' := by
  have safe : full.Safe (homeOf b scope) := by
    unfold homeOf
    split
    · exact safe_reference b _
    · exact .pure b
  have follows := (safe r sound).1
  rwa [after_ok ran] at follows

end Ledger

def Module.WaitsFor (m : Module) (b : AssemblyId) (length : Nat) (running : List Slot) : Prop :=
  ∀ slot ∈ running, ∃ rid scope names, slot = .typeRef b rid ∧ m.ReferenceChain rid scope names ∧
    length < names.length

namespace Module.WaitsFor

variable {m : Module} {b : AssemblyId} {names : List String} {running : List Slot} {rid : Nat}
  {scope : CodedIndex}

theorem enter (waits : m.WaitsFor b names.length running)
    (chain : m.ReferenceChain rid scope names) {less : Nat} (shorter : less < names.length) :
    m.WaitsFor b less (.typeRef b rid :: running) := by
  intro slot runs
  rcases List.mem_cons.1 runs with rfl | runs
  · exact ⟨rid, scope, names, rfl, chain, shorter⟩
  · obtain ⟨other, scope', others, same, further, longer⟩ := waits slot runs
    exact ⟨other, scope', others, same, further, Nat.lt_trans shorter longer⟩

theorem idle (waits : m.WaitsFor b names.length running)
    (chain : m.ReferenceChain rid scope names) : .typeRef b rid ∉ running := by
  intro runs
  obtain ⟨_, _, others, same, further, longer⟩ := waits _ runs
  cases same
  rw [(chain.unique further).2] at longer
  exact absurd longer (Nat.lt_irrefl _)

theorem only {length : Nat} {r : Session} (waits : m.WaitsFor b length r.running) :
    r.OnlyReferences := by
  intro slot runs
  obtain ⟨rid, _, _, same, -⟩ := waits slot runs
  exact ⟨b, rid, same⟩

end Module.WaitsFor

namespace Ledger

open Binding

variable {a b : AssemblyId} {A B : Assembly} (plain : A.Plain) {rid : Nat} {scope : CodedIndex}
  {names : List String}
include plain

theorem chain_begins {r : Session} (sound : full.Sound r)
    (there : r.context.assembly? b = some B) (chain : B.module.ReferenceChain rid scope names)
    {row : Row .typeRef} (at_ : B.module.rowAt .typeRef rid = .ok row)
    (waits : B.module.WaitsFor b names.length r.running) {r' : Session}
    (homed : homeOf b scope r = .ok a r') (lives : r'.liveAssembly a = .ok A)
    (comes : ComesTo a A names (typeReferenceBy b B (typeReference b) rid)
      (r.enter (.typeRef b rid))) : ComesTo a A names (typeReference b rid) r := by
  have same := typeReference_eq there at_
  cases present : r.value? (.typeRef b rid) with
  | some t =>
    obtain ⟨home, gives, path⟩ := chain_told sound plain there chain homed lives present
    exact ⟨r, home, .inl ⟨t, same.trans (cell_of_value present), gives, path⟩⟩
  | none =>
    have fetched := cell_comes present (waits.idle chain) comes
    unfold ComesTo at fetched ⊢
    rwa [same]

theorem chain_comes (chain : B.module.ReferenceChain rid scope names) {r r' : Session}
    (sound : full.Sound r) (there : r.context.assembly? b = some B)
    (waits : B.module.WaitsFor b names.length r.running) (homed : homeOf b scope r = .ok a r')
    (lives : r'.liveAssembly a = .ok A) : ComesTo a A names (typeReference b rid) r := by
  -- the rows around a row are followed while its own cell is being computed
  induction chain generalizing r r' with
  | @outermost rid row name nameSpace at_ outer named spaced slashless =>
    have chain := Module.ReferenceChain.outermost at_ outer named spaced slashless
    refine chain_begins plain sound there chain at_ waits homed lives ?_
    have only : Session.OnlyReferences (r.enter (.typeRef b rid)) :=
      (waits.enter chain (Nat.lt_succ_self 0)).only
    have homed : homeOf b _ (r.enter (.typeRef b rid)) = .ok a _ :=
      homeOf_computing homed fun _ => only.idle fun _ _ => nofun
    have follows := homeOf_follows (sound.enter (.typeRef b rid)) homed
    have comes := requiredDefinition_comes follows.sound plain (Session.assembly?_of_live lives)
      (only.grown follows.grows) (slashless.2.qualify slashless.1)
    unfold ComesTo at comes ⊢
    rwa [typeReferenceBy_outermost at_ named spaced _ outer, bind_after_ok homed]
  | @inner rid row name nameSpace scope names at_ inner named spaced slashless around ih =>
    have chain := Module.ReferenceChain.inner at_ inner named spaced slashless around
    refine chain_begins plain sound there chain at_ waits homed lives ?_
    have entered := sound.enter (.typeRef b rid)
    have shorter : names.length < (names ++ [name]).length := by simp
    have waits : B.module.WaitsFor b names.length (Cells.running (r.enter (.typeRef b rid))) :=
      waits.enter chain shorter
    have homed : homeOf b scope (r.enter (.typeRef b rid)) = .ok a _ :=
      homeOf_computing homed fun _ => waits.only.idle fun _ _ => nofun
    have arrived := homeOf_follows entered homed
    obtain ⟨home, living⟩ := Session.liveAssembly_iff.1 lives
    have made := arrived.sound.context.assembly? home
    unfold ComesTo
    rw [typeReferenceBy_inner at_ named spaced _ inner]
    rcases ih entered there waits homed lives with
      ⟨between, there, ⟨outer, ran, gives, path⟩ | ⟨missing, failed, none_⟩⟩
    · have follows := (ensures_typeReference b (TypeRefRow.ofRow row).scope.row _ entered).1
      rw [after_ok ran] at follows
      have lives : between.liveAssembly a = .ok A := by
        refine Session.liveAssembly_iff.2 ⟨there, ?_⟩
        rw [follows.grows.assemblyLives, ← arrived.grows.assemblyLives]
        exact living
      have comes := lookInside_comes follows.sound plain lives gives path
        (waits.only.grown follows.grows) name
      unfold ComesTo at comes
      rwa [bind_after_ok ran]
    · refine ⟨between, there, .inr ⟨missing, bind_after_error failed _, fun inner whole => ?_⟩⟩
      obtain ⟨nesting, nested⟩ := plain.indexed
      obtain ⟨t, gives⟩ := plain.defined a inner whole.within.1 whole.within.2
      obtain ⟨-, outer, -, around⟩ := Assembly.path_outer made nested whole around.ne_nil
        gives
      exact none_ outer around

end Ledger

/-- Following a chain of references comes to the same as looking up the names on it, joined. -/
theorem Session.Orderly.typeReference_chain {s s' r : Session} {a b : AssemblyId} {A B : Assembly}
    {rid : Nat} {scope : CodedIndex} {names : List String} (plain : A.Plain) (orderly : s.Orderly)
    (there : s.context.assembly? b = some B) (chain : B.module.ReferenceChain rid scope names)
    (homed : Binding.homeOf b scope s = .ok a s') (lives : s'.liveAssembly a = .ok A)
    (reached : r.Reached) (home : r.context.assembly? a = some A) :
    (∃ found? r', Binding.definitionNamed a (joinNames names) r = .ok found? r') ∧
    (∀ t, (∃ s', Binding.typeReference b rid s = .ok t s') ↔
      ∃ r', Binding.definitionNamed a (joinNames names) r = .ok (some t) r') ∧
    ((∃ missing s', Binding.typeReference b rid s = .error (.typeNotFound missing) s') ↔
      ∃ r', Binding.definitionNamed a (joinNames names) r = .ok none r') := by
  obtain ⟨sound, still⟩ := orderly.invariant
  obtain ⟨finds, misses⟩ := plain.definitionNamed_path (reached.made home) reached.sound
    (fun _ => reached.invariant.2 _ rfl) home chain.slashless chain.ne_nil
  have waits : B.module.WaitsFor b names.length s.running := by
    rw [still]
    exact fun _ runs => nomatch runs
  rcases Ledger.chain_comes plain chain sound there waits homed lives with
    ⟨s₁, -, ⟨t, ran, gives, path⟩ | ⟨missing, failed, none_⟩⟩
  · obtain ⟨r', looked⟩ := finds t gives path
    rw [ran, looked]
    refine ⟨⟨_, _, rfl⟩, fun other => ?_, ?_⟩
    · constructor <;> rintro ⟨_, same⟩ <;> cases same <;> exact ⟨_, rfl⟩
    · constructor
      · rintro ⟨_, _, same⟩
        cases same
      · rintro ⟨_, same⟩
        cases same
  · rw [failed, misses none_]
    refine ⟨⟨_, _, rfl⟩, fun other => ?_, ⟨fun _ => ⟨_, rfl⟩, fun _ => ⟨_, _, rfl⟩⟩⟩
    constructor <;> rintro ⟨_, same⟩ <;> cases same

def Module.refersTo (m : Module) (rid : Nat) (scope : CodedIndex) (name nameSpace : String) :
    Bool :=
  (m.rowAt .typeRef rid).toOption.any fun row => (TypeRefRow.ofRow row).scope = scope &&
    (m.string (TypeRefRow.ofRow row).name).toOption = some name &&
    (m.string (TypeRefRow.ofRow row).nameSpace).toOption = some nameSpace

namespace Module

variable {m : Module} {rid : Nat} {scope : CodedIndex} {name nameSpace : String}
  (refers : m.refersTo rid scope name nameSpace = true)
  (plain : Slashless name ∧ Slashless nameSpace)
include refers

theorem row_of_refersTo : ∃ row, m.rowAt .typeRef rid = .ok row ∧
    (TypeRefRow.ofRow row).scope = scope ∧ m.string (TypeRefRow.ofRow row).name = .ok name ∧
    m.string (TypeRefRow.ofRow row).nameSpace = .ok nameSpace := by
  obtain ⟨row, at_, reads⟩ := (Option.any_eq_true _ _).1 refers
  simp only [Bool.and_eq_true, decide_eq_true_eq] at reads
  exact ⟨row, except_toOption_some.1 at_, reads.1.1, except_toOption_some.1 reads.1.2,
    except_toOption_some.1 reads.2⟩

include plain

theorem outermost_of_refersTo (outer : (!scope.isNull && scope.table == .typeRef) = false) :
    m.ReferenceChain rid scope [qualify nameSpace name] := by
  obtain ⟨row, at_, rfl, named, spaced⟩ := row_of_refersTo refers
  exact .outermost at_ outer named spaced plain

theorem inner_of_refersTo (inner : (!scope.isNull && scope.table == .typeRef) = true)
    {outermost : CodedIndex} {names : List String}
    (around : m.ReferenceChain scope.row outermost names) :
    m.ReferenceChain rid outermost (names ++ [name]) := by
  obtain ⟨row, at_, rfl, named, spaced⟩ := row_of_refersTo refers
  exact .inner at_ inner named spaced plain around

end Module

/-- The metadata of an assembly with the types N.A, N.A/B, N.A/B/A and B. Rows of `TypeRef` refer to
a type A and a type B inside N.A/B. -/
def nestedNamesakes : ByteArray := image [
  ("#~", tableStream [
    (.module, [[0, 0, 0, 0, 0, 0, 0, 0, 0, 0]]),
    (.typeRef, [
      [0x0b, 0, 1, 0, 0, 0],
      [0x0f, 0, 3, 0, 0, 0],
      [4, 0, 1, 0, 5, 0],
      [0x0b, 0, 3, 0, 0, 0]]),
    (.typeDef, [
      [0, 0, 0, 0, 1, 0, 5, 0, 0, 0, 1, 0, 1, 0],
      [0, 0, 0, 0, 3, 0, 0, 0, 0, 0, 1, 0, 1, 0],
      [0, 0, 0, 0, 1, 0, 0, 0, 0, 0, 1, 0, 1, 0],
      [0, 0, 0, 0, 3, 0, 0, 0, 0, 0, 1, 0, 1, 0]]),
    (.nestedClass, [
      [2, 0, 1, 0],
      [3, 0, 2, 0]])]),
  ("#Strings", stringHeap ["A", "B", "N"])]

theorem typeReference_chain_namesakes : ∃ (s s' : Session) (a : Assembly) (scope : CodedIndex)
    (t : TypeDefinition), s.Orderly ∧ a.Plain ∧ s.context.assembly? ⟨0⟩ = some a ∧
      a.module.ReferenceChain 1 scope ["N.A", "B", "A"] ∧
      a.module.ReferenceChain 4 scope ["N.A", "B", "B"] ∧
      Binding.typeReference ⟨0⟩ 1 s = .ok t s' ∧ t.id = ⟨⟨0⟩, 3⟩ ∧ t.fullName = "N.A/B/A" ∧
      ∃ missing s'', Binding.typeReference ⟨0⟩ 4 s = .error (.typeNotFound missing) s'' := by
  obtain ⟨a, -, made, passes⟩ := Assembly.exists_read nestedNamesakes (fun a =>
    a.typeCount = 4 && a.module.exportedCount = 0 &&
    (a.nesting.toOption.any fun nesting => (List.range' 1 4).all fun outer =>
      (nesting.nested outer).all fun rid => rid ∈ List.range' 1 4) &&
    (((List.range' 1 4).mapM (a.definition ⟨0⟩)).toOption.any fun types =>
      types.map (·.fullName) = ["N.A", "N.A/B", "N.A/B/A", "B"] &&
      types.all fun t => Slashless t.name && Slashless t.nameSpace) &&
    ((a.definition ⟨0⟩ 3).toOption.any fun t => t.fullName = "N.A/B/A") &&
    a.module.refersTo 1 ⟨.typeRef, 2⟩ "A" "" && a.module.refersTo 2 ⟨.typeRef, 3⟩ "B" "" &&
    a.module.refersTo 3 ⟨.module, 1⟩ "A" "N" && a.module.refersTo 4 ⟨.typeRef, 2⟩ "B" "")
    (by decide +kernel)
  simp only [Bool.and_eq_true, decide_eq_true_eq, Option.any_eq_true, except_toOption_some,
    List.all_eq_true] at passes
  obtain ⟨⟨⟨⟨⟨⟨⟨⟨count, unexported⟩, nesting, nested, within⟩, types, loaded, names, slashless⟩,
    t, gives, called⟩, first⟩, second⟩, third⟩, fourth⟩ := passes
  have plain : a.Plain := Assembly.plain_of_definitions made unexported nested (by rwa [count])
    (by rwa [count]) (by rw [names]; decide) slashless
  have outermost := Module.outermost_of_refersTo third (by decide) (by decide)
  have middle := Module.inner_of_refersTo second (by decide) (by decide) outermost
  have chain := Module.inner_of_refersTo first (by decide) (by decide) middle
  have missing := Module.inner_of_refersTo fourth (by decide) (by decide) middle
  have there : (Session.holding a).context.assembly? ⟨0⟩ = some a := rfl
  have lives : (Session.holding a).liveAssembly ⟨0⟩ = .ok a := Session.liveAssembly_of_held rfl rfl
  have orderly := Session.orderly_holding made
  have homed : Binding.homeOf ⟨0⟩ ⟨.module, 1⟩ (Session.holding a) = .ok ⟨0⟩ _ := rfl
  have own := (Assembly.definition_ok gives).1
  have sound := orderly.reached.sound
  have idle (rid : Nat) : Slot.definition ⟨⟨0⟩, rid⟩ ∉ (Session.holding a).running :=
    List.not_mem_nil
  have path : a.Path t.id.rid ["N.A", "B", "A"] := by
    have joined : joinNames ["N.A", "B", "A"] = t.fullName := called ▸ by decide
    refine (plain.names_joined (by decide) (by decide)).1 ?_
    rw [own, joined]
    exact Assembly.definition_named made gives
  have pathless (rid : Nat) : ¬a.Path rid ["N.A", "B", "B"] := by
    intro path
    have named := (plain.names_joined (by decide) (by decide)).2 path
    have inside : rid ∈ List.range' 1 4 := by
      have bounds := named.within
      exact List.mem_range'_1.2 (by omega)
    obtain ⟨u, member, gives⟩ := exists_of_mem_right (mapM_ok loaded).flip inside
    have same := named.unique (Assembly.definition_named made gives)
    have listed : joinNames ["N.A", "B", "B"] ∈ types.map (·.fullName) :=
      List.mem_map.2 ⟨u, member, same.symm⟩
    rw [names] at listed
    exact absurd listed (by decide)
  obtain ⟨-, finds, -⟩ :=
    orderly.typeReference_chain plain there chain homed lives orderly.reached there
  obtain ⟨-, -, fails⟩ :=
    orderly.typeReference_chain plain there missing homed lives orderly.reached there
  obtain ⟨_, looked⟩ := (plain.definitionNamed_path made sound idle there chain.slashless
    chain.ne_nil).1 t (by rwa [own]) path
  have nowhere := (plain.definitionNamed_path made sound idle there missing.slashless
    missing.ne_nil).2 pathless
  obtain ⟨s', ran⟩ := (finds t).2 ⟨_, looked⟩
  exact ⟨_, s', a, _, t, orderly, plain, there, chain, missing, ran, own, called,
    fails.2 ⟨_, nowhere⟩⟩

end CliMetadata
