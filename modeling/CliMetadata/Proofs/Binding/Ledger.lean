import CliMetadata.Binding.Inheritance
import CliMetadata.Binding.Members
import CliMetadata.Proofs.Binding.Arity
import Mathlib.Data.List.Forall2

/-!
What may stand in the cells of a session. The tables of the assemblies and the other cells tell what
belongs into a cell. A ledger may ask less of a value, but it accepts whatever they tell, and once
it has accepted a value it goes on doing so. Computations keep to a ledger however they end.
-/

set_option autoImplicit false

namespace CliMetadata

def TypeRefRow.isInner (row : TypeRefRow) : Bool :=
  !row.scope.isNull && row.scope.table == .typeRef

/-- The cells that nothing but the requests of a client fills. -/
def Slot.isTold : Slot → Bool
  | .definition _ | .primitive .. | .typeRef .. | .base _ | .methods _ => true
  | _ => false

namespace Session

structure Gains (s s' : Session) : Prop where
  values : s.Retains s'
  context : s.context.Grows s'.context

theorem Grows.gains {s s' : Session} (grows : s.Grows s') : s.Gains s' :=
  ⟨grows.values, grows.context⟩

theorem Gains.assembly? {s s' : Session} (gains : s.Gains s') {id : AssemblyId} {a : Assembly}
    (there : s.context.assembly? id = some a) : s'.context.assembly? id = some a :=
  gains.context.toExtends.assembly? there

theorem gains_enter (s : Session) (slot : Slot) : s.Gains (s.enter slot) :=
  ⟨fun _ _ there => there, .refl _⟩

theorem gains_leave (s : Session) (slot : Slot) : s.Gains (s.leave slot) :=
  ⟨fun _ _ there => there, .refl _⟩

/-- The definition with a full name: in the assembly, or where it hands the name on. -/
inductive Finds (s : Session) : AssemblyId → String → TypeDefinition → Prop
  | here {a : AssemblyId} {assembly : Assembly} {fullName : String} {rid : Nat} {t : TypeDefinition}
    (there : s.context.assembly? a = some assembly)
    (defined : assembly.typeNamed? fullName = .ok (some rid))
    (value : s.value? (.definition ⟨a, rid⟩) = some t) : Finds s a fullName t
  | forwarded {a target : AssemblyId} {assembly : Assembly} {fullName : String}
    {implementation : CodedIndex} {t : TypeDefinition}
    (there : s.context.assembly? a = some assembly)
    (undefined : assembly.typeNamed? fullName = .ok none)
    (exported : assembly.module.exported? fullName = .ok (some implementation))
    (found : Finds s target fullName t) : Finds s a fullName t

inductive Denotes (s : Session) (a : AssemblyId) (token : Token) (t : TypeDefinition) : Prop
  | definition (table : token.table? = some .typeDef)
    (value : s.value? (.definition ⟨a, token.row⟩) = some t)
  | reference (table : token.table? = some .typeRef)
    (value : s.value? (.typeRef a token.row) = some t)

inductive Names (s : Session) (a : AssemblyId) (token : Token) : Option TypeNode → Prop
  | null (null : token.isNull || token.row == 0) : Names s a token none
  | bound {t : TypeDefinition} (args : List TypeNode) (denotes : s.Denotes a token t) :
    Names s a token (some (.bound t.kind t.id args))
  | spelled (node : TypeNode) (table : token.table? = some .typeSpec) : Names s a token (some node)

inductive Derives (s : Session) (t : TypeDefinition) : Option BoundType → Prop
  | root (null : t.extends_.isNull) : Derives s t none
  | base {b? : Option BoundType}
    (names : s.Names t.id.assembly t.extends_.token (b?.map (·.node))) : Derives s t b?

def Homes (s : Session) (a : AssemblyId) (scope : CodedIndex) (home : AssemblyId) : Prop :=
  if !scope.isNull && scope.table == .assemblyRef then
    s.value? (.reference a scope.row) = some home
  else home = a

inductive Leads (s : Session) (a : AssemblyId) (assembly : Assembly) (row : TypeRefRow)
    (t : TypeDefinition) : Prop
  | outermost {name nameSpace : String} {home : AssemblyId} (outer : row.isInner = false)
    (named : assembly.module.string row.name = .ok name)
    (spaced : assembly.module.string row.nameSpace = .ok nameSpace)
    (homes : s.Homes a row.scope home) (found : s.Finds home (qualify nameSpace name) t)
  | inner {name : String} {outer : TypeDefinition} {types : List TypeDefinition}
    (inner : row.isInner = true) (named : assembly.module.string row.name = .ok name)
    (around : s.value? (.typeRef a row.scope.row) = some outer)
    (inside : s.value? (.nestedTypes outer.id) = some types)
    (found : types.find? (·.name == name) = some t)

/-- What the tables and the other cells tell about a cell. -/
def Tells (s : Session) : (slot : Slot) → slot.Value → Prop
  | .definition id, t => ∃ a, s.context.assembly? id.assembly = some a ∧
      a.definition id.assembly id.rid = .ok t
  | .primitive .., node => ∃ t : TypeDefinition, s.HasArity t.id 0 ∧ node = .bound t.kind t.id []
  | .typeRef a rid, t => ∃ assembly row, s.context.assembly? a = some assembly ∧
      assembly.module.rowAt .typeRef rid = .ok row ∧ s.Leads a assembly (.ofRow row) t
  | .nestedTypes id, types => ∃ a nesting, s.context.assembly? id.assembly = some a ∧
      a.nesting = .ok nesting ∧ List.Forall₂ (fun rid t =>
        s.value? (.definition ⟨id.assembly, rid⟩) = some t) (nesting.nested id.rid) types
  | .base id, b? => ∃ t, s.value? (.definition id) = some t ∧ s.Derives t b?
  | .methods id, methods => ∃ a t, s.context.assembly? id.assembly = some a ∧ t.id = id ∧
      a.methods t = .ok methods
  | _, _ => True

section
variable {s s' : Session} (gains : s.Gains s')
include gains

theorem Finds.gained {a : AssemblyId} {fullName : String} {t : TypeDefinition}
    (finds : s.Finds a fullName t) : s'.Finds a fullName t := by
  induction finds with
  | here there defined value => exact .here (gains.assembly? there) defined (gains.values _ _ value)
  | forwarded there undefined exported _ ih =>
    exact .forwarded (gains.assembly? there) undefined exported ih

theorem Denotes.gained {a : AssemblyId} {token : Token} {t : TypeDefinition}
    (denotes : s.Denotes a token t) : s'.Denotes a token t := by
  cases denotes with
  | definition table value => exact .definition table (gains.values _ _ value)
  | reference table value => exact .reference table (gains.values _ _ value)

theorem Names.gained {a : AssemblyId} {token : Token} {node? : Option TypeNode}
    (names : s.Names a token node?) : s'.Names a token node? := by
  cases names with
  | null null => exact .null null
  | bound args denotes => exact .bound args (denotes.gained gains)
  | spelled node table => exact .spelled node table

theorem Derives.gained {t : TypeDefinition} {b? : Option BoundType} (derives : s.Derives t b?) :
    s'.Derives t b? := by
  cases derives with
  | root null => exact .root null
  | base names => exact .base (names.gained gains)

theorem Homes.gained {a : AssemblyId} {scope : CodedIndex} {home : AssemblyId}
    (homes : s.Homes a scope home) : s'.Homes a scope home := by
  unfold Homes at homes ⊢
  split at homes
  next referenced =>
    rw [if_pos referenced]
    exact gains.values _ _ homes
  next own =>
    rw [if_neg own]
    exact homes

theorem Leads.gained {a : AssemblyId} {assembly : Assembly} {row : TypeRefRow} {t : TypeDefinition}
    (leads : s.Leads a assembly row t) : s'.Leads a assembly row t := by
  cases leads with
  | outermost outer named spaced homes found =>
    exact .outermost outer named spaced (homes.gained gains) (found.gained gains)
  | inner inner named around inside found =>
    exact .inner inner named (gains.values _ _ around) (gains.values _ _ inside) found

theorem Tells.gained {slot : Slot} {value : slot.Value} (tells : s.Tells slot value) :
    s'.Tells slot value := by
  cases slot with
  | definition id =>
    obtain ⟨a, there, gives⟩ := tells
    exact ⟨a, gains.assembly? there, gives⟩
  | primitive a p =>
    obtain ⟨t, has, same⟩ := tells
    exact ⟨t, has.retained gains.values, same⟩
  | typeRef a rid =>
    obtain ⟨assembly, row, there, at_, leads⟩ := tells
    exact ⟨assembly, row, gains.assembly? there, at_, leads.gained gains⟩
  | nestedTypes id =>
    obtain ⟨a, nesting, there, indexed, each⟩ := tells
    exact ⟨a, nesting, gains.assembly? there, indexed,
      each.imp fun _ _ value => gains.values _ _ value⟩
  | base id =>
    obtain ⟨t, value, derives⟩ := tells
    exact ⟨t, gains.values _ _ value, derives.gained gains⟩
  | methods id =>
    obtain ⟨a, t, there, same, gives⟩ := tells
    exact ⟨a, t, gains.assembly? there, same, gives⟩
  | _ => trivial

end

end Session

structure Ledger where
  Allows : LoadContext → Prop
  Holds : Session → (slot : Slot) → slot.Value → Prop
  kept : Loading.Kept fun c c' => Allows c → Allows c'
  gained : ∀ {s s' : Session}, s.Gains s' → ∀ {slot : Slot} {value : slot.Value},
    Holds s slot value → Holds s' slot value
  told : ∀ {s : Session} {slot : Slot} {value : slot.Value}, s.Tells slot value →
    Holds s slot value

namespace Ledger

def full : Ledger where
  Allows := LoadContext.Made
  Holds := Session.Tells
  kept := Loading.kept_made
  gained := Session.Tells.gained
  told tells := tells

def strict : Ledger where
  Allows := LoadContext.Made
  Holds s slot value := slot.isTold = true → s.Tells slot value
  kept := Loading.kept_made
  gained gains _ _ holds told := Session.Tells.gained gains (holds told)
  told tells _ := tells

variable (L : Ledger)

structure Sound (s : Session) : Prop where
  context : L.Allows s.context
  cells : ∀ slot value, s.value? slot = some value → L.Holds s slot value

/-- The second session has all of the first and is in order. A cell that is being computed stays
empty until its value is there. -/
structure Follows (s s' : Session) : Prop where
  grows : s.Grows s'
  waiting : ∀ slot ∈ s.running, s.value? slot = none → s'.value? slot = none
  sound : L.Sound s'

/-- From a session that is in order the computation leads to another one, also if it fails, and what
it gives is as `post` says. -/
def Ensures {α : Type} (x : Binding α) (s : Session) (post : α → Session → Prop) : Prop :=
  L.Sound s → L.Follows s (after x s) ∧ ∀ value s', x s = .ok value s' → post value s'

def Safe {α : Type} (x : Binding α) : Prop := ∀ s, L.Ensures x s fun _ _ => True

variable {L}

theorem Sound.enter {s : Session} (sound : L.Sound s) (slot : Slot) : L.Sound (s.enter slot) :=
  ⟨sound.context, fun other v there => L.gained (s.gains_enter slot) (sound.cells other v there)⟩

namespace Follows

variable {s s' s'' : Session}

theorem refl (sound : L.Sound s) : L.Follows s s :=
  ⟨.refl s, fun _ _ empty => empty, sound⟩

theorem advances (follows : L.Follows s s') : Cells.Advances s s' :=
  ⟨follows.grows.values, follows.grows.running, follows.waiting⟩

theorem of_advances (advances : Cells.Advances s s') (context : s.context.Grows s'.context)
    (client : s'.client = s.client) (sound : L.Sound s') : L.Follows s s' :=
  ⟨⟨advances.values, advances.running, context, client⟩, advances.waiting, sound⟩

theorem trans (first : L.Follows s s') (second : L.Follows s' s'') : L.Follows s s'' where
  grows := first.grows.trans second.grows
  waiting := fun slot runs empty =>
    second.waiting slot (first.grows.running ▸ runs) (first.waiting slot runs empty)
  sound := second.sound

theorem leave {slot : Slot} (follows : L.Follows (s.enter slot) s') : L.Follows s (s'.leave slot) :=
  .of_advances follows.advances.leave follows.grows.context follows.grows.client
    ⟨follows.sound.context, fun other v there => L.gained (s'.gains_leave slot)
      (follows.sound.cells other v there)⟩

theorem store {slot : Slot} {value : slot.Value} (follows : L.Follows (s.enter slot) s')
    (absent : s.value? slot = none) (idle : slot ∉ s.running) (holds : L.Holds s' slot value) :
    L.Follows s ((s'.leave slot).store slot value) := by
  have stored := follows.advances.store absent idle value
  refine .of_advances stored follows.grows.context follows.grows.client
    ⟨follows.sound.context, fun other v there => ?_⟩
  have empty : s'.value? slot = none := follows.waiting slot List.mem_cons_self absent
  have gains : Session.Gains s' ((s'.leave slot).store slot value) :=
    ⟨fun _ _ there => Cells.value?_store_kept empty value there, .refl _⟩
  by_cases same : slot = other
  next =>
    subst same
    obtain rfl : value = v := by simpa using there
    exact L.gained gains holds
  next =>
    have before : s'.value? other = some v := by simpa [same] using there
    exact L.gained gains (follows.sound.cells other v before)

end Follows

section
variable {α β : Type} {x : Binding α} {s : Session} {post : α → Session → Prop}

theorem Ensures.weaken {other : α → Session → Prop} (leads : L.Ensures x s post)
    (implies : ∀ value s', L.Follows s s' → post value s' → other value s') :
    L.Ensures x s other := by
  intro sound
  obtain ⟨follows, gives⟩ := leads sound
  exact ⟨follows, fun value s' ran =>
    implies value s' (after_ok ran ▸ follows) (gives value s' ran)⟩

theorem Safe.of_ensures {post : Session → α → Session → Prop}
    (leads : ∀ s, L.Ensures x s (post s)) : L.Safe x :=
  fun s => (leads s).weaken fun _ _ _ _ => trivial

theorem Ensures.bind {f : α → Binding β} {mid : β → Session → Prop} (first : L.Ensures x s post)
    (next : ∀ value s', s.Grows s' → post value s' → L.Ensures (f value) s' mid) :
    L.Ensures (x >>= f) s mid := by
  intro sound
  obtain ⟨follows, gives⟩ := first sound
  cases ran : x s with
  | ok value s' =>
    rw [after_ok ran] at follows
    obtain ⟨onward, result⟩ := next value s' follows.grows (gives value s' ran) follows.sound
    have same := bind_after_ok ran f
    refine ⟨?_, fun v s'' went => result v s'' (same ▸ went)⟩
    rw [after_congr same]
    exact follows.trans onward
  | error e s' =>
    rw [after_error ran] at follows
    have same := bind_after_error ran f
    refine ⟨by rwa [after_error same], fun v s'' went => ?_⟩
    rw [same] at went
    cases went

theorem ensures_pure {value : α} (holds : post value s) : L.Ensures (pure value) s post := by
  intro sound
  refine ⟨.refl sound, fun v s' ran => ?_⟩
  cases ran
  exact holds

theorem ensures_throw (e : Error) : L.Ensures (throw e) s post :=
  fun sound => ⟨.refl sound, fun _ _ => nofun⟩

theorem ensures_thrown (e : Error) {f : α → Binding β} {post : β → Session → Prop} :
    L.Ensures (MonadExcept.throw e >>= f) s post :=
  fun sound => ⟨.refl sound, fun _ _ => nofun⟩

theorem ensures_view (f : Session → Except Error α) :
    L.Ensures (Binding.view f) s fun value s' => s' = s ∧ f s = .ok value := by
  intro sound
  unfold Binding.view Binding.lift
  cases seen : f s with
  | ok value =>
    refine ⟨?_, fun v s' ran => ?_⟩
    · simpa only [after, seen] using Follows.refl sound
    · cases ran
      exact ⟨rfl, rfl⟩
  | error e =>
    refine ⟨?_, fun v s' ran => ?_⟩
    · simpa only [after, seen] using Follows.refl sound
    · cases ran

theorem ensures_lift (result : Except Error α) :
    L.Ensures (Binding.lift result) s fun value s' => s' = s ∧ result = .ok value :=
  ensures_view fun _ => result

theorem ensures_get {f : Session → Binding β} {post : β → Session → Prop}
    (leads : L.Ensures (f s) s post) : L.Ensures (get >>= f) s post := leads

theorem ensures_resolve (depth : Nat) (identity : AssemblyIdentity) (flags : Nat) :
    L.Safe (Binding.loading (Loading.resolve depth identity flags)) := by
  intro s sound
  have follows : L.Follows s
      (s.withContext (after (Loading.resolve depth identity flags) s.context)) := by
    have grown : s.Grows
        (s.withContext (after (Loading.resolve depth identity flags) s.context)) :=
      ⟨fun _ _ there => there, rfl, Loading.growing_resolve depth identity flags s.context, rfl⟩
    exact ⟨grown, fun _ _ empty => empty,
      L.kept.resolve depth identity flags s.context sound.context,
      fun slot v there => L.gained grown.gains (sound.cells slot v there)⟩
  refine ⟨?_, fun _ _ _ => trivial⟩
  unfold after Binding.loading at *
  cases ran : Loading.resolve depth identity flags s.context <;> simpa only [ran] using follows

theorem Safe.pure (value : α) : L.Safe (pure value : Binding α) := fun _ => ensures_pure trivial

theorem Safe.throw (e : Error) : L.Safe (throw e : Binding α) := fun _ => ensures_throw e

theorem Safe.view (f : Session → Except Error α) : L.Safe (Binding.view f) :=
  .of_ensures fun _ => ensures_view f

theorem Safe.lift (result : Except Error α) : L.Safe (Binding.lift result) :=
  .of_ensures fun _ => ensures_lift result

theorem Safe.bind {f : α → Binding β} (first : L.Safe x) (rest : ∀ v, L.Safe (f v)) :
    L.Safe (x >>= f) :=
  fun s => (first s).bind fun v s' _ _ => rest v s'

theorem Safe.mapM {f : α → Binding β} (each : ∀ v, L.Safe (f v)) (values : List α) :
    L.Safe (values.mapM f) := by
  induction values with
  | nil => exact .pure []
  | cons v values ih =>
    rw [List.mapM_cons]
    exact (each v).bind fun _ => ih.bind fun _ => .pure _

theorem ensures_mapM (P : Session → α → β → Prop) {f : α → Binding β}
    (kept : ∀ {s s' : Session} {v r}, s.Gains s' → P s v r → P s' v r)
    (each : ∀ v s, L.Ensures (f v) s fun r s' => P s' v r) (values : List α) (s : Session) :
    L.Ensures (values.mapM f) s fun results s' => List.Forall₂ (P s') values results := by
  induction values generalizing s with
  | nil => exact ensures_pure .nil
  | cons v values ih =>
    rw [List.mapM_cons]
    refine (each v s).bind fun r s' _ first => (ih s').bind fun results s'' grows others => ?_
    exact ensures_pure (.cons (kept grows.gains first) others)

end

section
variable {s : Session} {slot : Slot} {compute : Binding slot.Value}

theorem ensures_cell (computes : L.Ensures compute (s.enter slot) fun value s' =>
      L.Holds s' slot value) :
    L.Ensures (Binding.cell slot compute) s fun value s' => s'.value? slot = some value := by
  intro sound
  cases present : s.value? slot with
  | some value =>
    have fetched : Binding.cell slot compute s = .ok value s := Binding.cell_of_value present
    refine ⟨by simpa only [after_ok fetched] using .refl sound, fun v s' ran => ?_⟩
    rw [fetched] at ran
    cases ran
    exact present
  | none =>
    by_cases runs : slot ∈ s.running
    · have refused : Binding.cell slot compute s = .error (.malformed .cyclic) s :=
        Cells.fetch_refused present runs
      refine ⟨by simpa only [after_error refused] using .refl sound, fun v s' ran => ?_⟩
      rw [refused] at ran
      cases ran
    obtain ⟨follows, gives⟩ := computes (sound.enter slot)
    cases computed : compute (s.enter slot) with
    | ok value between =>
      have fetched := Binding.cell_of_computed present runs computed
      rw [after_ok computed] at follows
      have stored := follows.store present runs (gives value between computed)
      refine ⟨by rwa [after_ok fetched], fun v s' ran => ?_⟩
      rw [fetched] at ran
      cases ran
      simp
    | error e between =>
      have failed : Binding.cell slot compute s = .error e (between.leave slot) :=
        Cells.fetch_failed present runs computed
      rw [after_error computed] at follows
      refine ⟨by simpa only [after_error failed] using follows.leave, fun v s' ran => ?_⟩
      rw [failed] at ran
      cases ran

theorem Safe.ensures_cell (safe : L.Safe compute) (free : ∀ s value, L.Holds s slot value)
    (s : Session) :
    L.Ensures (Binding.cell slot compute) s fun value s' => s'.value? slot = some value :=
  Ledger.ensures_cell ((safe _).weaken fun value s' _ _ => free s' value)

theorem Safe.cell (safe : L.Safe compute) (free : ∀ s value, L.Holds s slot value) :
    L.Safe (Binding.cell slot compute) :=
  .of_ensures fun s => safe.ensures_cell free s

end

end Ledger

end CliMetadata
