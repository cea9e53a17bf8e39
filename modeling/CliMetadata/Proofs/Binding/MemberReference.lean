import CliMetadata.Binding.MemberReference
import CliMetadata.Proofs.Binding.Query
import CliMetadata.Proofs.Binding.Sound
import CliMetadata.Proofs.Storage.Image

set_option autoImplicit false

namespace CliMetadata.Binding

theorem settles_specParent (a : AssemblyId) (rid : Nat) : Settles (specParent a rid) := by
  apply (settles_assembly a).bind
  intro assembly
  apply (Settles.lift _).bind
  intro row
  apply (Settles.lift _).bind
  intro blob
  apply (Settles.lift _).bind
  intro signature
  dsimp only
  split
  · exact .pure _
  · exact .pure _
  · exact .throw _

theorem settles_parentNamed (a : AssemblyId) (token : Token) : Settles (match token.table? with
    | some .typeDef => definition a token.row
    | some .typeRef => typeReference a token.row
    | _ => throw (.malformed (.memberRefParent token))) := by
  split
  · exact settles_definition a _
  · exact settles_typeReference a _
  · exact .throw _

theorem settles_memberParent (a : AssemblyId) (parent : CodedIndex) :
    Settles (memberParent a parent) := by
  have named := settles_parentNamed a
  unfold memberParent
  dsimp only
  split
  · exact (Settles.pure _).bind named
  · exact (Settles.pure _).bind named
  · exact (settles_specParent a _).bind named
  · exact (Settles.throw _).bind named

section
variable {name : String} {signature : MethodSignature} {m : Method} {s : Session}

structure HasShape (name : String) (signature : MethodSignature) (s : Session) (m : Method) :
    Prop where
  named : m.name = name
  generic : Known m.genericArity s signature.genericParams
  arity : Known m.arity s signature.params.length
  instance_ : ∃ own, Known m.methodSignature s own ∧ own.hasThis = signature.hasThis

theorem hasShape_eq : hasShape name signature m = andThen (return m.name == name)
    (andThen (do return (← m.genericArity) == signature.genericParams)
      (andThen (do return (← m.arity) == signature.params.length)
        (do return (← m.methodSignature).hasThis == signature.hasThis))) := by
  simp only [hasShape, andThen, bne, bind_assoc, pure_bind]

variable (name signature m) in
theorem settles_hasShape : Settles (hasShape name signature m) := by
  rw [hasShape_eq]
  exact (Settles.pure _).andThen <| (m.settles_genericArity.bind fun _ => .pure _).andThen <|
    (m.settles_arity.bind fun _ => .pure _).andThen <|
      m.settles_methodSignature.bind fun _ => .pure _

theorem known_hasShape :
    Known (hasShape name signature m) s true ↔ HasShape name signature s m := by
  have generic : Settles (do return (← m.genericArity) == signature.genericParams) :=
    m.settles_genericArity.bind fun _ => .pure _
  have arity : Settles (do return (← m.arity) == signature.params.length) :=
    m.settles_arity.bind fun _ => .pure _
  have this : Settles (do return (← m.methodSignature).hasThis == signature.hasThis) :=
    m.settles_methodSignature.bind fun _ => .pure _
  rw [hasShape_eq, known_andThen (.pure _) (generic.andThen (arity.andThen this)),
    known_andThen generic (arity.andThen this), known_andThen arity this, known_pure,
    known_map m.settles_genericArity, known_map m.settles_arity,
    known_map m.settles_methodSignature]
  simp only [beq_iff_eq, exists_eq_right]
  constructor
  · rintro ⟨named, generic, arity, this⟩
    exact ⟨named, generic, arity, this⟩
  · exact fun shape => ⟨shape.named, shape.generic, shape.arity, shape.instance_⟩

variable {a : AssemblyId} {scope : GenericScope}

structure ParamAgrees (a : AssemblyId) (scope : GenericScope) (s : Session)
    (pair : Param × ParamSignature) : Prop where
  byReference : pair.1.byReference = pair.2.byReference
  type : Known (type a pair.2.type scope) s pair.1.type

theorem sameParams_cons (p : Param) (expected : ParamSignature)
    (rest : List (Param × ParamSignature)) : sameParams a scope ((p, expected) :: rest) =
      andThen (return p.byReference == expected.byReference) (andThen
        (do return p.type == (← type a expected.type scope)) (sameParams a scope rest)) := by
  simp only [sameParams, andThen, bne, bind_assoc, pure_bind]

variable (a scope) in
theorem settles_sameParams (pairs : List (Param × ParamSignature)) :
    Settles (sameParams a scope pairs) := by
  induction pairs with
  | nil => exact .pure true
  | cons pair rest ih =>
    rw [sameParams_cons]
    exact (Settles.pure _).andThen (((settles_type ..).bind fun _ => .pure _).andThen ih)

theorem known_sameParams {pairs : List (Param × ParamSignature)} :
    Known (sameParams a scope pairs) s true ↔ ∀ pair ∈ pairs, ParamAgrees a scope s pair := by
  induction pairs with
  | nil => exact ⟨fun _ => List.forall_mem_nil _, fun _ => rfl⟩
  | cons pair rest ih =>
    obtain ⟨p, expected⟩ := pair
    have typed : Settles (do return p.type == (← type a expected.type scope)) :=
      (settles_type ..).bind fun _ => .pure _
    have further := settles_sameParams a scope rest
    rw [sameParams_cons, known_andThen (.pure _) (typed.andThen further),
      known_andThen typed further, known_pure, known_map (settles_type ..), ih,
      List.forall_mem_cons]
    simp only [beq_iff_eq, exists_eq_right']
    constructor
    · rintro ⟨passed, typed, further⟩
      exact ⟨⟨passed, typed⟩, further⟩
    · rintro ⟨agrees, further⟩
      exact ⟨agrees.byReference, agrees.type, further⟩

def HasTypes (a : AssemblyId) (signature : MethodSignature) (s : Session) (m : Method) : Prop :=
  ∃ scope returned params, Known m.genericScope s scope ∧ Known m.returnParam s returned ∧
    Known (type a signature.returns.type scope) s returned.type ∧ Known m.params s params ∧
    ∀ pair ∈ params.zip signature.params, ParamAgrees a scope s pair

def comparesTypes (a : AssemblyId) (signature : MethodSignature) (scope : GenericScope)
    (returned : ReturnParam) (expected : TypeNode) (params : List Param) : Binding Bool :=
  andThen (return returned.type == expected) (sameParams a scope (params.zip signature.params))

theorem hasTypes_eq : hasTypes a signature m = (do
    let scope ← m.genericScope
    let returned ← m.returnParam
    let expected ← type a signature.returns.type scope
    let params ← m.params
    comparesTypes a signature scope returned expected params) := rfl

theorem settles_comparesTypes (a : AssemblyId) (signature : MethodSignature) (scope : GenericScope)
    (returned : ReturnParam) (expected : TypeNode) (params : List Param) :
    Settles (comparesTypes a signature scope returned expected params) :=
  (Settles.pure _).andThen (settles_sameParams a scope _)

theorem settles_typesFrom (a : AssemblyId) (signature : MethodSignature) (scope : GenericScope)
    (m : Method) : Settles (do
      let returned ← m.returnParam
      let expected ← type a signature.returns.type scope
      let params ← m.params
      comparesTypes a signature scope returned expected params) :=
  m.settles_returnParam.bind fun _ => (settles_type ..).bind fun _ => m.settles_params.bind fun _ =>
    settles_comparesTypes ..

theorem settles_hasTypes (a : AssemblyId) (signature : MethodSignature) (m : Method) :
    Settles (hasTypes a signature m) :=
  m.settles_genericScope.bind fun _ => settles_typesFrom ..

theorem known_comparesTypes {returned : ReturnParam} {expected : TypeNode} {params : List Param} :
    Known (comparesTypes a signature scope returned expected params) s true ↔
      returned.type = expected ∧
        ∀ pair ∈ params.zip signature.params, ParamAgrees a scope s pair := by
  rw [comparesTypes, known_andThen (.pure _) (settles_sameParams a scope _), known_pure,
    known_sameParams, beq_iff_eq]

theorem known_hasTypes : Known (hasTypes a signature m) s true ↔ HasTypes a signature s m := by
  have compares {scope : GenericScope} {returned : ReturnParam} {expected : TypeNode} :=
    fun params => (settles_comparesTypes a signature scope returned expected params).growing
  have passed {scope : GenericScope} {returned : ReturnParam} {expected : TypeNode} :
      Growing (m.params >>= comparesTypes a signature scope returned expected) :=
    m.settles_params.growing.bind compares
  have typed {scope : GenericScope} {returned : ReturnParam} : Growing (do
      let expected ← type a signature.returns.type scope
      let params ← m.params
      comparesTypes a signature scope returned expected params) :=
    (settles_type ..).growing.bind fun _ => passed
  rw [hasTypes_eq]
  constructor
  · intro known
    obtain ⟨scope, inScope, known⟩ := (known_bind m.settles_genericScope fun _ =>
      (settles_typesFrom ..).growing).1 known
    obtain ⟨returned, returns, known⟩ := (known_bind m.settles_returnParam fun _ => typed).1 known
    obtain ⟨expected, resolved, known⟩ := (known_bind (settles_type ..) fun _ => passed).1 known
    obtain ⟨params, takes, known⟩ := (known_bind m.settles_params compares).1 known
    obtain ⟨rfl, agree⟩ := known_comparesTypes.1 known
    exact ⟨scope, returned, params, inScope, returns, resolved, takes, agree⟩
  · rintro ⟨scope, returned, params, inScope, returns, resolved, takes, agree⟩
    refine (bind_after_ok inScope _).trans ?_
    refine (bind_after_ok returns _).trans ?_
    refine (bind_after_ok resolved _).trans ?_
    exact (bind_after_ok takes _).trans (known_comparesTypes.2 ⟨rfl, agree⟩)

end

section
variable {a : AssemblyId} {rid : Nat} {parent : TypeDefinition} {name : String}
  {signature : MethodSignature} {s s' : Session} {m : Method}

theorem onlyMethod_ok {found : List Method} (ran : onlyMethod rid parent name found s = .ok m s') :
    found = [m] ∧ s' = s := by
  match found, ran with
  | [_], rfl => exact ⟨rfl, rfl⟩

open Classical in
theorem overloads_ok {candidates found : List Method}
    (ran : overloads a signature candidates s = .ok found s') : s.Grows s' ∧
      (candidates.length ≤ 1 → found = candidates) ∧
      (1 < candidates.length → found = candidates.filter (HasTypes a signature s' ·)) := by
  unfold overloads at ran
  split at ran
  next several =>
    obtain ⟨grown, _, selected⟩ := filterM_ok (settles_hasTypes a signature) ran
    refine ⟨grown, fun _ => by omega, fun _ => ?_⟩
    simpa only [known_hasTypes] using selected
  next few =>
    cases ran
    exact ⟨.refl s, fun _ => rfl, fun several => absurd several few⟩

open Classical in
/-- A reference that is bound stands for a method of the type that it names, with the name and the
shape that it asks for: the only one of that shape, or of several the only one with its types. -/
theorem memberReference_bound {assembly : Assembly} {row : Row .memberRef}
    (there : s.context.assembly? a = some assembly)
    (reads : assembly.module.rowAt .memberRef rid = .ok row)
    (elsewhere : (MemberRefRow.ofRow row).parent.table ≠ .methodDef)
    (ran : memberReference a rid s = .ok m s') :
    ∃ name blob signature parent methods,
      assembly.module.string (MemberRefRow.ofRow row).name = .ok name ∧
      assembly.module.blob (MemberRefRow.ofRow row).signature = .ok blob ∧
      readMethodDef blob = .ok signature ∧
      Known (memberParent a (MemberRefRow.ofRow row).parent) s' parent ∧
      Known parent.methods s' methods ∧ m ∈ methods ∧ HasShape name signature s' m ∧
      (methods.filter (HasShape name signature s' ·) = [m] ∨
        1 < (methods.filter (HasShape name signature s' ·)).length ∧
          (methods.filter (HasShape name signature s' ·)).filter (HasTypes a signature s' ·) =
            [m]) := by
  have found : Binding.assembly a s = .ok assembly s := assembly_loaded there
  unfold memberReference at ran
  rw [bind_after_ok found, lift_bind_ok reads, if_neg elsewhere] at ran
  obtain ⟨name, named, ran⟩ := ok_of_lift_bind_ok ran
  obtain ⟨blob, stored, ran⟩ := ok_of_lift_bind_ok ran
  obtain ⟨signature, decoded, ran⟩ := ok_of_lift_bind_ok ran
  obtain ⟨parent, s₁, leads, ran⟩ := ok_of_bind_ok ran
  obtain ⟨methods, s₂, declared, ran⟩ := ok_of_bind_ok ran
  obtain ⟨candidates, s₃, shaped, ran⟩ := ok_of_bind_ok ran
  obtain ⟨left, s₄, told, ran⟩ := ok_of_bind_ok ran
  obtain ⟨rfl, rfl⟩ := onlyMethod_ok ran
  -- all that was asked for is known in the end, as every question after it settles
  have settlesShape := settles_hasShape name signature
  obtain ⟨listed, answered, shaped⟩ := filterM_ok settlesShape shaped
  obtain ⟨compared, few, several⟩ := overloads_ok told
  have known : Known parent.methods s' methods :=
    parent.settles_methods.known declared (listed.trans compared)
  have bound : Known (memberParent a (MemberRefRow.ofRow row).parent) s' parent :=
    (settles_memberParent a _).known leads
      ((parent.settles_methods.growing declared).trans (listed.trans compared))
  rw [filter_known_grown settlesShape answered compared] at shaped
  simp only [known_hasShape] at shaped
  have chosen : candidates = [m] ∨
      1 < candidates.length ∧ candidates.filter (HasTypes a signature s' ·) = [m] := by
    rcases Nat.lt_or_ge 1 candidates.length with more | less
    · exact .inr ⟨more, (several more).symm⟩
    · exact .inl (few less).symm
  have among : m ∈ candidates := by
    rcases chosen with only | ⟨_, only⟩
    · rw [only]
      exact List.mem_singleton_self m
    · exact List.mem_of_mem_filter (only ▸ List.mem_singleton_self m)
  subst shaped
  obtain ⟨member, shape⟩ := List.mem_filter.1 among
  exact ⟨name, blob, signature, parent, methods, named, stored, decoded, bound, known, member,
    of_decide_eq_true shape, chosen⟩

end

theorem cell_told {slot : Slot} {a : AssemblyId} {assembly : Assembly} {s : Session}
    {told : Assembly → Except Error slot.Value} {value : slot.Value}
    (there : s.context.assembly? a = some assembly) (lives : s.client.holdsContext = true)
    (absent : s.value? slot = none) (idle : slot ∉ s.running)
    (gives : told assembly = .ok value) :
    cell slot (do
      let assembly ← liveAssembly a
      lift (told assembly)) s = .ok value (s.store slot value) := by
  have living : liveAssembly a (s.enter slot) = .ok assembly (s.enter slot) :=
    liveAssembly_loaded there lives
  refine cell_of_unchanged absent idle ?_
  rw [bind_after_ok living, gives]
  rfl

theorem hasShape_of_told {name : String} {signature own : MethodSignature} {m : Method}
    {generics : List GenericParam} {s s₁ s₂ : Session} (named : m.name = name)
    (arity : m.genericParams s = .ok generics s₁)
    (generic : generics.length = signature.genericParams)
    (signed : m.methodSignature s₁ = .ok own s₂)
    (params : own.params.length = signature.params.length)
    (instance_ : own.hasThis = signature.hasThis) : hasShape name signature m s = .ok true s₂ := by
  have again : m.methodSignature s₂ = .ok own s₂ :=
    m.settles_methodSignature.known signed (.refl s₂)
  have counted : m.genericArity s = .ok generics.length s₁ := (bind_after_ok arity _).trans rfl
  have taken : m.arity s₁ = .ok own.params.length s₂ := (bind_after_ok signed _).trans rfl
  unfold hasShape
  simp only [named, bne_self_eq_false, Bool.false_eq_true, if_false]
  rw [bind_after_ok counted]
  simp only [generic, bne_self_eq_false, Bool.false_eq_true, if_false]
  rw [bind_after_ok taken]
  simp only [params, bne_self_eq_false, Bool.false_eq_true, if_false]
  rw [bind_after_ok again, instance_, beq_self_eq_true]
  rfl

def returnsOnly (test : TypeSignature → Bool) (signature : MethodSignature) : Bool :=
  !signature.hasThis && signature.genericParams == 0 && signature.params.isEmpty &&
    test signature.returns.type

def isVoidPointer : TypeSignature → Bool
  | .pointer _ (.primitive .void) => true
  | _ => false

def isPointerVector : TypeSignature → Bool
  | .vector _ base => isVoidPointer base
  | _ => false

theorem returnsOnly_iff {test : TypeSignature → Bool} {signature : MethodSignature} :
    returnsOnly test signature = true ↔ signature.hasThis = false ∧ signature.genericParams = 0 ∧
      signature.params = [] ∧ test signature.returns.type = true := by
  simp [returnsOnly, and_assoc]

section
variable {a : AssemblyId} {found : Assembly} {s : Session}
  (there : s.context.assembly? a = some found) (scope : GenericScope)
include there

theorem type_voidPointer {signature : TypeSignature} (pointer : isVoidPointer signature = true) :
    type a signature scope s = .ok .voidPointer s := by
  have known : assembly a s = .ok found s := assembly_loaded there
  match signature, pointer with
  | .pointer _ (.primitive .void), _ => exact bind_after_ok known _

theorem type_pointerVector {signature : TypeSignature} (vector : isPointerVector signature = true) :
    type a signature scope s = .ok (.array .voidPointer) s := by
  have known : assembly a s = .ok found s := assembly_loaded there
  match signature, vector with
  | .vector _ (.pointer _ (.primitive .void)), _ => exact bind_after_ok known _

end

theorem returnParam_of_told {m : Method} {t : TypeDefinition} {s s' : Session}
    {own : MethodSignature} {assembly : Assembly} {scope : GenericScope} {rows : List ParamRow}
    {node : TypeNode}
    (absent : s.value? (.returnParam m.id) = none) (idle : .returnParam m.id ∉ s.running)
    (living : liveAssembly m.id.type.assembly (s.enter (.returnParam m.id)) =
      .ok assembly (s.enter (.returnParam m.id)))
    (declaring : m.declaringType (s.enter (.returnParam m.id)) =
      .ok t (s.enter (.returnParam m.id)))
    (params : t.genericParams (s.enter (.returnParam m.id)) = .ok scope.typeParams s')
    (own_params : m.genericParams s' = .ok scope.methodParams s')
    (described : m.paramRows s' = .ok rows s') (signed : m.methodSignature s' = .ok own s')
    (resolved : type m.id.type.assembly own.returns.type scope s' = .ok node s') :
    ∃ returned last, m.returnParam s = .ok returned last ∧ returned.type = node ∧
      last.rest = s'.rest := by
  have scoping : m.genericScope (s.enter (.returnParam m.id)) = .ok scope s' := by
    unfold Method.genericScope
    rw [bind_after_ok declaring, bind_after_ok params, bind_after_ok own_params]
    rfl
  let returned : ReturnParam := {
    method := m.id, token := (rows.find? (·.sequence == 0)).map (·.token), type := node
    byReference := own.returns.byReference }
  have ran : m.returnParam s = .ok returned
      ((s'.leave (.returnParam m.id)).store (.returnParam m.id) returned) := by
    refine cell_of_computed absent idle ?_
    rw [bind_after_ok living, bind_after_ok scoping, bind_after_ok described, bind_after_ok signed,
      bind_after_ok resolved]
    rfl
  exact ⟨returned, _, ran, rfl, rfl⟩

/-- The metadata of an assembly with a type C, whose only method M returns a pointer, and with a
reference to a method M of C that returns an array of pointers. -/
def mistypedReference : ByteArray := image [
  ("#~", tableStream [
    (.typeDef, [[1, 0, 0x10, 0, 3, 0, 0, 0, 0, 0, 1, 0, 1, 0]]),
    (.methodDef, [[0, 0, 0, 0, 0, 0, 0x16, 0, 5, 0, 1, 0, 1, 0]]),
    (.memberRef, [[8, 0, 5, 0, 6, 0]]),
    (.assembly, [[0, 0, 0, 0, 0, 0, 0, 0, 0, 0, 0, 0, 0, 0, 0, 0, 0, 0, 1, 0, 0, 0]])]),
  ("#Strings", stringHeap ["A", "C", "M"]),
  ("#Blob", [0, 4, 0, 0, 0x0f, 1, 5, 0, 0, 0x1d, 0x0f, 1])]

def readsMistyped (a : Assembly) : Bool :=
  match a.definition ⟨0⟩ 1, a.module.rowAt .memberRef 1 with
  | .ok t, .ok row =>
    let parent := (MemberRefRow.ofRow row).parent
    a.typeCount == 1 && t.id == ⟨⟨0⟩, 1⟩ && parent == ⟨.typeDef, 1⟩ &&
      (a.module.string (MemberRefRow.ofRow row).name).toOption == some "M" &&
      (a.module.genericParams (.type t.id) t.token).toOption.any (·.isEmpty) &&
      (do readMethodDef (← a.module.blob (MemberRefRow.ofRow row).signature)).toOption.any
        (returnsOnly isPointerVector) &&
      match a.methods t with
      | .ok [m] => m.name == "M" && m.id == ⟨t.id, 0⟩ &&
        (a.module.genericParams (.method m.id) m.token).toOption.any (·.isEmpty) &&
        (a.methodSignature m).toOption.any (returnsOnly isVoidPointer) &&
        (a.paramRows m).toOption.any (·.isEmpty)
      | _ => false
  | _, _ => false

theorem reads_mistypedReference :
    (do Assembly.ofModule (← Module.read mistypedReference)).toOption.any readsMistyped = true := by
  decide +kernel

/-- What has to be known of the assembly. Its bytes are read once, by evaluation; all that follows
is about any assembly whose tables say this. -/
structure Mistyped (a : Assembly) (t : TypeDefinition) (m : Method) (row : Row .memberRef)
    (blob : ByteArray) (own asked : MethodSignature) : Prop where
  defines : a.definition ⟨0⟩ 1 = .ok t
  counts : a.typeCount = 1
  type : t.id = ⟨⟨0⟩, 1⟩
  simple : a.module.genericParams (.type t.id) t.token = .ok []
  declares : a.methods t = .ok [m]
  method : m.id = ⟨t.id, 0⟩
  named : m.name = "M"
  plain : a.module.genericParams (.method m.id) m.token = .ok []
  signed : a.methodSignature m = .ok own
  pointer : returnsOnly isVoidPointer own = true
  undescribed : a.paramRows m = .ok []
  refers : a.module.rowAt .memberRef 1 = .ok row
  within : (MemberRefRow.ofRow row).parent = ⟨.typeDef, 1⟩
  names : a.module.string (MemberRefRow.ofRow row).name = .ok "M"
  stored : a.module.blob (MemberRefRow.ofRow row).signature = .ok blob
  asks : readMethodDef blob = .ok asked
  vector : returnsOnly isPointerVector asked = true

theorem exists_mistyped : ∃ a t m row blob own asked,
    (do Assembly.ofModule (← Module.read mistypedReference)) = .ok a ∧
      Mistyped a t m row blob own asked := by
  obtain ⟨a, built, reads⟩ := (Option.any_eq_true _ _).1 reads_mistypedReference
  rw [except_toOption_some] at built
  unfold readsMistyped at reads
  split at reads
  next t row defines refers =>
    simp only [Bool.and_eq_true, beq_iff_eq, except_toOption_some, Option.any_eq_true,
      List.isEmpty_iff] at reads
    obtain ⟨⟨⟨⟨⟨⟨counts, type⟩, within⟩, names⟩, simple⟩, asks⟩, reads⟩ := reads
    split at reads
    next m declares =>
      simp only [Bool.and_eq_true, beq_iff_eq, except_toOption_some, Option.any_eq_true,
        List.isEmpty_iff] at reads
      obtain ⟨⟨⟨⟨named, method⟩, plain⟩, own, signed, pointer⟩, undescribed⟩ := reads
      obtain ⟨asked, read, vector⟩ := asks
      obtain ⟨blob, stored, asks⟩ := except_bind_ok.1 read
      obtain ⟨_, simple, rfl⟩ := simple
      obtain ⟨_, plain, rfl⟩ := plain
      obtain ⟨_, undescribed, rfl⟩ := undescribed
      exact ⟨a, t, m, row, blob, own, asked, built, defines, counts, type, simple, declares, method,
        named, plain, signed, pointer, undescribed, refers, within, names, stored, asks, vector⟩
    next => cases reads
  next => cases reads

def loadedSession (a : Assembly) : Session :=
  (Session.new none 1).withContext (({} : LoadContext).push a)

def listedSession (a : Assembly) (t : TypeDefinition) (m : Method) : Session :=
  ((loadedSession a).store (.definition t.id) t).store (.methods t.id) [m]

def shapedSession (a : Assembly) (t : TypeDefinition) (m : Method) (own : MethodSignature) :
    Session :=
  ((listedSession a t m).store (.genericParams (.method m.id)) []).store (.methodSignature m.id) own

@[simp] theorem value?_loadedSession (a : Assembly) (slot : Slot) :
    (loadedSession a).value? slot = none := by
  simp [loadedSession]

theorem shapedSession_values (a : Assembly) (t : TypeDefinition) (m : Method)
    (own : MethodSignature) : (shapedSession a t m own).value? (.definition t.id) = some t ∧
      (shapedSession a t m own).value? (.genericParams (.method m.id)) = some [] ∧
      (shapedSession a t m own).value? (.methodSignature m.id) = some own ∧
      (shapedSession a t m own).value? (.genericParams (.type t.id)) = none ∧
      (shapedSession a t m own).value? (.returnParam m.id) = none := by
  simp [shapedSession, listedSession]

namespace Mistyped

variable {a : Assembly} {t : TypeDefinition} {m : Method} {row : Row .memberRef} {blob : ByteArray}
  {own asked : MethodSignature} (mistyped : Mistyped a t m row blob own asked)
include mistyped

theorem home : m.id.type.assembly = ⟨0⟩ := by rw [mistyped.method, mistyped.type]

theorem hasShape_eq : hasShape "M" asked m (listedSession a t m) =
    .ok true (shapedSession a t m own) := by
  obtain ⟨static, -, params, -⟩ := returnsOnly_iff.1 mistyped.pointer
  obtain ⟨static', generic', params', -⟩ := returnsOnly_iff.1 mistyped.vector
  have arity : m.genericParams (listedSession a t m) =
      .ok [] ((listedSession a t m).store (.genericParams (.method m.id)) []) := by
    refine cell_told (by rw [mistyped.home]; rfl) rfl ?_ List.not_mem_nil mistyped.plain
    simp [listedSession]
  have signature :
      m.methodSignature ((listedSession a t m).store (.genericParams (.method m.id)) []) =
        .ok own (shapedSession a t m own) := by
    refine cell_told (by rw [mistyped.home]; rfl) rfl ?_ List.not_mem_nil mistyped.signed
    simp [listedSession]
  exact hasShape_of_told mistyped.named arity (by rw [generic']; rfl) signature
    (by rw [params, params']) (static.trans static'.symm)

theorem definition_eq {s : Session} (there : s.context.assembly? ⟨0⟩ = some a) :
    definition ⟨0⟩ 1 s = cell (.definition ⟨⟨0⟩, 1⟩) (lift (a.definition ⟨0⟩ 1)) s :=
  definition_inside there (Nat.le_refl 1) (Nat.le_of_eq mistyped.counts.symm)

theorem memberParent_eq : memberParent ⟨0⟩ (MemberRefRow.ofRow row).parent (loadedSession a) =
    .ok t ((loadedSession a).store (.definition t.id) t) := by
  have defined : definition ⟨0⟩ 1 (loadedSession a) =
      .ok t ((loadedSession a).store (.definition ⟨⟨0⟩, 1⟩) t) := by
    rw [mistyped.definition_eq rfl]
    refine cell_of_unchanged (by simp) List.not_mem_nil ?_
    rw [mistyped.defines]
    rfl
  rw [mistyped.within, mistyped.type]
  exact defined

theorem methods_eq : t.methods ((loadedSession a).store (.definition t.id) t) =
    .ok [m] (listedSession a t m) := by
  refine cell_told (by rw [mistyped.type]; rfl) rfl ?_ List.not_mem_nil mistyped.declares
  simp

theorem memberReference_eq : memberReference ⟨0⟩ 1 (loadedSession a) =
    .ok m (shapedSession a t m own) := by
  have there : Binding.assembly ⟨0⟩ (loadedSession a) = .ok a (loadedSession a) :=
    assembly_loaded rfl
  have elsewhere : (MemberRefRow.ofRow row).parent.table ≠ .methodDef := by
    rw [mistyped.within]
    decide
  have selected : [m].filterAuxM (hasShape "M" asked) [] (listedSession a t m) =
      .ok [m] (shapedSession a t m own) := bind_after_ok mistyped.hasShape_eq _
  have candidates : [m].filterM (hasShape "M" asked) (listedSession a t m) =
      .ok [m] (shapedSession a t m own) := bind_after_ok selected _
  unfold memberReference
  rw [bind_after_ok there, lift_bind_ok mistyped.refers, if_neg elsewhere,
    lift_bind_ok mistyped.names, lift_bind_ok mistyped.stored, lift_bind_ok mistyped.asks,
    bind_after_ok mistyped.memberParent_eq, bind_after_ok mistyped.methods_eq,
    bind_after_ok candidates]
  rfl

theorem living {s : Session} (there : s.context.assembly? ⟨0⟩ = some a)
    (lives : s.client.holdsContext = true) :
    liveAssembly m.id.type.assembly s = .ok a s := by
  rw [mistyped.home]
  exact liveAssembly_loaded there lives

theorem paramRows_eq {s : Session} (there : s.context.assembly? ⟨0⟩ = some a)
    (lives : s.client.holdsContext = true) : m.paramRows s = .ok [] s := by
  unfold Method.paramRows
  rw [bind_after_ok (mistyped.living there lives), mistyped.undescribed]
  rfl

theorem declaringType_eq {s : Session} (there : s.context.assembly? ⟨0⟩ = some a)
    (lives : s.client.holdsContext = true) (defined : s.value? (.definition t.id) = some t) :
    m.declaringType s = .ok t s := by
  have place : m.id.type = ⟨⟨0⟩, 1⟩ := by rw [mistyped.method, mistyped.type]
  rw [mistyped.type] at defined
  unfold Method.declaringType declaringType
  rw [place, bind_after_ok (liveAssembly_loaded there lives), mistyped.definition_eq there]
  exact cell_of_value defined

theorem returnParam_eq {s : Session} (there : s.context.assembly? ⟨0⟩ = some a)
    (lives : s.client.holdsContext = true) (idle : s.running = [])
    (defined : s.value? (.definition t.id) = some t)
    (plain : s.value? (.genericParams (.method m.id)) = some [])
    (signed : s.value? (.methodSignature m.id) = some own)
    (simple : s.value? (.genericParams (.type t.id)) = none)
    (absent : s.value? (.returnParam m.id) = none) :
    ∃ returned s', m.returnParam s = .ok returned s' ∧ returned.type = .voidPointer ∧
      s'.rest = s.rest := by
  obtain ⟨-, -, -, pointer⟩ := returnsOnly_iff.1 mistyped.pointer
  have params : t.genericParams (s.enter (.returnParam m.id)) = .ok ({} : GenericScope).typeParams
      ((s.enter (.returnParam m.id)).store (.genericParams (.type t.id)) []) := by
    refine cell_told (by rw [mistyped.type]; exact there) lives simple ?_ mistyped.simple
    simp [idle]
  have kept (slot : Slot) (value : slot.Value) (held : s.value? slot = some value) :
      Cells.value? ((s.enter (.returnParam m.id)).store (.genericParams (.type t.id)) []) slot =
        some value :=
    Cells.value?_store_kept (s := s.enter (.returnParam m.id)) simple [] held
  have resolved := type_voidPointer (s := (s.enter (.returnParam m.id)).store
    (.genericParams (.type t.id)) []) there {} pointer
  rw [← mistyped.home] at resolved
  obtain ⟨returned, s', ran, typed, same⟩ := returnParam_of_told absent (by simp [idle])
    (mistyped.living there lives) (mistyped.declaringType_eq there lives defined) params
    (cell_of_value (kept _ _ plain)) (mistyped.paramRows_eq there lives)
    (cell_of_value (kept _ _ signed)) resolved
  exact ⟨returned, s', ran, typed, same⟩

end Mistyped

/-- A reference that asks for an array of pointers is bound to the only method of its name and
shape, though that returns a pointer. -/
theorem memberReference_mistyped : ∃ (a : Assembly) (row : Row .memberRef) (blob : ByteArray)
    (asked : MethodSignature) (m : Method) (s₁ : Session) (returned : ReturnParam) (s₂ : Session)
    (expected : TypeNode),
    (do Assembly.ofModule (← Module.read mistypedReference)) = .ok a ∧
      a.module.rowAt .memberRef 1 = .ok row ∧
      a.module.blob (MemberRefRow.ofRow row).signature = .ok blob ∧
      readMethodDef blob = .ok asked ∧
      memberReference ⟨0⟩ 1 (loadedSession a) = .ok m s₁ ∧
      m.returnParam s₁ = .ok returned s₂ ∧
      (∀ scope, type ⟨0⟩ asked.returns.type scope s₂ = .ok expected s₂) ∧
      returned.type ≠ expected := by
  obtain ⟨a, t, m, row, blob, own, asked, built, mistyped⟩ := exists_mistyped
  obtain ⟨-, -, -, vector⟩ := returnsOnly_iff.1 mistyped.vector
  obtain ⟨defined, plain, signed, simple, absent⟩ := shapedSession_values a t m own
  obtain ⟨returned, s₂, ran, pointer, same⟩ :=
    mistyped.returnParam_eq rfl rfl rfl defined plain signed simple absent
  have there : s₂.context.assembly? ⟨0⟩ = some a := by
    rw [Session.context, same]
    rfl
  refine ⟨a, row, blob, asked, m, _, returned, s₂, .array .voidPointer, built, mistyped.refers,
    mistyped.stored, mistyped.asks, mistyped.memberReference_eq, ran,
    fun scope => type_pointerVector there scope vector, ?_⟩
  rw [pointer]
  exact nofun

open Classical in
theorem memberReference_bound_alone : ∃ (a : Assembly) (row : Row .memberRef) (m : Method)
    (s s' : Session),
    s.context.assembly? ⟨0⟩ = some a ∧ a.module.rowAt .memberRef 1 = .ok row ∧
      (MemberRefRow.ofRow row).parent.table ≠ .methodDef ∧
      memberReference ⟨0⟩ 1 s = .ok m s' ∧
      ∃ name blob signature parent methods,
        a.module.string (MemberRefRow.ofRow row).name = .ok name ∧
        a.module.blob (MemberRefRow.ofRow row).signature = .ok blob ∧
        readMethodDef blob = .ok signature ∧
        Known (memberParent ⟨0⟩ (MemberRefRow.ofRow row).parent) s' parent ∧
        Known parent.methods s' methods ∧ m ∈ methods ∧ HasShape name signature s' m ∧
        (methods.filter (HasShape name signature s' ·) = [m] ∨
          1 < (methods.filter (HasShape name signature s' ·)).length ∧
            (methods.filter (HasShape name signature s' ·)).filter
              (HasTypes ⟨0⟩ signature s' ·) = [m]) := by
  obtain ⟨a, t, m, row, _, own, _, -, mistyped⟩ := exists_mistyped
  have elsewhere : (MemberRefRow.ofRow row).parent.table ≠ .methodDef := by
    rw [mistyped.within]
    decide
  exact ⟨a, row, m, loadedSession a, shapedSession a t m own, rfl, mistyped.refers, elsewhere,
    mistyped.memberReference_eq,
    memberReference_bound rfl mistyped.refers elsewhere mistyped.memberReference_eq⟩

end CliMetadata.Binding
