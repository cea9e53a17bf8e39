import CliMetadata.Binding.Client
import CliMetadata.Proofs.Binding.Sound

set_option autoImplicit false

namespace CliMetadata

open Binding

namespace TypeDefinition

variable (t : TypeDefinition) (s : Session)

theorem ensures_bind {args : List TypeNode} (each : ∀ a ∈ args, a.Fits s) :
    Ensures (t.bind args) s fun b s' => b.node.Fits s' := by
  refine ensures_iff.2 ((Ledger.ensures_bind t args s).weaken ?_)
  rintro _ s' follows ⟨rfl, has⟩
  exact TypeNode.Fits.bound t.kind has fun a member =>
    (each a member).retained follows.grows.values

theorem ensures_bindOpen : Ensures t.bindOpen s fun b s' => b.node.Fits s' := by
  have params := Safe.of_kept (Ledger.safe_genericParams t) s
  refine params.bind fun params s' _ _ => t.ensures_bind s' ?_
  intro a member
  obtain ⟨p, _, rfl⟩ := List.mem_map.1 member
  exact .genericParam p.id

end TypeDefinition

namespace Binding

def Fitting (x : Binding TypeNode) : Prop := ∀ s, Ensures x s fun node s' => node.Fits s'

def Fitting? (x : Binding (Option TypeNode)) : Prop :=
  ∀ s, Ensures x s fun node? s' => ∀ node, node? = some node → node.Fits s'

theorem fitting_primitive (a : AssemblyId) (p : Primitive) : Fitting (primitive a p) := fun s =>
  (ensures_iff.2 (Ledger.ensures_primitive a p s)).weaken fun node _ sound there =>
    sound (.primitive a p) node there

theorem ensures_mapM {f : TypeSignature → Binding TypeNode} (each : ∀ v, Fitting (f v))
    (values : List TypeSignature) (s : Session) :
    Ensures (values.mapM f) s fun nodes s' => ∀ node ∈ nodes, node.Fits s' := by
  induction values generalizing s with
  | nil => exact ensures_pure (List.forall_mem_nil _)
  | cons v values ih =>
    rw [List.mapM_cons]
    refine (each v s).bind fun node s' _ first => (ih s').bind fun nodes s'' grows others => ?_
    refine ensures_pure fun other member => ?_
    rcases List.mem_cons.1 member with rfl | member
    · exact first.retained grows.values
    · exact others other member

theorem fitting_param (scope : GenericScope) (level : GenericLevel) (number : Nat) :
    Fitting (lift (scope.param level number)) := by
  refine fun s => (ensures_lift _).weaken fun node s' _ ⟨_, found⟩ => ?_
  unfold GenericScope.param at found
  split at found
  next p _ =>
    cases found
    exact .genericParam p.id
  next => cases found

theorem fitting_some {x : Binding (Option TypeNode)} {e : Error} (fitting : Fitting? x) :
    Fitting (do
      let some node ← x | throw e
      return node) := by
  refine fun s => (fitting s).bind fun node? s' _ fits => ?_
  split
  next node => exact ensures_pure (fits node rfl)
  · exact ensures_throw _

theorem fitting_typeWithin (a : AssemblyId) (scope : GenericScope)
    {named : Token → Binding (Option TypeNode)} (names : ∀ token, Fitting? (named token))
    (levels : Nat) (signature : TypeSignature) :
    Fitting (typeWithin a scope named levels signature) := by
  induction levels generalizing signature with
  | zero => exact fun s => ensures_throw _
  | succ levels ih =>
    unfold typeWithin
    split
    · exact fitting_primitive a _
    · exact fun s => ensures_pure .voidPointer
    · exact fun s => (ih _ s).bind fun node s' _ fits => ensures_pure fits.pointer
    · exact ih _
    · exact ih _
    · exact fitting_some (names _)
    · exact fitting_some (names _)
    · exact fitting_param scope _ _
    · exact fitting_param scope _ _
    · exact fun s => (ih _ s).bind fun node s' _ fits => ensures_pure fits.array
    · exact fun s => (ih _ s).bind fun node s' _ fits => ensures_pure (fits.mdArray _)
    · intro s
      refine (ih _ s).bind fun node s' _ _ => ?_
      refine (Safe.of_kept (Ledger.safe_definition? node) s').bind fun t? s' _ _ => ?_
      split
      next t =>
        refine (ensures_mapM ih _ s').bind fun args s' _ fits => ?_
        exact (t.ensures_bind s' fits).bind fun b s' _ fits => ensures_pure fits
      · exact ensures_throw _
    · exact fun s => ensures_pure .voidPointer

theorem fitting_open {x : Binding TypeDefinition} (safe : Safe x) :
    Fitting? (do
      let t ← x
      return some (← t.bindOpen).node) :=
  fun s => (safe s).bind fun t s' _ _ => (t.ensures_bindOpen s').bind fun _ _ _ fits =>
    ensures_pure fun _ same => Option.some.inj same ▸ fits

theorem fitting_namedTypeBy (a : AssemblyId) {referenced : Nat → Binding TypeDefinition}
    {specified : Token → Binding (Option TypeNode)} (safe : ∀ rid, Safe (referenced rid))
    (specifies : ∀ token, Fitting? (specified token)) (token : Token) :
    Fitting? (namedTypeBy a referenced specified token) := by
  unfold namedTypeBy
  split
  · exact fun s => ensures_pure fun _ => nofun
  split
  · exact fitting_open (.of_kept (Ledger.safe_definition a _))
  · exact fitting_open (safe _)
  · exact specifies token
  · exact fun s => ensures_throw _

theorem fitting_namedTypeWithin (a : AssemblyId) (scope : GenericScope)
    {referenced : Nat → Binding TypeDefinition} {beyond : Token → Binding (Option TypeNode)}
    (safe : ∀ rid, Safe (referenced rid)) (further : ∀ token, Fitting? (beyond token))
    (specs : Nat) (token : Token) :
    Fitting? (namedTypeWithin a scope referenced beyond specs token) := by
  induction specs generalizing token with
  | zero => exact fitting_namedTypeBy a safe further token
  | succ specs ih =>
    refine fitting_namedTypeBy a safe (fun token s => ?_) token
    refine (Safe.of_kept (Ledger.safe_specification a _) s).bind fun signature s' _ _ => ?_
    refine (fitting_typeWithin a scope ih _ signature s').bind fun node s' _ fits => ?_
    exact ensures_pure fun other same => Option.some.inj same ▸ fits

theorem fitting_names (a : AssemblyId) (scope : GenericScope) (specs : Nat) (token : Token) :
    Fitting? (namedTypeWithin a scope (typeReference a) endless specs token) :=
  fitting_namedTypeWithin a scope
    (fun rid => .of_kept (.of_ensures (Ledger.ensures_typeReference a rid)))
    (fun _ _ => ensures_throw _) specs token

theorem fitting_namedType (a : AssemblyId) (token : Token) (scope : GenericScope) :
    Fitting? (namedType a token scope) :=
  fun s => (Safe.of_kept (Ledger.safe_assembly a) s).bind fun _ s' _ _ =>
    fitting_names a scope _ token s'

theorem fitting_type (a : AssemblyId) (signature : TypeSignature) (scope : GenericScope) :
    Fitting (type a signature scope) :=
  fun s => (Safe.of_kept (Ledger.safe_assembly a) s).bind fun _ s' _ _ =>
    fitting_typeWithin a scope (fitting_names a scope _) _ signature s'

end Binding

structure Assurance (m : Type → Type) [Monad m] where
  gives : {α : Type} → m α → (α → Prop) → Prop
  pure : ∀ {α : Type} {value : α} {P : α → Prop}, P value → gives (pure value) P
  bind : ∀ {α β : Type} {x : m α} {f : α → m β} {P : α → Prop} {Q : β → Prop}, gives x P →
    (∀ value, P value → gives (f value) Q) → gives (x >>= f) Q

def Assurance.except : Assurance (Except Error) where
  gives x P := ∀ value, x = .ok value → P value
  pure holds := by
    rintro _ ⟨⟩
    exact holds
  bind first next := by
    intro result ran
    obtain ⟨value, ran, went⟩ := except_bind_ok.1 ran
    exact next value (first value ran) result went

def Assurance.stateful (σ : Type) : Assurance (StateT σ (Except Error)) where
  gives x P := ∀ state value after, x state = .ok (value, after) → P value
  pure holds := by
    rintro _ _ _ ⟨⟩
    exact holds
  bind first next := by
    intro state result final ran
    obtain ⟨⟨value, middle⟩, ran, went⟩ := except_bind_ok.1 ran
    exact next value (first state value middle ran) middle result final went

namespace TypeNode

section
variable {m : Type → Type} [Monad m] (assured : Assurance m) {s : Session}
  {binder : GenericParamId → m (Option TypeNode)}

def AnswersFit (s : Session) (binder : GenericParamId → m (Option TypeNode)) : Prop :=
  ∀ id, assured.gives (binder id) fun node? => ∀ node, node? = some node → node.Fits s

mutual

theorem fits_bindWith (answers : AnswersFit assured s binder) : ∀ node : TypeNode, node.Fits s →
    assured.gives (node.bindWith binder) fun bound => bound.Fits s
  | .bound kind d args, fits => by
    unfold bindWith
    have each : ∀ a ∈ args, Fits s a := fun a member => fits.part (.argument member)
    refine assured.bind (fits_bindAll answers args each) fun bound ⟨fit, counted⟩ => assured.pure ?_
    exact .bound kind (counted ▸ fits .whole) fit
  | .array element, fits => by
    unfold bindWith
    exact assured.bind (fits_bindWith answers element (fits.part (.element _))) fun _ fits =>
      assured.pure fits.array
  | .mdArray element rank, fits => by
    unfold bindWith
    exact assured.bind (fits_bindWith answers element (fits.part (.mdElement _ rank))) fun _ fits =>
      assured.pure (fits.mdArray rank)
  | .pointer pointee, fits => by
    unfold bindWith
    exact assured.bind (fits_bindWith answers pointee (fits.part (.pointee _))) fun _ fits =>
      assured.pure fits.pointer
  | .voidPointer, fits => assured.pure fits
  | .genericParam id, fits => by
    unfold bindWith
    refine assured.bind (answers id) fun node? fit => assured.pure ?_
    cases node? with
    | some node => exact fit node rfl
    | none => exact fits

theorem fits_bindAll (answers : AnswersFit assured s binder) : ∀ args : List TypeNode,
    (∀ a ∈ args, Fits s a) → assured.gives (bindAll binder args) fun bound =>
      (∀ a ∈ bound, Fits s a) ∧ bound.length = args.length
  | [], fits => assured.pure ⟨fits, rfl⟩
  | a :: args, fits => by
    unfold bindAll
    refine assured.bind (fits_bindWith answers a (fits a List.mem_cons_self)) fun first fit => ?_
    refine assured.bind (fits_bindAll answers args fun other member =>
      fits other (List.mem_cons_of_mem _ member)) fun others ⟨each, counted⟩ => assured.pure ?_
    exact ⟨List.forall_mem_cons.2 ⟨fit, each⟩, congrArg (· + 1) counted⟩

end

end

theorem fits_argument {s : Session} {args : GenericArgs} {p : GenericParam}
    {node? : Option TypeNode}
    (given : ∀ level list, args.level level = some list → ∀ a ∈ list, Fits s a)
    (found : args.argument p = .ok node?) : ∀ node, node? = some node → node.Fits s := by
  unfold GenericArgs.argument at found
  split at found
  next =>
    cases found
    exact fun _ => nofun
  next list has =>
    split at found
    next => cases found
    next =>
      cases found
      exact fun node at_ => given p.level list has node (List.mem_of_getElem? at_)

theorem fits_bindParams {s : Session} {param : GenericParamId → Except Error GenericParam}
    {args : GenericArgs} {node result : TypeNode} (fits : node.Fits s)
    (given : ∀ level list, args.level level = some list → ∀ a ∈ list, Fits s a)
    (ran : node.bindParams param args = .ok result) : result.Fits s := by
  refine fits_bindWith .except (fun id node? answered => ?_) node fits result ran
  obtain ⟨p, _, found⟩ := except_bind_ok.1 answered
  exact fits_argument given found

theorem fits_bindMemberType {s : Session} {param : GenericParamId → Except Error GenericParam}
    {owner : BoundType} {node result : TypeNode} (owned : owner.node.Fits s) (fits : node.Fits s)
    (ran : owner.bindMemberType param node = .ok result) : result.Fits s := by
  unfold BoundType.bindMemberType at ran
  split at ran
  next =>
    cases ran
    exact fits
  next =>
    refine fits_bindParams fits (fun level list has a member => ?_) ran
    cases level with
    | type =>
      cases has
      exact owned.part (.argument member)
    | method => cases has

end TypeNode

end CliMetadata
