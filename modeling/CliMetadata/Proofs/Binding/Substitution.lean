import CliMetadata.Binding.Client
import CliMetadata.Proofs.Binding.Arity
import CliMetadata.Proofs.Storage.Image
import CliMetadata.Proofs.Table.Bisection

set_option autoImplicit false

namespace CliMetadata

namespace GenericParam

/-- The parameter is one that an owner has by the rows of a module. -/
def Loaded (p : GenericParam) : Prop :=
  ∃ (m : Module) (id : GenericOwner) (owner : Token) (params : List GenericParam),
    m.genericParams id owner = .ok params ∧ p ∈ params

-- The numbers of an owner's parameters have no gaps, so that each has an argument in a full list.
theorem Loaded.number_lt {p : GenericParam} (loaded : p.Loaded) : p.number < p.ownerArity := by
  obtain ⟨m, id, owner, params, read, member⟩ := loaded
  obtain ⟨level, _, read⟩ := except_bind_ok.1 read
  obtain ⟨rows, _, read⟩ := except_bind_ok.1 read
  obtain ⟨counted, each⟩ := List.forall₂_iff_get.1 (mapM_ok read)
  obtain ⟨i, inside, rfl⟩ := List.getElem_of_mem member
  have made := each i (counted ▸ inside) inside
  simp only [List.length_zipIdx, List.length_mergeSort, List.length_map] at counted
  simp only [List.get_eq_getElem, List.getElem_zipIdx, Nat.zero_add] at made
  split at made
  · cases made
  next numbered =>
    obtain ⟨name, _, same⟩ := except_bind_ok.1 made
    have number : params[i].number = i := by
      rw [← Except.ok.inj same]
      exact Decidable.not_not.1 numbered
    have arity : params[i].ownerArity = rows.length := by
      rw [← Except.ok.inj same]
      exact List.length_map _
    omega

end GenericParam

namespace TypeNode

def Closed (node : TypeNode) : Prop := ∀ id, ¬Within (.genericParam id) node

@[simp] theorem isParameterizedAny_iff {args : List TypeNode} :
    isParameterizedAny args ↔ ∃ a ∈ args, a.isParameterized := by
  induction args with
  | nil => simp [isParameterizedAny]
  | cons a args ih => simp [isParameterizedAny, ih]

mutual

theorem within_of_isParameterized : ∀ node : TypeNode, node.isParameterized →
    ∃ id, Within (.genericParam id) node
  | .bound kind d args, has => by
    obtain ⟨a, member, id, within⟩ := within_of_isParameterizedAny args has
    exact ⟨id, within.part (.argument member)⟩
  | .array element, has => by
    obtain ⟨id, within⟩ := within_of_isParameterized element has
    exact ⟨id, within.part (.element _)⟩
  | .mdArray element rank, has => by
    obtain ⟨id, within⟩ := within_of_isParameterized element has
    exact ⟨id, within.part (.mdElement _ rank)⟩
  | .pointer pointee, has => by
    obtain ⟨id, within⟩ := within_of_isParameterized pointee has
    exact ⟨id, within.part (.pointee _)⟩
  | .genericParam id, _ => ⟨id, .whole⟩

theorem within_of_isParameterizedAny : ∀ args : List TypeNode, isParameterizedAny args →
    ∃ a ∈ args, ∃ id, Within (.genericParam id) a
  | a :: args, has => by
    simp only [isParameterizedAny, Bool.or_eq_true] at has
    rcases has with first | later
    · exact ⟨a, List.mem_cons_self, within_of_isParameterized a first⟩
    · obtain ⟨other, member, within⟩ := within_of_isParameterizedAny args later
      exact ⟨other, List.mem_cons_of_mem _ member, within⟩

end

@[simp] theorem isParameterized_iff {node : TypeNode} :
    node.isParameterized ↔ ∃ id, Within (.genericParam id) node := by
  constructor
  · exact within_of_isParameterized node
  · intro ⟨id, within⟩
    generalize inner : TypeNode.genericParam id = leaf at within
    induction within with
    | whole => simp [← inner, isParameterized]
    | part within inside ih =>
      cases inside with
      | argument member => exact isParameterizedAny_iff.2 ⟨_, member, ih⟩
      | element => exact ih
      | mdElement => exact ih
      | pointee => exact ih

theorem closed_iff {node : TypeNode} : node.Closed ↔ node.isParameterized = false := by
  rw [Bool.eq_false_iff, ne_eq, isParameterized_iff, Closed, not_exists]

instance (node : TypeNode) : Decidable node.Closed := decidable_of_iff' _ closed_iff

section
variable {m : Type → Type} [Monad m] [LawfulMonad m]
  {binder : GenericParamId → m (Option TypeNode)}

mutual

theorem bindWith_stays : ∀ node : TypeNode,
    (∀ id, Within (.genericParam id) node → binder id = pure none) →
    node.bindWith binder = pure node
  | .bound kind d args, stays => by
    have each := bindAll_stays args fun a member id within =>
      stays id (within.part (.argument member))
    simp [bindWith, each]
  | .array element, stays => by
    have inner := bindWith_stays element fun id within => stays id (within.part (.element _))
    simp [bindWith, inner]
  | .mdArray element rank, stays => by
    have inner := bindWith_stays element fun id within =>
      stays id (within.part (.mdElement _ rank))
    simp [bindWith, inner]
  | .pointer pointee, stays => by
    have inner := bindWith_stays pointee fun id within => stays id (within.part (.pointee _))
    simp [bindWith, inner]
  | .voidPointer, _ => by simp [bindWith]
  | .genericParam id, stays => by simp [bindWith, stays id .whole]

theorem bindAll_stays : ∀ args : List TypeNode,
    (∀ a ∈ args, ∀ id, Within (.genericParam id) a → binder id = pure none) →
    bindAll binder args = pure args
  | [], _ => by simp [bindAll]
  | a :: args, stays => by
    have first := bindWith_stays a (stays a List.mem_cons_self)
    have others := bindAll_stays args fun other member =>
      stays other (List.mem_cons_of_mem _ member)
    simp [bindAll, first, others]

end

end

section
variable {f g h : GenericParamId → Except Error (Option TypeNode)}

mutual

theorem within_bindWith : ∀ node result : TypeNode, node.bindWith f = .ok result →
    ∀ id, Within (.genericParam id) result → ∃ own answer, Within (.genericParam own) node ∧
      f own = .ok answer ∧ Within (.genericParam id) (answer.getD (.genericParam own))
  | .bound kind d args, result, ran, id, within => by
    obtain ⟨bound, made, same⟩ := except_bind_ok.1 ran
    cases same
    cases within with
    | part within inside =>
      cases inside with
      | argument member =>
        obtain ⟨a, there, own, answer, inside, found⟩ :=
          within_bindAll args bound made id _ member within
        exact ⟨own, answer, inside.part (.argument there), found⟩
  | .array element, result, ran, id, within => by
    obtain ⟨bound, made, same⟩ := except_bind_ok.1 ran
    cases same
    cases within with
    | part within inside =>
      cases inside
      obtain ⟨own, answer, inside, found⟩ := within_bindWith element bound made id within
      exact ⟨own, answer, inside.part (.element _), found⟩
  | .mdArray element rank, result, ran, id, within => by
    obtain ⟨bound, made, same⟩ := except_bind_ok.1 ran
    cases same
    cases within with
    | part within inside =>
      cases inside
      obtain ⟨own, answer, inside, found⟩ := within_bindWith element bound made id within
      exact ⟨own, answer, inside.part (.mdElement _ rank), found⟩
  | .pointer pointee, result, ran, id, within => by
    obtain ⟨bound, made, same⟩ := except_bind_ok.1 ran
    cases same
    cases within with
    | part within inside =>
      cases inside
      obtain ⟨own, answer, inside, found⟩ := within_bindWith pointee bound made id within
      exact ⟨own, answer, inside.part (.pointee _), found⟩
  | .voidPointer, result, ran, id, within => by
    cases ran
    cases within with
    | part within inside => cases inside
  | .genericParam own, result, ran, id, within => by
    obtain ⟨answer, found, same⟩ := except_bind_ok.1 ran
    cases same
    exact ⟨own, answer, .whole, found, within⟩

theorem within_bindAll : ∀ args results : List TypeNode, bindAll f args = .ok results →
    ∀ id, ∀ r ∈ results, Within (.genericParam id) r → ∃ a ∈ args, ∃ own answer,
      Within (.genericParam own) a ∧ f own = .ok answer ∧
        Within (.genericParam id) (answer.getD (.genericParam own))
  | [], results, ran, id, r, member, within => by
    cases ran
    cases member
  | a :: args, results, ran, id, r, member, within => by
    obtain ⟨first, made, rest⟩ := except_bind_ok.1 ran
    obtain ⟨others, further, same⟩ := except_bind_ok.1 rest
    cases same
    rcases List.mem_cons.1 member with rfl | later
    · exact ⟨a, List.mem_cons_self, within_bindWith a r made id within⟩
    · obtain ⟨other, there, found⟩ := within_bindAll args others further id r later within
      exact ⟨other, List.mem_cons_of_mem _ there, found⟩

end

def Chains (f g h : GenericParamId → Except Error (Option TypeNode)) (id : GenericParamId) : Prop :=
  ∀ answer, f id = .ok answer →
    ∃ first second, answer = some first ∧ first.bindWith g = .ok second ∧ h id = .ok (some second)

mutual

theorem bindWith_bindWith : ∀ node middle : TypeNode,
    (∀ id, Within (.genericParam id) node → Chains f g h id) → node.bindWith f = .ok middle →
    ∃ result, middle.bindWith g = .ok result ∧ node.bindWith h = .ok result
  | .bound kind d args, middle, chains, ran => by
    obtain ⟨bound, made, same⟩ := except_bind_ok.1 ran
    cases same
    obtain ⟨results, again, once⟩ := bindAll_bindAll args bound
      (fun a member id within => chains id (within.part (.argument member))) made
    exact ⟨.bound kind d results, by rw [bindWith, again]; rfl, by rw [bindWith, once]; rfl⟩
  | .array element, middle, chains, ran => by
    obtain ⟨bound, made, same⟩ := except_bind_ok.1 ran
    cases same
    obtain ⟨result, again, once⟩ := bindWith_bindWith element bound
      (fun id within => chains id (within.part (.element _))) made
    exact ⟨.array result, by rw [bindWith, again]; rfl, by rw [bindWith, once]; rfl⟩
  | .mdArray element rank, middle, chains, ran => by
    obtain ⟨bound, made, same⟩ := except_bind_ok.1 ran
    cases same
    obtain ⟨result, again, once⟩ := bindWith_bindWith element bound
      (fun id within => chains id (within.part (.mdElement _ rank))) made
    exact ⟨.mdArray result rank, by rw [bindWith, again]; rfl, by rw [bindWith, once]; rfl⟩
  | .pointer pointee, middle, chains, ran => by
    obtain ⟨bound, made, same⟩ := except_bind_ok.1 ran
    cases same
    obtain ⟨result, again, once⟩ := bindWith_bindWith pointee bound
      (fun id within => chains id (within.part (.pointee _))) made
    exact ⟨.pointer result, by rw [bindWith, again]; rfl, by rw [bindWith, once]; rfl⟩
  | .voidPointer, middle, _, ran => by
    cases ran
    exact ⟨.voidPointer, rfl, rfl⟩
  | .genericParam id, middle, chains, ran => by
    obtain ⟨answer, found, same⟩ := except_bind_ok.1 ran
    cases same
    obtain ⟨first, second, rfl, again, once⟩ := chains id .whole answer found
    exact ⟨second, again, by rw [bindWith, once]; rfl⟩

theorem bindAll_bindAll : ∀ args middle : List TypeNode,
    (∀ a ∈ args, ∀ id, Within (.genericParam id) a → Chains f g h id) →
    bindAll f args = .ok middle →
    ∃ results, bindAll g middle = .ok results ∧ bindAll h args = .ok results
  | [], middle, _, ran => by
    cases ran
    exact ⟨[], rfl, rfl⟩
  | a :: args, middle, chains, ran => by
    obtain ⟨first, made, rest⟩ := except_bind_ok.1 ran
    obtain ⟨others, further, same⟩ := except_bind_ok.1 rest
    cases same
    obtain ⟨result, again, once⟩ := bindWith_bindWith a first (chains a List.mem_cons_self) made
    obtain ⟨results, againAll, onceAll⟩ := bindAll_bindAll args others
      (fun other member => chains other (List.mem_cons_of_mem _ member)) further
    refine ⟨result :: results, ?_, ?_⟩
    · simp [bindAll, again, againAll, bind, Except.bind, pure, Except.pure]
    · simp [bindAll, once, onceAll, bind, Except.bind, pure, Except.pure]

end

end

end TypeNode

def GenericArgs.both (types methods : List TypeNode) : GenericArgs where
  typeArgs := some types
  methodArgs := some methods

theorem GenericParam.Loaded.argument {p : GenericParam} (loaded : p.Loaded) {args : GenericArgs}
    {nodes : List TypeNode} (given : args.level p.level = some nodes) {answer : Option TypeNode}
    (found : args.argument p = .ok answer) :
    nodes.length = p.ownerArity ∧ ∃ inside : p.number < nodes.length,
      answer = some nodes[p.number] := by
  simp only [GenericArgs.argument, given] at found
  split at found
  · cases found
  next counted =>
    have length : nodes.length = p.ownerArity := Decidable.not_not.1 counted
    have inside : p.number < nodes.length := length ▸ loaded.number_lt
    cases found
    exact ⟨length, inside, List.getElem?_eq_getElem inside⟩

namespace TypeNode

section
variable {param : GenericParamId → Except Error GenericParam} {node : TypeNode}

theorem closed_bindParams (loaded : ∀ id, Within (.genericParam id) node →
      ∀ p, param id = .ok p → p.Loaded) {types methods : List TypeNode} {result : TypeNode}
    (closed : ∀ a ∈ types ++ methods, a.Closed)
    (ran : node.bindParams param (.both types methods) = .ok result) : result.Closed := by
  intro id within
  obtain ⟨own, answer, inside, answered, within⟩ := within_bindWith node result ran id within
  obtain ⟨p, known, found⟩ := except_bind_ok.1 answered
  obtain ⟨nodes, given, part⟩ : ∃ nodes,
      (GenericArgs.both types methods).level p.level = some nodes ∧
      nodes ⊆ types ++ methods := by
    cases p.level with
    | type => exact ⟨types, rfl, List.subset_append_left _ _⟩
    | method => exact ⟨methods, rfl, List.subset_append_right _ _⟩
  obtain ⟨_, within', rfl⟩ := (loaded own inside p known).argument given found
  exact closed _ (part (List.getElem_mem within')) id within

theorem chains_argument {id : GenericParamId} (loaded : ∀ p, param id = .ok p → p.Loaded)
    {types methods boundTypes boundMethods : List TypeNode} {further : GenericArgs}
    (typesBound : types.mapM (·.bindParams param further) = .ok boundTypes)
    (methodsBound : methods.mapM (·.bindParams param further) = .ok boundMethods) :
    Chains (fun id => do (GenericArgs.both types methods).argument (← param id))
      (fun id => do further.argument (← param id))
      (fun id => do (GenericArgs.both boundTypes boundMethods).argument (← param id)) id := by
  intro answer answered
  obtain ⟨p, known, found⟩ := except_bind_ok.1 answered
  obtain ⟨nodes, bound, given, givenBound, each⟩ : ∃ nodes bound,
      (GenericArgs.both types methods).level p.level = some nodes ∧
      (GenericArgs.both boundTypes boundMethods).level p.level = some bound ∧
      List.Forall₂ (fun a b => a.bindParams param further = .ok b) nodes bound := by
    cases p.level with
    | type => exact ⟨types, boundTypes, rfl, rfl, mapM_ok typesBound⟩
    | method => exact ⟨methods, boundMethods, rfl, rfl, mapM_ok methodsBound⟩
  obtain ⟨counted, inside, rfl⟩ := (loaded p known).argument given found
  obtain ⟨same, each⟩ := List.forall₂_iff_get.1 each
  refine ⟨nodes[p.number], bound[p.number], rfl, each p.number inside (same ▸ inside), ?_⟩
  have there : bound.length = p.ownerArity := same ▸ counted
  simp only [known, bind, Except.bind, GenericArgs.argument, givenBound, there, ne_eq,
    not_true_eq_false, if_false, List.getElem?_eq_getElem (same ▸ inside)]

end

/-- How the arguments for generic parameters act on a node. -/
structure SubstitutionLaws (param : GenericParamId → Except Error GenericParam)
    (node : TypeNode) : Prop where
  unchanged : node.Closed → ∀ args, node.bindParams param args = .ok node
  closed : ∀ {types methods result}, (∀ a ∈ types ++ methods, a.Closed) →
    node.bindParams param (.both types methods) = .ok result → result.Closed
  composed : ∀ {types methods middle further boundTypes boundMethods},
    node.bindParams param (.both types methods) = .ok middle →
    types.mapM (·.bindParams param further) = .ok boundTypes →
    methods.mapM (·.bindParams param further) = .ok boundMethods →
    ∃ result, middle.bindParams param further = .ok result ∧
      node.bindParams param (.both boundTypes boundMethods) = .ok result

/-- The laws hold for every node whose parameters are those of tables, as far as they live. -/
theorem bindParams_laws (s : Session) (node : TypeNode)
    (loaded : ∀ id, Within (.genericParam id) node → ∀ p, s.liveParam id = .ok p → p.Loaded) :
    node.SubstitutionLaws s.liveParam where
  unchanged closed _ := bindWith_stays node fun id within => absurd within (closed id)
  closed := closed_bindParams loaded
  composed ran typesBound methodsBound :=
    bindWith_bindWith node _ (fun id within =>
      chains_argument (loaded id within) typesBound methodsBound) ran

end TypeNode

def parametersImage : ByteArray := image [
  ("#~", tableStream [
    (.module, [[0, 0, 0, 0, 0, 0, 0, 0, 0, 0]]),
    (.typeDef, [
      [0, 0, 0, 0, 0, 0, 0, 0, 0, 0, 1, 0, 1, 0],
      [0, 0, 0, 0, 1, 0, 0, 0, 0, 0, 1, 0, 1, 0]]),
    (.methodDef, [[0, 0, 0, 0, 0, 0, 0, 0, 0, 0, 0, 0, 1, 0]]),
    (.genericParam, [
      [0, 0, 0, 0, 3, 0, 5, 0],
      [0, 0, 0, 0, 4, 0, 3, 0]])] [.genericParam]),
  ("#Strings", stringHeap ["L", "T", "U"])]

def parametersType : TypeId := ⟨⟨0⟩, 2⟩

def parametersMethod : MethodId := ⟨parametersType, 0⟩

def typeParamId : GenericParamId := ⟨.type parametersType, 0⟩

def methodParamId : GenericParamId := ⟨.method parametersMethod, 0⟩

def pairNode : TypeNode :=
  .bound .class_ ⟨⟨1⟩, 2⟩ [.genericParam typeParamId, .array (.genericParam methodParamId)]

def parametersSession (ofType ofMethod : GenericParam) : Session :=
  ((Session.new none 0).store (.genericParams (.type parametersType)) [ofType]).store
    (.genericParams (.method parametersMethod)) [ofMethod]

theorem loaded_parameters : ∃ ofType ofMethod : GenericParam, ofType.Loaded ∧ ofMethod.Loaded ∧
    (ofType.level, ofType.number, ofType.ownerArity) = (.type, 0, 1) ∧
    (ofMethod.level, ofMethod.number, ofMethod.ownerArity) = (.method, 0, 1) := by
  let fields (p : GenericParam) := (p.level, p.number, p.ownerArity)
  have read : ((Module.read parametersImage).bind fun m => do
      let ofType ← m.genericParams (.type parametersType) ⟨0x02000002⟩
      let ofMethod ← m.genericParams (.method parametersMethod) ⟨0x06000001⟩
      return (ofType, ofMethod)).toOption.map
        (fun both => (both.1.map fields, both.2.map fields)) =
      some ([(.type, 0, 1)], [(.method, 0, 1)]) := by decide +kernel
  obtain ⟨⟨types, methods⟩, known, listed⟩ := Option.map_eq_some_iff.1 read
  obtain ⟨m, _, made⟩ := except_bind_ok.1 (except_toOption_some.1 known)
  obtain ⟨_, readTypes, made⟩ := except_bind_ok.1 made
  obtain ⟨_, readMethods, same⟩ := except_bind_ok.1 made
  cases same
  obtain ⟨ofType, _, rfl, typeFields, _⟩ := List.map_eq_cons_iff.1 (congrArg Prod.fst listed)
  obtain ⟨ofMethod, _, rfl, methodFields, _⟩ := List.map_eq_cons_iff.1 (congrArg Prod.snd listed)
  have typeLoaded : ofType.Loaded := ⟨m, _, _, _, readTypes, List.mem_cons_self⟩
  have methodLoaded : ofMethod.Loaded := ⟨m, _, _, _, readMethods, List.mem_cons_self⟩
  exact ⟨ofType, ofMethod, typeLoaded, methodLoaded, typeFields, methodFields⟩

theorem typeLives_of_context {s : Session} (lives : s.contextLives = true) (t : TypeId) :
    s.typeLives t = true := by
  have held : s.typeHeld t = true := by simp [Session.typeHeld, Session.assemblyLives, lives]
  unfold Session.typeLives
  generalize ((s.context.assembly? t.assembly).map (·.typeCount)).getD 0 = levels
  cases levels <;> simp [Session.typeLivesWithin, held]

theorem liveParam_parameters (ofType ofMethod : GenericParam) :
    (parametersSession ofType ofMethod).liveParam typeParamId = .ok ofType ∧
      (parametersSession ofType ofMethod).liveParam methodParamId = .ok ofMethod := by
  have lives := typeLives_of_context (s := parametersSession ofType ofMethod) rfl parametersType
  have types : (parametersSession ofType ofMethod).value? (.genericParams (.type parametersType)) =
      some [ofType] := by
    simp [parametersSession]
  have methods : (parametersSession ofType ofMethod).value?
      (.genericParams (.method parametersMethod)) = some [ofMethod] := by
    simp [parametersSession]
  constructor
  · simp [Session.liveParam, Session.whileAlive, Session.genericOwnerLives, typeParamId, types,
      lives]
  · have methodLives : (parametersSession ofType ofMethod).methodLives parametersMethod = true := by
      simp [Session.methodLives, parametersMethod, lives]
    simp [Session.liveParam, Session.whileAlive, Session.genericOwnerLives, methodParamId, methods,
      methodLives]

theorem within_pairNode {id : GenericParamId}
    (within : TypeNode.Within (.genericParam id) pairNode) :
    id = typeParamId ∨ id = methodParamId := by
  cases within with
  | part within inside =>
    cases inside with
    | argument member =>
      simp only [List.mem_cons, List.not_mem_nil, or_false] at member
      rcases member with rfl | rfl
      · cases within with
        | whole => exact .inl rfl
        | part _ inside => cases inside
      · cases within with
        | part within inside =>
          cases inside
          cases within with
          | whole => exact .inr rfl
          | part _ inside => cases inside

theorem bindParams_laws_pair : ∃ s : Session,
    (∀ id, TypeNode.Within (.genericParam id) pairNode → ∃ p, s.liveParam id = .ok p ∧ p.Loaded) ∧
    pairNode.SubstitutionLaws s.liveParam ∧
    pairNode.bindParams s.liveParam (.both [.voidPointer] [.array .voidPointer]) =
      .ok (.bound .class_ ⟨⟨1⟩, 2⟩ [.voidPointer, .array (.array .voidPointer)]) := by
  obtain ⟨ofType, ofMethod, typeLoaded, methodLoaded, typeFields, methodFields⟩ :=
    loaded_parameters
  simp only [Prod.mk.injEq] at typeFields methodFields
  obtain ⟨liveType, liveMethod⟩ := liveParam_parameters ofType ofMethod
  have live : ∀ id, TypeNode.Within (.genericParam id) pairNode →
      ∃ p, (parametersSession ofType ofMethod).liveParam id = .ok p ∧ p.Loaded := by
    intro id within
    rcases within_pairNode within with rfl | rfl
    · exact ⟨ofType, liveType, typeLoaded⟩
    · exact ⟨ofMethod, liveMethod, methodLoaded⟩
  refine ⟨parametersSession ofType ofMethod, live, TypeNode.bindParams_laws _ _ ?_, ?_⟩
  · intro id within p known
    obtain ⟨q, known', loaded⟩ := live id within
    obtain rfl : q = p := by simpa [known'] using known
    exact loaded
  · simp [pairNode, TypeNode.bindParams, TypeNode.bindWith, TypeNode.bindAll, liveType, liveMethod,
      GenericArgs.argument, GenericArgs.level, GenericArgs.both, typeFields, methodFields, bind,
      Except.bind, pure, Except.pure]

end CliMetadata
