import CliMetadata.Proofs.Binding.Nodes

set_option autoImplicit false

namespace CliMetadata

namespace Session

/-- Between requests anything may happen that leaves values where they are, gives definitions as the
tables have them, at once, and binds no primitive type. -/
structure Elsewhere (s s' : Session) : Prop where
  retains : s.Retains s'
  definitions : ∀ id t, s'.value? (.definition id) = some t → s'.Holds (.definition id) t
  idle : ∀ id, .definition id ∉ s'.running
  primitives : ∀ a p, s'.value? (.primitive a p) = s.value? (.primitive a p)

theorem Elsewhere.sound {s s' : Session} (between : s.Elsewhere s') (sound : s.Sound) :
    s'.Sound := by
  intro slot value there
  cases slot with
  | definition id => exact between.definitions id value there
  | primitive a p =>
    have before := (between.primitives a p).symm.trans there
    exact TypeNode.Fits.retained between.retains (sound (.primitive a p) value before)
  | _ => trivial

end Session

namespace Binding

/-- What a client may ask for that has obtained some nodes. A binder may answer with any of these;
what it asks the library for itself, it asks for before. -/
inductive Request (nodes : List TypeNode) : Binding (Option TypeNode) → Prop
  | type (a : AssemblyId) (signature : TypeSignature) (scope : GenericScope) :
    Request nodes (some <$> Binding.type a signature scope)
  | named (a : AssemblyId) (token : Token) (scope : GenericScope) :
    Request nodes (namedType a token scope)
  | primitive (a : AssemblyId) (p : Primitive) : Request nodes (some <$> Binding.primitive a p)
  | bind (t : TypeDefinition) {args : List TypeNode} (obtained : ∀ a ∈ args, a ∈ nodes) :
    Request nodes ((fun b => some b.node) <$> t.bind args)
  | bindWith {node : TypeNode} (obtained : node ∈ nodes) {σ : Type} (state : σ)
    {binder : Session → GenericParamId → StateT σ (Except Error) (Option TypeNode)}
    (answers : ∀ s id before answer after,
      binder s id before = .ok (some answer, after) → answer ∈ nodes) :
    Request nodes (view fun s => some <$> (node.bindWith (binder s)).run' state)
  | bindParams {node : TypeNode} (obtained : node ∈ nodes) {args : GenericArgs}
    (given : ∀ level list, args.level level = some list → ∀ a ∈ list, a ∈ nodes) :
    Request nodes (some <$> Binding.bindParams node args)
  | bindMemberType {owner : BoundType} (owned : owner.node ∈ nodes) {node : TypeNode}
    (obtained : node ∈ nodes) : Request nodes (some <$> Binding.bindMemberType owner node)

end Binding

/-- The session, and the nodes that a client has obtained, after finitely many steps. -/
inductive Session.Obtains : Session → List TypeNode → Prop
  | start (resolver : Option Resolver) (limit : Nat) : Obtains (.new resolver limit) []
  | asked {s s' : Session} {nodes : List TypeNode} {x : Binding (Option TypeNode)}
    {node? : Option TypeNode} (before : s.Obtains nodes) (request : Binding.Request nodes x)
    (ran : x s = .ok node? s') : Obtains s' (node?.toList ++ nodes)
  | refused {s s' : Session} {nodes : List TypeNode} {x : Binding (Option TypeNode)} {e : Error}
    (before : s.Obtains nodes) (request : Binding.Request nodes x) (ran : x s = .error e s') :
    Obtains s' nodes
  | part {s : Session} {nodes : List TypeNode} {part node : TypeNode} (before : s.Obtains nodes)
    (obtained : node ∈ nodes) (inside : TypeNode.Part part node) : Obtains s (part :: nodes)
  | elsewhere {s s' : Session} {nodes : List TypeNode} (before : s.Obtains nodes)
    (between : s.Elsewhere s') : Obtains s' nodes

namespace Binding

theorem ensures_map {α β : Type} {x : Binding α} {s : Session} {post : α → Session → Prop}
    {other : β → Session → Prop} {f : α → β} (leads : Ensures x s post)
    (implies : ∀ value s', post value s' → other (f value) s') : Ensures (f <$> x) s other := by
  rw [← bind_pure_comp]
  exact leads.bind fun value s' _ holds => ensures_pure (implies value s' holds)

theorem Fitting.some {x : Binding TypeNode} (fitting : Fitting x) : Fitting? (some <$> x) :=
  fun s => ensures_map (fitting s) fun _ _ fits _ same => Option.some.inj same ▸ fits

theorem Request.fitting {nodes : List TypeNode} {x : Binding (Option TypeNode)}
    (request : Request nodes x) {s : Session} (fits : ∀ node ∈ nodes, node.Fits s) :
    Ensures x s fun node? s' => ∀ node, node? = .some node → node.Fits s' := by
  cases request with
  | type a signature scope => exact (fitting_type a signature scope).some s
  | named a token scope => exact fitting_namedType a token scope s
  | primitive a p => exact (fitting_primitive a p).some s
  | bind t obtained =>
    refine ensures_map (t.ensures_bind s fun a member => fits a (obtained a member)) ?_
    exact fun b s' fits _ same => Option.some.inj same ▸ fits
  | @bindWith node obtained σ state binder answers =>
    refine (ensures_view _).weaken fun node? s' _ seen other same => ?_
    obtain ⟨rfl, seen⟩ := seen
    subst same
    obtain ⟨result, given, same⟩ := except_map_ok.1 seen
    cases same
    obtain ⟨⟨_, final⟩, ran, rfl⟩ := except_map_ok.1 given
    refine TypeNode.fits_bindWith (.stateful σ) ?_ node (fits node obtained) _ _ final ran
    intro id before answer? after answered answer same
    subst same
    exact fits answer (answers _ id before answer after answered)
  | @bindParams node obtained args given =>
    refine ensures_map (ensures_view _) fun result s' seen other same => ?_
    obtain ⟨rfl, bound⟩ := seen
    cases same
    exact TypeNode.fits_bindParams (fits node obtained)
      (fun level list has a member => fits a (given level list has a member)) bound
  | @bindMemberType owner owned node obtained =>
    refine ensures_map (ensures_view _) fun result s' seen other same => ?_
    obtain ⟨rfl, bound⟩ := seen
    cases same
    exact TypeNode.fits_bindMemberType (fits _ owned) (fits node obtained) bound

end Binding

namespace Session.Obtains

variable {s : Session} {nodes : List TypeNode}

structure Invariant (s : Session) (nodes : List TypeNode) : Prop where
  sound : s.Sound
  idle : ∀ id, .definition id ∉ s.running
  fits : ∀ node ∈ nodes, node.Fits s

theorem Invariant.followed {s' : Session} (holds : Invariant s nodes) (follows : s.Follows s') :
    Invariant s' nodes where
  sound := follows.sound
  idle := by
    rw [follows.grows.running]
    exact holds.idle
  fits := fun node member => (holds.fits node member).retained follows.grows.values

theorem invariant (obtains : s.Obtains nodes) : Invariant s nodes := by
  induction obtains with
  | start resolver limit =>
    refine ⟨fun slot value there => ?_, fun _ => List.not_mem_nil, List.forall_mem_nil _⟩
    simp at there
  | @asked s s' nodes x node? before request ran ih =>
    obtain ⟨follows, gives⟩ := request.fitting ih.fits ih.sound
    rw [after_ok ran] at follows
    have later := ih.followed follows
    refine ⟨later.sound, later.idle, fun node member => ?_⟩
    rcases List.mem_append.1 member with new | old
    · exact gives node? s' ran node (Option.mem_toList.1 new)
    · exact later.fits node old
  | @refused s s' nodes x e before request ran ih =>
    obtain ⟨follows, _⟩ := request.fitting ih.fits ih.sound
    rw [after_error ran] at follows
    exact ih.followed follows
  | part before obtained inside ih =>
    exact ⟨ih.sound, ih.idle, List.forall_mem_cons.2 ⟨(ih.fits _ obtained).part inside, ih.fits⟩⟩
  | elsewhere before between ih =>
    refine ⟨between.sound ih.sound, between.idle, fun node member => ?_⟩
    exact (ih.fits node member).retained between.retains

/-- Every bound type within an obtained node has as many arguments as its definition has generic
parameters, and arguments of another number are refused. -/
theorem arguments_counted (obtains : s.Obtains nodes) :
    (∀ node ∈ nodes, ∀ kind (t : TypeDefinition) args,
      TypeNode.Within (.bound kind t.id args) node → t.genericArity s = .ok args.length s) ∧
    ∀ (t : TypeDefinition) args arity s', t.genericArity s = .ok arity s' → arity ≠ args.length →
      t.bind args s = .error (.genericArity arity args.length) s' := by
  refine ⟨fun node member kind t args within => ?_, fun t args arity s' counted different => ?_⟩
  · exact (obtains.invariant.fits node member within).genericArity
  · unfold TypeDefinition.bind
    rw [bind_after_ok counted]
    simp only [different, ne_eq, not_false_eq_true, if_true]
    rfl

theorem known {d : TypeId} (obtains : s.Obtains nodes) (params : List GenericParam)
    (unknown : s.value? (.genericParams (.type d)) = none) :
    Obtains (s.store (.genericParams (.type d)) params) nodes ∧
      HasArity (s.store (.genericParams (.type d)) params) d params.length := by
  have others (slot : Slot) (different : .genericParams (.type d) ≠ slot) :
      (s.store (.genericParams (.type d)) params).value? slot = s.value? slot := by
    simp [different]
  refine ⟨obtains.elsewhere ⟨?_, ?_, obtains.invariant.idle, fun _ _ => others _ (by simp)⟩, params,
    ?_, rfl⟩
  · intro slot value there
    have different : .genericParams (.type d) ≠ slot := by
      rintro rfl
      cases unknown.symm.trans there
    exact (others slot different).trans there
  · intro id t there
    have before := (others (.definition id) (by simp)).symm.trans there
    exact obtains.invariant.sound (.definition id) t before
  · simp

theorem bound {t : TypeDefinition} {args : List TypeNode} (obtains : s.Obtains nodes)
    (has : s.HasArity t.id args.length) (obtained : ∀ a ∈ args, a ∈ nodes) :
    s.Obtains (.bound t.kind t.id args :: nodes) := by
  have ran : t.bind args s = .ok ⟨t.kind, t.id, args⟩ s := by
    unfold TypeDefinition.bind
    rw [bind_after_ok has.genericArity]
    simp only [ne_eq, not_true_eq_false, if_false]
    rfl
  have asked : ((fun b => some b.node) <$> t.bind args) s =
      .ok (some (.bound t.kind t.id args)) s := by
    rw [← bind_pure_comp, bind_after_ok ran]
    rfl
  exact obtains.asked (.bind t obtained) asked

end Session.Obtains

def sampleItem : TypeDefinition where
  id := ⟨⟨0⟩, 1⟩
  token := ⟨0x02000001⟩
  kind := .class_
  flags := 0
  name := "Item"
  nameSpace := ""
  fullName := "Item"
  extends_ := ⟨.typeDef, 0⟩
  enclosing := none

def sampleList : TypeDefinition := { sampleItem with
  id := ⟨⟨0⟩, 2⟩, token := ⟨0x02000002⟩, name := "List`1", fullName := "List`1" }

def sampleParam : GenericParam where
  id := ⟨.type sampleList.id, 0⟩
  token := ⟨0x2A000001⟩
  owner := sampleList.token
  level := .type
  number := 0
  name := "T"
  flags := 0
  ownerArity := 1

def sampleItemNode : TypeNode := .bound .class_ sampleItem.id []

def sampleListNode : TypeNode := .bound .class_ sampleList.id [sampleItemNode]

theorem obtains_sampleList : ∃ s : Session, s.Obtains [sampleListNode, sampleItemNode] := by
  obtain ⟨started, itemArity⟩ := (Session.Obtains.start none 0).known (d := sampleItem.id) []
    (by simp)
  have first := started.bound (t := sampleItem) itemArity (List.forall_mem_nil _)
  have unknown : Cells.value? ((Session.new none 0).store (.genericParams (.type sampleItem.id)) [])
      (.genericParams (.type sampleList.id)) = none := by
    simp [sampleItem, sampleList]
  obtain ⟨further, listArity⟩ := first.known [sampleParam] unknown
  exact ⟨_, further.bound (t := sampleList) listArity fun _ member => member⟩

theorem arguments_counted_list : ∃ s : Session, s.Obtains [sampleListNode, sampleItemNode] ∧
    sampleList.genericArity s = .ok 1 s ∧ sampleItem.genericArity s = .ok 0 s ∧
    sampleList.bind [] s = .error (.genericArity 1 0) s := by
  obtain ⟨s, obtains⟩ := obtains_sampleList
  obtain ⟨counted, refused⟩ := obtains.arguments_counted
  have one := counted sampleListNode List.mem_cons_self .class_ sampleList [sampleItemNode] .whole
  have none := counted sampleListNode List.mem_cons_self .class_ sampleItem []
    (.part .whole (.argument List.mem_cons_self))
  exact ⟨s, obtains, one, none, refused sampleList [] 1 s one nofun⟩

end CliMetadata
