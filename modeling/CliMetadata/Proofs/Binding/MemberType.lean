import CliMetadata.Proofs.Binding.Substitution

set_option autoImplicit false

namespace CliMetadata

namespace TypeNode

section
variable {f : GenericParamId → Except Error (Option TypeNode)}

theorem exists_bindWith_of_mem {args results : List TypeNode} (ran : bindAll f args = .ok results)
    {a : TypeNode} (member : a ∈ args) : ∃ result, a.bindWith f = .ok result := by
  induction args generalizing results with
  | nil => cases member
  | cons first args ih =>
    obtain ⟨result, made, rest⟩ := except_bind_ok.1 ran
    obtain ⟨others, further, -⟩ := except_bind_ok.1 rest
    rcases List.mem_cons.1 member with rfl | later
    · exact ⟨result, made⟩
    · exact ih further later

theorem exists_bindWith_part {part node result : TypeNode} (inside : Part part node)
    (ran : node.bindWith f = .ok result) : ∃ result, part.bindWith f = .ok result := by
  cases inside with
  | argument member =>
    obtain ⟨results, made, -⟩ := except_bind_ok.1 ran
    exact exists_bindWith_of_mem made member
  | element | mdElement | pointee =>
    obtain ⟨result, made, -⟩ := except_bind_ok.1 ran
    exact ⟨result, made⟩

theorem answered_of_bindWith {id : GenericParamId} {node result : TypeNode}
    (within : Within (.genericParam id) node) (ran : node.bindWith f = .ok result) :
    ∃ answer, f id = .ok answer := by
  induction within generalizing result with
  | whole =>
    obtain ⟨answer, found, -⟩ := except_bind_ok.1 ran
    exact ⟨answer, found⟩
  | part _ inside ih =>
    obtain ⟨result, made⟩ := exists_bindWith_part inside ran
    exact ih made

end

end TypeNode

/-- The parameter has no use for arguments at the level of types. -/
def GenericParam.TakesNone (p : GenericParam) : Prop := p.level = .type → p.ownerArity = 0

-- An owner of a parameter has at least that one, so that a type's parameter takes arguments.
theorem GenericParam.Loaded.takesNone_iff {p : GenericParam} (loaded : p.Loaded) :
    p.TakesNone ↔ p.level = .method := by
  unfold TakesNone
  have := loaded.number_lt
  cases p.level with
  | type =>
    have some_ : p.ownerArity ≠ 0 := by omega
    simp [some_]
  | method => simp

theorem GenericArgs.argument_nil {p : GenericParam} {answer : Option TypeNode} :
    ({ typeArgs := some [] } : GenericArgs).argument p = .ok answer ↔
      p.TakesNone ∧ answer = none := by
  unfold argument GenericParam.TakesNone
  cases p.level with
  | type =>
    by_cases alone : p.ownerArity = 0
    · simp [level, alone, eq_comm]
    · simp [level, Ne.symm alone, alone]
  | method => simp [level, eq_comm]

theorem TypeNode.bindParams_nil_iff {param : GenericParamId → Except Error GenericParam}
    {node : TypeNode} : node.bindParams param { typeArgs := some [] } = .ok node ↔
      ∀ id, Within (.genericParam id) node → ∃ p, param id = .ok p ∧ p.TakesNone := by
  constructor
  · intro ran id within
    obtain ⟨answer, found⟩ := answered_of_bindWith within ran
    obtain ⟨p, known, found⟩ := except_bind_ok.1 found
    exact ⟨p, known, (GenericArgs.argument_nil.1 found).1⟩
  · intro takesNone
    refine bindWith_stays node fun id within => ?_
    obtain ⟨p, known, none_⟩ := takesNone id within
    exact except_bind_ok.2 ⟨p, known, GenericArgs.argument_nil.2 ⟨none_, rfl⟩⟩

namespace Binding

/-- The type of a member is bound as any other node is, unless the bound type has no arguments and
the node has a parameter that takes some, or one that is gone. -/
theorem bindMemberType_eq_iff (s : Session) (b : BoundType) (node : TypeNode) :
    bindMemberType b node s = bindParams node { typeArgs := some b.args } s ↔
      b.args ≠ [] ∨ ∀ id, TypeNode.Within (.genericParam id) node →
        ∃ p, s.liveParam id = .ok p ∧ p.TakesNone := by
  rw [← TypeNode.bindParams_nil_iff]
  unfold bindMemberType bindParams view lift BoundType.bindMemberType
  cases args : b.args with
  | nil =>
    cases ran : node.bindParams s.liveParam { typeArgs := some [] } with
    | ok result => simp [ran, eq_comm]
    | error e => simp [ran]
  | cons first rest => simp

/-- A parameter of the tables stays in the type of a member that should not have it. -/
theorem bindMemberType_unbound : ¬∀ (s : Session) (b : BoundType) (node : TypeNode),
    (∀ id, TypeNode.Within (.genericParam id) node → ∃ p, s.liveParam id = .ok p ∧ p.Loaded) →
    bindMemberType b node s = bindParams node { typeArgs := some b.args } s := by
  intro always
  obtain ⟨ofType, ofMethod, loaded, -, fields, -⟩ := loaded_parameters
  have live := (liveParam_parameters ofType ofMethod).1
  have alone {id : GenericParamId}
      (within : TypeNode.Within (.genericParam id) (.genericParam typeParamId)) :
      id = typeParamId := by
    cases within with
    | whole => rfl
    | part _ inside => cases inside
  have same := always (parametersSession ofType ofMethod) ⟨.class_, ⟨⟨0⟩, 1⟩, []⟩
    (.genericParam typeParamId) fun id within => alone within ▸ ⟨ofType, live, loaded⟩
  rcases (bindMemberType_eq_iff _ _ _).1 same with given | takesNone
  · exact given rfl
  · obtain ⟨p, known, none_⟩ := takesNone typeParamId .whole
    cases live.symm.trans known
    simp only [Prod.mk.injEq] at fields
    cases fields.1.symm.trans (loaded.takesNone_iff.1 none_)

end Binding

end CliMetadata
