import CliMetadata.Proofs.Binding.Settled

set_option autoImplicit false

namespace CliMetadata

namespace TypeNode

inductive Part : TypeNode → TypeNode → Prop
  | argument {kind : DefinitionKind} {d : TypeId} {args : List TypeNode} {a : TypeNode}
    (member : a ∈ args) : Part a (.bound kind d args)
  | element (element : TypeNode) : Part element (.array element)
  | mdElement (element : TypeNode) (rank : Nat) : Part element (.mdArray element rank)
  | pointee (pointee : TypeNode) : Part pointee (.pointer pointee)

/-- The first node is the second or lies anywhere inside it. -/
inductive Within (inner : TypeNode) : TypeNode → Prop
  | whole : Within inner inner
  | part {part node : TypeNode} (within : Within inner part) (inside : Part part node) :
    Within inner node

end TypeNode

namespace Session

def HasArity (s : Session) (d : TypeId) (arity : Nat) : Prop :=
  ∃ params, s.value? (.genericParams (.type d)) = some params ∧ params.length = arity

theorem HasArity.genericArity {s : Session} {t : TypeDefinition} {arity : Nat}
    (has : s.HasArity t.id arity) : t.genericArity s = .ok arity s := by
  obtain ⟨params, there, rfl⟩ := has
  unfold TypeDefinition.genericArity TypeDefinition.genericParams
  rw [bind_after_ok (Binding.cell_of_value there)]
  rfl

theorem HasArity.of_genericArity {s s' : Session} {t : TypeDefinition} {arity : Nat}
    (ran : t.genericArity s = .ok arity s') : s'.HasArity t.id arity := by
  obtain ⟨params, between, fetched, counted⟩ := ok_of_bind_ok ran
  cases counted
  exact ⟨params, Binding.value?_of_cell_ok fetched, rfl⟩

def Retains (s s' : Session) : Prop :=
  ∀ slot value, s.value? slot = some value → s'.value? slot = some value

theorem HasArity.retained {s s' : Session} (retains : s.Retains s') {d : TypeId} {arity : Nat}
    (has : s.HasArity d arity) : s'.HasArity d arity := by
  obtain ⟨params, there, counted⟩ := has
  exact ⟨params, retains _ _ there, counted⟩

end Session

namespace TypeNode

/-- Every bound type within the node has as many arguments as its definition has parameters. -/
def Fits (s : Session) (node : TypeNode) : Prop :=
  ∀ ⦃kind d args⦄, Within (.bound kind d args) node → s.HasArity d args.length

namespace Fits

variable {s s' : Session}

theorem retained (retains : s.Retains s') {node : TypeNode} (fits : node.Fits s) : node.Fits s' :=
  fun _ _ _ within => (fits within).retained retains

theorem part {part node : TypeNode} (fits : node.Fits s) (inside : Part part node) : part.Fits s :=
  fun _ _ _ within => fits (within.part inside)

theorem of_parts {node : TypeNode} (parts : ∀ part, Part part node → part.Fits s)
    (own : ∀ kind d args, node = .bound kind d args → s.HasArity d args.length) : node.Fits s := by
  intro kind d args within
  cases within with
  | whole => exact own kind d args rfl
  | part within inside => exact parts _ inside within

theorem bound {d : TypeId} {args : List TypeNode} (kind : DefinitionKind)
    (has : s.HasArity d args.length) (each : ∀ a ∈ args, Fits s a) :
    Fits s (.bound kind d args) := by
  refine of_parts ?_ ?_
  · intro part inside
    cases inside with
    | argument member => exact each part member
  · intro _ _ _ same
    cases same
    exact has

theorem array {element : TypeNode} (fits : element.Fits s) : Fits s (.array element) := by
  refine of_parts ?_ fun _ _ _ => nofun
  intro part inside
  cases inside
  exact fits

theorem mdArray {element : TypeNode} (fits : element.Fits s) (rank : Nat) :
    Fits s (.mdArray element rank) := by
  refine of_parts ?_ fun _ _ _ => nofun
  intro part inside
  cases inside
  exact fits

theorem pointer {pointee : TypeNode} (fits : pointee.Fits s) : Fits s (.pointer pointee) := by
  refine of_parts ?_ fun _ _ _ => nofun
  intro part inside
  cases inside
  exact fits

theorem voidPointer : Fits s .voidPointer :=
  of_parts (fun _ inside => nomatch inside) fun _ _ _ => nofun

theorem genericParam (id : GenericParamId) : Fits s (.genericParam id) :=
  of_parts (fun _ inside => nomatch inside) fun _ _ _ => nofun

end Fits

end TypeNode

end CliMetadata
