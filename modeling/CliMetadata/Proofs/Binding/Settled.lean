import CliMetadata.Proofs.Binding.Lifetime

set_option autoImplicit false

namespace CliMetadata

namespace Binding

theorem settles_definition (a : AssemblyId) (rid : Nat) : Settles (definition a rid) := by
  unfold definition
  apply (settles_assembly a).bind
  intro assembly
  dsimp only
  split
  · exact .thrown _ _
  · exact .cell (Settles.lift _).growing

theorem growing_resolveAssembly (identity : AssemblyIdentity) (flags : Nat) :
    Growing (resolveAssembly identity flags) := by
  intro s id s' ran
  unfold resolveAssembly at ran
  obtain ⟨_, _, got, ran⟩ := ok_of_bind_ok ran
  cases got
  dsimp only at ran
  split at ran
  · cases ran
  · unfold loading at ran
    have grown := Loading.growing_resolve s.rest.limit identity flags s.context
    split at ran
    next found =>
      cases ran
      rw [after_ok found] at grown
      exact ⟨fun _ _ there => there, rfl, grown, rfl⟩
    · cases ran

theorem settles_reference (a : AssemblyId) (rid : Nat) : Settles (reference a rid) := by
  unfold reference
  apply (settles_assembly a).bind
  intro assembly
  dsimp only
  split
  · exact .thrown _ _
  apply Settles.bind
  -- the cell keeps what the load context is asked for, of which only the growth is known
  · apply Settles.cell
    apply (Settles.lift _).growing.bind
    intro named
    split
    · exact (Settles.pure a).growing
    · exact growing_resolveAssembly _ _
  · exact fun target => (settles_liveAssembly target).bind fun _ => .pure target

theorem settles_coreLibrary (a : AssemblyId) : Settles (coreLibrary a) := by
  unfold coreLibrary
  apply (settles_assembly a).bind
  intro assembly
  apply Settles.bind
  · apply Settles.cell
    split
    · exact (Settles.pure a).growing
    apply (Settles.lift _).growing.bind
    intro rid?
    split
    · exact (settles_reference a _).growing
    -- the context may get a core library only later
    apply (growing_view _).bind
    intro core?
    split
    · exact (Settles.pure _).growing
    · exact (Settles.throw _).growing
  · exact fun core => (settles_liveAssembly core).bind fun _ => .pure core

theorem settles_definitionNamedWithin (left : Nat) (a : AssemblyId) (fullName : String) :
    Settles (definitionNamedWithin left a fullName) := by
  induction left generalizing a with
  | zero =>
    exact (settles_assembly a).bind fun _ => .throw _
  | succ left ih =>
    unfold definitionNamedWithin
    apply (settles_assembly a).bind
    intro assembly
    apply (Settles.lift _).bind
    intro rid?
    split
    · exact (settles_definition a _).bind fun _ => .pure _
    apply (Settles.lift _).bind
    intro implementation?
    split
    · exact .pure _
    split
    · exact (settles_reference a _).bind fun target => ih target
    · exact .pure _

theorem settles_definitionNamed (a : AssemblyId) (fullName : String) :
    Settles (definitionNamed a fullName) :=
  settles_definitionNamedWithin _ a fullName

theorem settles_requiredDefinition (a : AssemblyId) (fullName : String) :
    Settles (requiredDefinition a fullName) := by
  unfold requiredDefinition
  apply (settles_definitionNamed a fullName).bind
  intro found?
  split
  · exact .pure _
  · exact .throw _

end Binding

namespace TypeDefinition

open Binding

theorem settles_genericParams (t : TypeDefinition) : Settles t.genericParams := by
  unfold genericParams
  apply Settles.cell
  exact (settles_liveAssembly t.id.assembly).growing.bind fun _ => (Settles.lift _).growing

theorem settles_bind (t : TypeDefinition) (args : List TypeNode) : Settles (t.bind args) := by
  unfold TypeDefinition.bind genericArity
  apply Settles.bind
  · exact t.settles_genericParams.bind fun _ => .pure _
  intro expected
  dsimp only
  split
  · exact .thrown _ _
  · exact .pure _

theorem settles_bindOpen (t : TypeDefinition) : Settles t.bindOpen :=
  t.settles_genericParams.bind fun _ => t.settles_bind _

theorem settles_nestedTypes (t : TypeDefinition) : Settles t.nestedTypes := by
  unfold nestedTypes
  apply Settles.cell
  apply (settles_liveAssembly t.id.assembly).growing.bind
  intro assembly
  apply (Settles.lift _).growing.bind
  intro nesting
  exact (Settles.mapM (settles_definition t.id.assembly) _).growing

end TypeDefinition

theorem TypeNode.settles_definition? (node : TypeNode) : Binding.Settles node.definition? := by
  unfold TypeNode.definition?
  split
  · exact (Binding.settles_liveType _).bind fun _ => .pure _
  · exact .pure _

namespace Binding

theorem settles_primitive (a : AssemblyId) (p : Primitive) : Settles (primitive a p) := by
  unfold primitive
  apply Settles.cell
  apply (settles_coreLibrary a).growing.bind
  intro core
  apply (settles_definitionNamed core p.fullName).growing.bind
  intro found?
  split
  next t => exact ((t.settles_bind []).bind fun _ => .pure _).growing
  · exact ((settles_assembly core).bind fun _ => .throw _).growing

theorem growing_typeReferenceBy (a : AssemblyId) (assembly : Assembly)
    {outer : Nat → Binding TypeDefinition} (grows : ∀ rid, Growing (outer rid)) (rid : Nat) :
    Growing (typeReferenceBy a assembly outer rid) := by
  unfold typeReferenceBy
  apply (Settles.lift _).growing.bind
  intro row
  apply (Settles.lift _).growing.bind
  intro name
  apply (Settles.lift _).growing.bind
  intro nameSpace
  dsimp only
  split
  · apply (grows _).bind
    intro outer
    apply outer.settles_nestedTypes.growing.bind
    intro nested
    split
    · exact (Settles.pure _).growing
    · exact (Settles.throw _).growing
  split
  · apply (settles_reference a _).growing.bind
    exact fun home => (settles_requiredDefinition home _).growing
  · exact (settles_requiredDefinition a _).growing

theorem settles_typeReferenceWithin (a : AssemblyId) {beyond : Nat → Binding TypeDefinition}
    (settles : ∀ rid, Settles (beyond rid)) (levels rid : Nat) :
    Settles (typeReferenceWithin a beyond levels rid) := by
  induction levels generalizing rid with
  | zero => exact settles rid
  | succ levels ih =>
    unfold typeReferenceWithin
    apply (settles_assembly a).bind
    intro assembly
    dsimp only
    split
    · exact .thrown _ _
    · exact .cell (growing_typeReferenceBy a assembly (fun rid => (ih rid).growing) rid)

theorem settles_typeReference (a : AssemblyId) (rid : Nat) : Settles (typeReference a rid) :=
  (settles_assembly a).bind fun _ =>
    settles_typeReferenceWithin a (fun _ => .throw _) _ rid

theorem settles_specification (a : AssemblyId) (rid : Nat) : Settles (specification a rid) :=
  (settles_assembly a).bind fun _ => (Settles.lift _).bind fun _ => (Settles.lift _).bind fun _ =>
    .lift _

end Binding

end CliMetadata
