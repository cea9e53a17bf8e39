import CliMetadata.Binding.Members
import CliMetadata.Proofs.Binding.Cycles

set_option autoImplicit false

namespace CliMetadata

namespace Binding

theorem settles_type (a : AssemblyId) (signature : TypeSignature) (scope : GenericScope) :
    Settles (type a signature scope) := by
  apply (settles_assembly a).bind
  intro assembly
  dsimp only
  rw [← answered_typeInquiry]
  exact Inquiry.settles_answered (settles_namedTypeWithin (fun _ => .throw _) _) _

theorem settles_told {slot : Slot} (a : AssemblyId) (told : Assembly → Except Error slot.Value) :
    Settles (cell slot do
      let assembly ← liveAssembly a
      lift (told assembly)) :=
  .cell ((settles_liveAssembly a).growing.bind fun _ => (Settles.lift _).growing)

end Binding

open Binding

namespace TypeDefinition

variable (t : TypeDefinition)

theorem settles_methods : Settles t.methods := settles_told _ _

theorem settles_fields : Settles t.fields := settles_told _ _

theorem settles_properties : Settles t.properties := settles_told _ _

theorem settles_events : Settles t.events := settles_told _ _

end TypeDefinition

namespace Binding

theorem settles_declaringType (t : TypeId) : Settles (declaringType t) :=
  (settles_liveAssembly t.assembly).bind fun _ => settles_definition _ _

theorem settles_method (a : AssemblyId) (rid : Nat) : Settles (method a rid) := by
  unfold method
  apply (settles_assembly a).bind
  intro assembly
  apply (Settles.lift _).bind
  intro owners
  split
  · exact .throw _
  apply (settles_definition a _).bind
  intro t
  apply t.settles_methods.bind
  intro methods
  split
  · exact .pure _
  · exact .throw _

theorem settles_semanticMethods (a : AssemblyId) (association : Token) :
    Settles (semanticMethods a association) :=
  (settles_assembly a).bind fun _ => (Settles.lift _).bind fun _ =>
    .mapM (fun _ => (settles_method a _).bind fun _ => .pure _) _

end Binding

namespace Method

variable (m : Method)

theorem settles_methodSignature : Settles m.methodSignature := settles_told _ _

theorem settles_genericParams : Settles m.genericParams := settles_told _ _

theorem settles_genericArity : Settles m.genericArity :=
  m.settles_genericParams.bind fun _ => .pure _

theorem settles_arity : Settles m.arity := m.settles_methodSignature.bind fun _ => .pure _

theorem settles_genericScope : Settles m.genericScope :=
  (settles_declaringType _).bind fun t => t.settles_genericParams.bind fun _ =>
    m.settles_genericParams.bind fun _ => .pure _

theorem settles_paramRows : Settles m.paramRows :=
  (settles_liveAssembly _).bind fun _ => .lift _

theorem settles_returnParam : Settles m.returnParam := by
  refine .cell (Settles.growing ?_)
  apply (settles_liveAssembly _).bind
  intro assembly
  apply m.settles_genericScope.bind
  intro scope
  apply m.settles_paramRows.bind
  intro rows
  apply m.settles_methodSignature.bind
  intro signature
  exact (settles_type _ _ _).bind fun _ => .pure _

theorem settles_paramAt (assembly : Assembly) (scope : GenericScope) (index : Nat)
    (signature : ParamSignature) (row : Option ParamRow) :
    Settles (m.paramAt assembly scope index signature row) := by
  unfold paramAt
  dsimp only
  split
  · split
    · exact (Settles.map _ (.lift _)).bind fun _ => (settles_type ..).bind fun _ => .pure _
    · exact (Settles.pure _).bind fun _ => (settles_type ..).bind fun _ => .pure _
  · exact (Settles.pure _).bind fun _ => (settles_type ..).bind fun _ => .pure _

theorem settles_params : Settles m.params := by
  refine .cell (Settles.growing ?_)
  apply (settles_liveAssembly _).bind
  intro assembly
  apply m.settles_genericScope.bind
  intro scope
  apply m.settles_paramRows.bind
  intro rows
  apply m.settles_methodSignature.bind
  intro signature
  exact .mapM (fun _ => m.settles_paramAt ..) _

end Method

namespace Property

variable (p : Property)

theorem settles_accessors : Settles p.accessors := by
  refine .cell (Settles.growing ?_)
  apply (settles_liveAssembly _).bind
  intro assembly
  apply (settles_semanticMethods _ _).bind
  intro methods
  refine .foldlM (fun accessors (semantics, m) => ?_) methods _
  dsimp only
  split
  · exact .pure _
  · exact .throw _

theorem settles_primary? : Settles p.primary? := p.settles_accessors.bind fun _ => .pure _

theorem settles_visibility : Settles p.visibility := p.settles_primary?.bind fun _ => .pure _

theorem settles_isStatic : Settles p.isStatic := p.settles_primary?.bind fun _ => .pure _

end Property

namespace Event

variable (e : Event)

theorem settles_accessors : Settles e.accessors := by
  refine .cell (Settles.growing ?_)
  apply (settles_liveAssembly _).bind
  intro assembly
  apply (settles_semanticMethods _ _).bind
  intro methods
  refine .foldlM (fun accessors (semantics, m) => ?_) methods _
  dsimp only
  split
  · exact .pure _
  · exact .throw _

theorem settles_primary? : Settles e.primary? := e.settles_accessors.bind fun _ => .pure _

theorem settles_visibility : Settles e.visibility := e.settles_primary?.bind fun _ => .pure _

theorem settles_isStatic : Settles e.isStatic := e.settles_primary?.bind fun _ => .pure _

end Event

end CliMetadata
