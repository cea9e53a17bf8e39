import CliMetadata.Attribute.Value
import CliMetadata.Binding.Member
import CliMetadata.Lazy.Cells
import CliMetadata.Loading.Context

set_option autoImplicit false

namespace CliMetadata

inductive AttributeHolder
  | assembly (id : AssemblyId)
  | type (id : TypeId)
  | method (id : MethodId)
  | field (id : FieldId)
  | property (id : PropertyId)
  | event (id : EventId)
  | returnParam (method : MethodId)
  | param (method : MethodId) (index : Nat)
  | genericParam (id : GenericParamId)
  | baseInterface (type : TypeId) (position : Nat)
  deriving DecidableEq, Repr, Hashable

/-- A custom attribute. One that was found for its holder has a place among the holder's
attributes; one that was looked up by token has none. -/
structure Attribute where
  assembly : AssemblyId
  place : Option (AttributeHolder × Nat)
  token : Token
  owner : Token
  constructor : MethodId
  kind : DefinitionKind
  type : TypeId
  value : ByteArray

inductive Slot
  | definition (type : TypeId)
  | reference (assembly : AssemblyId) (rid : Nat)
  | coreLibrary (assembly : AssemblyId)
  | primitive (assembly : AssemblyId) (p : Primitive)
  | typeRef (assembly : AssemblyId) (rid : Nat)
  | memberRef (assembly : AssemblyId) (rid : Nat)
  | layout (type : TypeId)
  | nestedTypes (type : TypeId)
  | genericParams (owner : GenericOwner)
  | constraints (param : GenericParamId)
  | base (type : TypeId)
  | baseInterfaces (type : TypeId)
  | methods (type : TypeId)
  | fields (type : TypeId)
  | properties (type : TypeId)
  | events (type : TypeId)
  | methodSignature (method : MethodId)
  | returnParam (method : MethodId)
  | params (method : MethodId)
  | paramDefault (method : MethodId) (index : Nat)
  | fieldType (field : FieldId)
  | fieldConstant (field : FieldId)
  | propertySignature (property : PropertyId)
  | propertyType (property : PropertyId)
  | indexParams (property : PropertyId)
  | propertyAccessors (property : PropertyId)
  | propertyDefault (property : PropertyId)
  | handlerType (event : EventId)
  | eventAccessors (event : EventId)
  | attributes (holder : AttributeHolder)
  | arguments (holder : AttributeHolder) (position : Nat)
  deriving DecidableEq, Repr, Hashable

@[reducible] def Slot.Value : Slot → Type
  | .definition _ => TypeDefinition
  | .reference .. => AssemblyId
  | .coreLibrary _ => AssemblyId
  | .primitive .. => TypeNode
  | .typeRef .. => TypeDefinition
  | .memberRef .. => Method
  | .layout _ => TypeLayout
  | .nestedTypes _ => List TypeDefinition
  | .genericParams _ => List GenericParam
  | .constraints _ => List TypeNode
  | .base _ => Option BoundType
  | .baseInterfaces _ => List BaseInterface
  | .methods _ => List Method
  | .fields _ => List Field
  | .properties _ => List Property
  | .events _ => List Event
  | .methodSignature _ => MethodSignature
  | .returnParam _ => ReturnParam
  | .params _ => List Param
  | .paramDefault .. => Option Constant
  | .fieldType _ => TypeNode
  | .fieldConstant _ => Option Constant
  | .propertySignature _ => PropertySignature
  | .propertyType _ => TypeNode
  | .indexParams _ => List TypeNode
  | .propertyAccessors _ => PropertyAccessors
  | .propertyDefault _ => Option Constant
  | .handlerType _ => Option TypeNode
  | .eventAccessors _ => EventAccessors
  | .attributes _ => List Attribute
  | .arguments .. => AttributeArguments

structure Client where
  holdsContext : Bool := true
  assemblies : List (Option AssemblyId) := []
  definitions : List TypeDefinition := []
  nodes : List TypeNode := []

structure World where
  context : LoadContext
  client : Client := {}
  -- How deep requests to a resolver may nest.
  limit : Nat

abbrev Session := Cells Slot Slot.Value World

abbrev Binding := EStateM Error Session

namespace Session

def new (resolver : Option Resolver) (limit : Nat) : Session :=
  { rest := { context := { resolver }, limit } }

def context (s : Session) : LoadContext := s.rest.context

def client (s : Session) : Client := s.rest.client

def withContext (s : Session) (context : LoadContext) : Session :=
  { s with rest := { s.rest with context } }

def withClient (s : Session) (client : Client) : Session :=
  { s with rest := { s.rest with client } }

end Session

namespace Binding

def cell (slot : Slot) (compute : Binding slot.Value) : Binding slot.Value :=
  Cells.fetch slot compute

def lift {α : Type} (outcome : Except Error α) : Binding α := fun s =>
  match outcome with
  | .ok value => .ok value s
  | .error e => .error e s

def view {α : Type} (f : Session → Except Error α) : Binding α := fun s => lift (f s) s

def loading {α : Type} (x : Loading α) : Binding α := fun s =>
  match x s.context with
  | .ok value c => .ok value (s.withContext c)
  | .error e c => .error e (s.withContext c)

def attempt {α : Type} (x : Binding α) : Binding (Except Error α) := fun s =>
  match x s with
  | .ok value s => .ok (.ok value) s
  | .error e s => .ok (.error e) s

def assembly (id : AssemblyId) : Binding Assembly :=
  view fun s => match s.context.assembly? id with
    | some a => .ok a
    | none => .error .entityDropped

end Binding

end CliMetadata
