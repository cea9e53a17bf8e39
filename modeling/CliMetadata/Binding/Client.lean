import CliMetadata.Binding.Attributes
import CliMetadata.Binding.Diagnostic

set_option autoImplicit false

namespace CliMetadata.Binding

def client : Binding Client := do return (← get).client

def modifyClient (f : Client → Client) : Binding Unit :=
  modify fun s => s.withClient (f s.client)

def holdingContext : Binding Unit := do
  if !(← client).holdsContext then
    throw .entityDropped

def slotOf (a : AssemblyId) : Binding Nat := do
  let slots := (← client).assemblies
  match slots.findIdx? (· == some a) with
  | some i => return i
  | none =>
    modifyClient fun c => { c with assemblies := c.assemblies ++ [some a] }
    return slots.length

def inSlot (slot : Nat) : Binding AssemblyId := do
  match ((← client).assemblies[slot]?).join with
  | some a => return a
  | none => throw .entityDropped

def dropAssembly (slot : Nat) : Binding Unit :=
  modifyClient fun c => { c with assemblies := c.assemblies.set slot none }

def dropContext : Binding Unit := modifyClient fun c => { c with holdsContext := false }

def load (m : Module) : Binding AssemblyId := do
  holdingContext
  loading (Loading.load m)

def resolve (identity : AssemblyIdentity) (flags : Nat) : Binding AssemblyId := do
  holdingContext
  resolveAssembly identity flags

def findAssembly (identity : AssemblyIdentity) : Binding (Option AssemblyId) := do
  holdingContext
  return (← get).context.find? identity

def identities : Binding (List AssemblyIdentity) := do
  holdingContext
  return (← get).context.identities

def contextCoreLibrary : Binding (Option AssemblyId) := do
  holdingContext
  return (← get).context.coreLibrary?

def requests : Binding (List (AssemblyIdentity × Nat)) := do
  return (← get).context.requests.reverse

def keep (t : TypeDefinition) : Binding Nat := do
  let number := (← client).definitions.length
  modifyClient fun c => { c with definitions := c.definitions ++ [t] }
  return number

def kept (number : Nat) : Binding TypeDefinition := do
  match (← client).definitions[number]? with
  | some t => return t
  | none => throw .entityDropped

def keepNode (node : TypeNode) : Binding Nat := do
  let number := (← client).nodes.length
  modifyClient fun c => { c with nodes := c.nodes ++ [node] }
  return number

def keptNode (number : Nat) : Binding TypeNode := do
  match (← client).nodes[number]? with
  | some node => return node
  | none => throw .entityDropped

def bindParams (node : TypeNode) (args : GenericArgs) : Binding TypeNode :=
  view fun s => node.bindParams s.liveParam args

def bindMemberType (owner : BoundType) (node : TypeNode) : Binding TypeNode :=
  view fun s => owner.bindMemberType s.liveParam node

def bindNamed (node : TypeNode) (name : String) (argument : TypeNode) :
    Binding (TypeNode × List String) :=
  view fun s => do
    let binder (id : GenericParamId) : StateT (List String) (Except Error) (Option TypeNode) := do
      let p ← (s.liveParam id : Except Error GenericParam)
      modify (· ++ [p.name])
      return if p.name == name then some argument else none
    (node.bindWith binder).run []

end CliMetadata.Binding
