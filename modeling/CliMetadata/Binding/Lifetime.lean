import CliMetadata.Binding.Session

/-!
Who keeps what alive. The context keeps its assemblies, an assembly keeps its types and what its
references were bound to, and a type keeps its members and the types inside it. The client keeps
what it holds. All other links, those of nodes and attributes among them, find what they name only
as long as something keeps it.
-/

set_option autoImplicit false

namespace CliMetadata.Session

def contextLives (s : Session) : Bool :=
  s.client.holdsContext || s.context.resolver.any (·.keepsContext)

def assemblyLives (s : Session) (id : AssemblyId) : Bool :=
  s.contextLives || s.client.assemblies.contains (some id)

def liveAssemblies (s : Session) : List (AssemblyId × Assembly) :=
  s.context.assemblies.zipIdx.filterMap fun (a, i) =>
    if s.assemblyLives ⟨i⟩ then some (⟨i⟩, a) else none

def rids (a : Assembly) (t : Table) : List Nat := List.range' 1 (a.module.tables.rows t)

def typeReferenced (s : Session) (t : TypeId) : Bool :=
  s.liveAssemblies.any fun (id, a) => (rids a .typeRef).any fun rid =>
    ((s.value? (.typeRef id rid)).map (·.id)) == some t

def typeHeld (s : Session) (t : TypeId) : Bool :=
  s.assemblyLives t.assembly || s.client.definitions.any (·.id == t) || s.typeReferenced t

def heldBy? (s : Session) (t : TypeId) : Option TypeId := do
  let definition ← s.value? (.definition t)
  let outer : TypeId := ⟨t.assembly, ← definition.enclosing⟩
  let nested ← s.value? (.nestedTypes outer)
  if nested.any (·.id == t) then some outer else none

def typeLivesWithin (s : Session) : (levels : Nat) → TypeId → Bool
  | 0, t => s.typeHeld t
  | levels + 1, t => s.typeHeld t || (s.heldBy? t).any (s.typeLivesWithin levels)

def typeLives (s : Session) (t : TypeId) : Bool :=
  s.typeLivesWithin (((s.context.assembly? t.assembly).map (·.typeCount)).getD 0) t

def methodReferenced (s : Session) (m : MethodId) : Bool :=
  s.liveAssemblies.any fun (id, a) => (rids a .memberRef).any fun rid =>
    ((s.value? (.memberRef id rid)).map (·.id)) == some m

def accessorsOf (s : Session) (t : TypeId) : List Method :=
  let properties := ((s.value? (.properties t)).getD []).filterMap fun p =>
    (s.value? (.propertyAccessors p.id)).map (·.all)
  let events := ((s.value? (.events t)).getD []).filterMap fun e =>
    (s.value? (.eventAccessors e.id)).map (·.all)
  properties.flatten ++ events.flatten

def methodIsAccessor (s : Session) (m : MethodId) : Bool :=
  match s.context.assembly? m.type.assembly with
  | none => false
  | some a => (rids a .typeDef).any fun rid =>
    let t : TypeId := ⟨m.type.assembly, rid⟩
    s.typeLives t && (s.accessorsOf t).any (·.id == m)

def methodLives (s : Session) (m : MethodId) : Bool :=
  s.typeLives m.type || s.methodReferenced m || s.methodIsAccessor m

def genericOwnerLives (s : Session) : GenericOwner → Bool
  | .type t => s.typeLives t
  | .method m => s.methodLives m

def whileAlive {α : Type} (lives : Bool) (value : Option α) : Except Error α :=
  match value with
  | some value => if lives then .ok value else .error .entityDropped
  | none => .error .entityDropped

def liveAssembly (s : Session) (id : AssemblyId) : Except Error Assembly :=
  whileAlive (s.assemblyLives id) (s.context.assembly? id)

def liveType (s : Session) (t : TypeId) : Except Error TypeDefinition :=
  whileAlive (s.typeLives t) (s.value? (.definition t))

def liveMethod (s : Session) (m : MethodId) : Except Error Method :=
  whileAlive (s.methodLives m) ((s.value? (.methods m.type)).bind (·[m.position]?))

def liveParam (s : Session) (p : GenericParamId) : Except Error GenericParam :=
  whileAlive (s.genericOwnerLives p.owner)
    ((s.value? (.genericParams p.owner)).bind (·[p.position]?))

end CliMetadata.Session

namespace CliMetadata.Binding

def liveAssembly (id : AssemblyId) : Binding Assembly := view (·.liveAssembly id)

def liveType (t : TypeId) : Binding TypeDefinition := view (·.liveType t)

def liveMethod (m : MethodId) : Binding Method := view (·.liveMethod m)

end CliMetadata.Binding
