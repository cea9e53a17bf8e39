import CliMetadata.Binding.Inheritance

set_option autoImplicit false

namespace CliMetadata

namespace TypeDefinition

def methods (t : TypeDefinition) : Binding (List Method) :=
  .cell (.methods t.id) do
    let assembly ← Binding.liveAssembly t.id.assembly
    Binding.lift (assembly.methods t)

def fields (t : TypeDefinition) : Binding (List Field) :=
  .cell (.fields t.id) do
    let assembly ← Binding.liveAssembly t.id.assembly
    Binding.lift (assembly.fields t)

def properties (t : TypeDefinition) : Binding (List Property) :=
  .cell (.properties t.id) do
    let assembly ← Binding.liveAssembly t.id.assembly
    Binding.lift (assembly.properties t)

def events (t : TypeDefinition) : Binding (List Event) :=
  .cell (.events t.id) do
    let assembly ← Binding.liveAssembly t.id.assembly
    Binding.lift (assembly.events t)

end TypeDefinition

namespace Binding

def declaringType (t : TypeId) : Binding TypeDefinition := do
  let _ ← liveAssembly t.assembly
  definition t.assembly t.rid

def method (a : AssemblyId) (rid : Nat) : Binding Method := do
  let assembly ← assembly a
  let owners ← lift assembly.methodOwners
  match owners.owner? rid with
  | none => throw (.malformed (.methodUnowned rid))
  | some owner =>
    let t ← definition a owner
    match (← t.methods).find? (·.rid == rid) with
    | some m => return m
    | none => throw (.malformed (.methodMissing rid))

def semanticMethods (a : AssemblyId) (association : Token) : Binding (List (Nat × Method)) := do
  let assembly ← assembly a
  let rows ← lift (assembly.module.rowsOf .methodSemantics association)
  (rows.map MethodSemanticsRow.ofRow).mapM fun row => do
    return (row.semantics, ← method a row.method)

end Binding

namespace Method

def declaringType (m : Method) : Binding TypeDefinition := Binding.declaringType m.id.type

def methodSignature (m : Method) : Binding MethodSignature :=
  .cell (.methodSignature m.id) do
    let assembly ← Binding.liveAssembly m.id.type.assembly
    Binding.lift (assembly.methodSignature m)

def genericParams (m : Method) : Binding (List GenericParam) :=
  .cell (.genericParams (.method m.id)) do
    let assembly ← Binding.liveAssembly m.id.type.assembly
    Binding.lift (assembly.module.genericParams (.method m.id) m.token)

def genericArity (m : Method) : Binding Nat := do return (← m.genericParams).length

def arity (m : Method) : Binding Nat := do return (← m.methodSignature).params.length

def genericScope (m : Method) : Binding GenericScope := do
  let t ← m.declaringType
  let typeParams ← t.genericParams
  let methodParams ← m.genericParams
  return { typeParams, methodParams }

def paramRows (m : Method) : Binding (List ParamRow) := do
  let assembly ← Binding.liveAssembly m.id.type.assembly
  Binding.lift (assembly.paramRows m)

def returnParam (m : Method) : Binding ReturnParam :=
  .cell (.returnParam m.id) do
    let _ ← Binding.liveAssembly m.id.type.assembly
    let scope ← m.genericScope
    let row := (← m.paramRows).find? (·.sequence == 0)
    let signature := (← m.methodSignature).returns
    let type ← Binding.type m.id.type.assembly signature.type scope
    return {
      method := m.id, token := row.map (·.token), type, byReference := signature.byReference }

def paramAt (m : Method) (assembly : Assembly) (scope : GenericScope) (index : Nat)
    (signature : ParamSignature) (row : Option ParamRow) : Binding Param := do
  let name ← match row with
    | some row =>
      if row.name ≠ 0 then some <$> Binding.lift (assembly.module.string row.name) else pure none
    | none => pure none
  let type ← Binding.type m.id.type.assembly signature.type scope
  return {
    method := m.id, index, token := row.map (·.token), name
    flags := (row.map (·.flags)).getD 0, type, byReference := signature.byReference }

def params (m : Method) : Binding (List Param) :=
  .cell (.params m.id) do
    let assembly ← Binding.liveAssembly m.id.type.assembly
    let scope ← m.genericScope
    let rows ← m.paramRows
    let signature ← m.methodSignature
    signature.params.zipIdx.mapM fun (p, index) =>
      m.paramAt assembly scope index p (rows.find? (·.sequence == index + 1))

end Method

namespace Param

def default (p : Param) : Binding (Option Constant) :=
  .cell (.paramDefault p.method p.index) do
    match p.token with
    | some token =>
      if p.hasDefault then
        let assembly ← Binding.liveAssembly p.method.type.assembly
        Binding.lift (assembly.constantOf token)
      else return none
    | none => return none

end Param

namespace Field

def declaringType (f : Field) : Binding TypeDefinition := Binding.declaringType f.id.type

def type (f : Field) : Binding TypeNode :=
  .cell (.fieldType f.id) do
    let assembly ← Binding.liveAssembly f.id.type.assembly
    let blob ← Binding.lift (assembly.module.blob f.signature)
    let signature ← Binding.lift (readField blob)
    let t ← f.declaringType
    let scope ← t.genericScope
    Binding.type f.id.type.assembly signature.type scope

def constant (f : Field) : Binding (Option Constant) :=
  .cell (.fieldConstant f.id) do
    if f.hasDefault then
      let assembly ← Binding.liveAssembly f.id.type.assembly
      Binding.lift (assembly.constantOf f.token)
    else return none

end Field

namespace Property

def declaringType (p : Property) : Binding TypeDefinition := Binding.declaringType p.id.type

def propertySignature (p : Property) : Binding PropertySignature :=
  .cell (.propertySignature p.id) do
    let assembly ← Binding.liveAssembly p.id.type.assembly
    let blob ← Binding.lift (assembly.module.blob p.signature)
    Binding.lift (readProperty blob)

def type (p : Property) : Binding TypeNode :=
  .cell (.propertyType p.id) do
    let _ ← Binding.liveAssembly p.id.type.assembly
    let t ← p.declaringType
    let scope ← t.genericScope
    let signature ← p.propertySignature
    Binding.type p.id.type.assembly signature.type scope

def isIndexer (p : Property) : Binding Bool := do
  return !(← p.propertySignature).params.isEmpty

def indexParams (p : Property) : Binding (List TypeNode) :=
  .cell (.indexParams p.id) do
    let _ ← Binding.liveAssembly p.id.type.assembly
    let t ← p.declaringType
    let scope ← t.genericScope
    let signature ← p.propertySignature
    signature.params.mapM fun param => Binding.type p.id.type.assembly param.type scope

def accessors (p : Property) : Binding PropertyAccessors :=
  .cell (.propertyAccessors p.id) do
    let _ ← Binding.liveAssembly p.id.type.assembly
    let methods ← Binding.semanticMethods p.id.type.assembly p.token
    methods.foldlM (fun accessors (semantics, m) =>
      match accessors.put? semantics m with
      | some accessors => return accessors
      | none => throw (.malformed (.accessorSemantics semantics .property p.name))) {}

def primary? (p : Property) : Binding (Option Method) := do return (← p.accessors).primary?

def visibility (p : Property) : Binding Visibility := do
  return ((← p.primary?).map (·.visibility)).getD .public_

def isStatic (p : Property) : Binding Bool := do return (← p.primary?).any (·.isStatic)
def isVirtual (p : Property) : Binding Bool := do return (← p.primary?).any (·.isVirtual)
def isAbstract (p : Property) : Binding Bool := do return (← p.primary?).any (·.isAbstract)
def isFinal (p : Property) : Binding Bool := do return (← p.primary?).any (·.isFinal)

def default (p : Property) : Binding (Option Constant) :=
  .cell (.propertyDefault p.id) do
    if p.hasDefault then
      let assembly ← Binding.liveAssembly p.id.type.assembly
      Binding.lift (assembly.constantOf p.token)
    else return none

end Property

namespace Event

def declaringType (e : Event) : Binding TypeDefinition := Binding.declaringType e.id.type

def handlerType (e : Event) : Binding (Option TypeNode) :=
  .cell (.handlerType e.id) do
    if e.type.isNull then
      return none
    let _ ← Binding.liveAssembly e.id.type.assembly
    let t ← e.declaringType
    let scope ← t.genericScope
    Binding.namedType e.id.type.assembly e.type.token scope

def accessors (e : Event) : Binding EventAccessors :=
  .cell (.eventAccessors e.id) do
    let _ ← Binding.liveAssembly e.id.type.assembly
    let methods ← Binding.semanticMethods e.id.type.assembly e.token
    methods.foldlM (fun accessors (semantics, m) =>
      match accessors.put? semantics m with
      | some accessors => return accessors
      | none => throw (.malformed (.accessorSemantics semantics .event e.name))) {}

def primary? (e : Event) : Binding (Option Method) := do return (← e.accessors).primary?

def visibility (e : Event) : Binding Visibility := do
  return ((← e.primary?).map (·.visibility)).getD .public_

def isStatic (e : Event) : Binding Bool := do return (← e.primary?).any (·.isStatic)

end Event

namespace Binding

def genericScope (a : AssemblyId) (owner : Token) : Binding GenericScope :=
  match owner.table? with
  | some .typeDef => do
    let t ← definition a owner.row
    t.genericScope
  | some .methodDef => do
    let m ← method a owner.row
    m.genericScope
  | _ => return {}

end Binding

namespace GenericParam

def assembly (p : GenericParam) : AssemblyId := p.id.owner.assembly

def constraints (p : GenericParam) : Binding (List TypeNode) :=
  .cell (.constraints p.id) do
    let assembly ← Binding.liveAssembly p.assembly
    match assembly.module.tables.view? .genericParamConstraint with
    | none => return []
    | some view =>
      let scope ← Binding.genericScope p.assembly p.owner
      let rows ← Binding.lift (view.findAll p.token).result
      let nodes ← (rows.map GenericParamConstraintRow.ofRow).mapM fun row =>
        Binding.namedType p.assembly row.constraint.token scope
      return nodes.filterMap fun node => node

end GenericParam

end CliMetadata
