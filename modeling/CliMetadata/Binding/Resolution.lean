import CliMetadata.Binding.Reference

set_option autoImplicit false

namespace CliMetadata

namespace TypeDefinition

def genericParams (t : TypeDefinition) : Binding (List GenericParam) :=
  .cell (.genericParams (.type t.id)) do
    let assembly ← Binding.liveAssembly t.id.assembly
    Binding.lift (assembly.module.genericParams (.type t.id) t.token)

def genericArity (t : TypeDefinition) : Binding Nat := do return (← t.genericParams).length

def genericScope (t : TypeDefinition) : Binding GenericScope := do
  return { typeParams := ← t.genericParams }

def nestedTypes (t : TypeDefinition) : Binding (List TypeDefinition) :=
  .cell (.nestedTypes t.id) do
    let assembly ← Binding.liveAssembly t.id.assembly
    let nesting ← Binding.lift assembly.nesting
    (nesting.nested t.id.rid).mapM fun rid => Binding.definition t.id.assembly rid

def bind (t : TypeDefinition) (args : List TypeNode) : Binding BoundType := do
  let expected ← t.genericArity
  if expected ≠ args.length then
    throw (.genericArity expected args.length)
  return { kind := t.kind, definition := t.id, args }

def bindOpen (t : TypeDefinition) : Binding BoundType := do
  let params ← t.genericParams
  t.bind (params.map (·.node))

end TypeDefinition

namespace TypeNode

def definition? (node : TypeNode) : Binding (Option TypeDefinition) :=
  match node.asBound with
  | some b => do return some (← Binding.liveType b.definition)
  | none => return none

end TypeNode

namespace Binding

def primitive (a : AssemblyId) (p : Primitive) : Binding TypeNode :=
  cell (.primitive a p) do
    let core ← coreLibrary a
    match ← definitionNamed core p.fullName with
    | some t => return (← t.bind []).node
    | none =>
      let library ← assembly core
      throw (.typeNotFound s!"{p.fullName}, {library.name}")

/-- What resolution does where it would go on without end. -/
def endless {α β : Type} (_ : α) : Binding β := throw .exhausted

def typeReferenceBy (a : AssemblyId) (assembly : Assembly) (outer : Nat → Binding TypeDefinition)
    (rid : Nat) : Binding TypeDefinition := do
  let row := TypeRefRow.ofRow (← lift (assembly.module.rowAt .typeRef rid))
  let name ← lift (assembly.module.string row.name)
  let nameSpace ← lift (assembly.module.string row.nameSpace)
  let scope := row.scope
  if !scope.isNull && scope.table == .typeRef then
    let outer ← outer scope.row
    match (← outer.nestedTypes).find? (·.name == name) with
    | some t => return t
    | none => throw (.typeNotFound s!"{outer.fullName}/{name}")
  else
    let fullName := qualify nameSpace name
    let home ←
      if !scope.isNull && scope.table == .assemblyRef then reference a scope.row else pure a
    requiredDefinition home fullName

/-- The definition that a row of `TypeRef` names. At most `levels` references lie inside each other
before it is up to `beyond` to go on. -/
def typeReferenceWithin (a : AssemblyId) (beyond : Nat → Binding TypeDefinition) :
    (levels rid : Nat) → Binding TypeDefinition
  | 0, rid => beyond rid
  | levels + 1, rid => do
    let assembly ← assembly a
    if rid = 0 ∨ assembly.module.tables.rows .typeRef < rid then
      throw (.malformed (.typeRefRange rid))
    cell (.typeRef a rid) (typeReferenceBy a assembly (typeReferenceWithin a beyond levels) rid)

/-- The definition that a row of `TypeRef` names. A chain of references without repetition is no
longer than the table. -/
def typeReference (a : AssemblyId) (rid : Nat) : Binding TypeDefinition := do
  let assembly ← assembly a
  typeReferenceWithin a endless (assembly.module.tables.rows .typeRef + 1) rid

def maxTypeDepth : Nat := 64

def typeWithin (a : AssemblyId) (scope : GenericScope)
    (named : Token → Binding (Option TypeNode)) : (levels : Nat) → TypeSignature → Binding TypeNode
  | 0, _ => throw (.recursionLimit maxTypeDepth)
  | levels + 1, signature =>
    match signature with
    | .primitive p => primitive a p
    | .pointer _ (.primitive .void) => return .voidPointer
    | .pointer _ base => do return .pointer (← typeWithin a scope named levels base)
    | .byReference base => typeWithin a scope named levels base
    | .modified _ base => typeWithin a scope named levels base
    | .classType token => do
      let some node ← named token | throw (.malformed .typeTokenNull)
      return node
    | .valueType token => do
      let some node ← named token | throw (.malformed .typeTokenNull)
      return node
    | .typeVariable number => lift (scope.param .type number)
    | .methodVariable number => lift (scope.param .method number)
    | .vector _ base => do return .array (← typeWithin a scope named levels base)
    | .array base rank _ => do return .mdArray (← typeWithin a scope named levels base) rank
    | .instantiation base args => do
      let node ← typeWithin a scope named levels base
      let some t ← node.definition? | throw (.malformed .instantiationOfOther)
      let args ← args.mapM (typeWithin a scope named levels)
      return (← t.bind args).node
    | .functionPointer _ => return .voidPointer

def specification (a : AssemblyId) (rid : Nat) : Binding TypeSignature := do
  let assembly ← assembly a
  let row := TypeSpecRow.ofRow (← lift (assembly.module.rowAt .typeSpec rid))
  let blob ← lift (assembly.module.blob row.signature)
  lift (readTypeSpec blob)

def namedTypeBy (a : AssemblyId) (referenced : Nat → Binding TypeDefinition)
    (specified : Token → Binding (Option TypeNode)) (token : Token) : Binding (Option TypeNode) :=
  if token.isNull || token.row == 0 then return none
  else
    match token.table? with
    | some .typeDef => do
      let t ← definition a token.row
      return some (← t.bindOpen).node
    | some .typeRef => do
      let t ← referenced token.row
      return some (← t.bindOpen).node
    | some .typeSpec => specified token
    | _ => throw (.malformed (.tokenKind token .typeDefOrRef))

/-- The node that a token names. At most `specs` rows of `TypeSpec` lead to each other before it is
up to `beyond` to go on. -/
def namedTypeWithin (a : AssemblyId) (scope : GenericScope)
    (referenced : Nat → Binding TypeDefinition) (beyond : Token → Binding (Option TypeNode)) :
    (specs : Nat) → Token → Binding (Option TypeNode)
  | 0, token => namedTypeBy a referenced beyond token
  | specs + 1, token =>
    namedTypeBy a referenced
      (fun token => do
        let signature ← specification a token.row
        let named := namedTypeWithin a scope referenced beyond specs
        return some (← typeWithin a scope named (maxTypeDepth + 1) signature))
      token

/-- Rows of `TypeSpec` that lead to each other without repetition are no more than the table has,
and one more that it does not have. -/
def specLimit (assembly : Assembly) : Nat := assembly.module.tables.rows .typeSpec + 1

def namedType (a : AssemblyId) (token : Token) (scope : GenericScope) :
    Binding (Option TypeNode) := do
  let assembly ← assembly a
  namedTypeWithin a scope (typeReference a) endless (specLimit assembly) token

def type (a : AssemblyId) (signature : TypeSignature) (scope : GenericScope) :
    Binding TypeNode := do
  let assembly ← assembly a
  let named := namedTypeWithin a scope (typeReference a) endless (specLimit assembly)
  typeWithin a scope named (maxTypeDepth + 1) signature

end Binding

end CliMetadata
