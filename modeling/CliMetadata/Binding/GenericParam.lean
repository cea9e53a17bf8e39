import CliMetadata.Binding.Node

set_option autoImplicit false

namespace CliMetadata

structure GenericParam where
  id : GenericParamId
  token : Token
  owner : Token
  level : GenericLevel
  number : Nat
  name : String
  flags : Nat
  ownerArity : Nat

namespace GenericParam

def node (p : GenericParam) : TypeNode := .genericParam p.id

def isCovariant (p : GenericParam) : Bool := p.flags &&& 0x03 == 0x01

def isContravariant (p : GenericParam) : Bool := p.flags &&& 0x03 == 0x02

def isReferenceType (p : GenericParam) : Bool := p.flags &&& 0x04 != 0

def isValueType (p : GenericParam) : Bool := p.flags &&& 0x08 != 0

def hasDefaultConstructor (p : GenericParam) : Bool := p.flags &&& 0x10 != 0

def valueType? (p : GenericParam) : Option Bool :=
  if p.isValueType then some true else if p.isReferenceType then some false else none

end GenericParam

def GenericLevel.ofOwner (owner : Token) : Except Error GenericLevel :=
  match owner.table? with
  | some .typeDef => .ok .type
  | some .methodDef => .ok .method
  | _ => .error (.malformed (.genericOwner owner))

namespace Module

def genericParams (m : Module) (id : GenericOwner) (owner : Token) :
    Except Error (List GenericParam) := do
  let level ← GenericLevel.ofOwner owner
  let rows := (← m.rowsOf .genericParam owner).map GenericParamRow.ofRow
  let sorted := rows.mergeSort fun a b => a.number ≤ b.number
  sorted.zipIdx.mapM fun (row, position) => do
    if row.number ≠ position then
      throw (.malformed (.genericNumbers owner rows.length))
    let name ← m.string row.name
    return {
      id := ⟨id, position⟩, token := row.token, owner, level, number := row.number, name
      flags := row.flags, ownerArity := rows.length }

end Module

structure GenericScope where
  typeParams : List GenericParam := []
  methodParams : List GenericParam := []

namespace GenericScope

def params (s : GenericScope) : GenericLevel → List GenericParam
  | .type => s.typeParams
  | .method => s.methodParams

def param (s : GenericScope) (level : GenericLevel) (number : Nat) : Except Error TypeNode :=
  match (s.params level)[number]? with
  | some p => .ok p.node
  | none => .error (.malformed (.genericScope level number (s.params level).length))

end GenericScope

structure GenericArgs where
  typeArgs : Option (List TypeNode) := none
  methodArgs : Option (List TypeNode) := none

namespace GenericArgs

def level (args : GenericArgs) : GenericLevel → Option (List TypeNode)
  | .type => args.typeArgs
  | .method => args.methodArgs

/-- What stands for a parameter. A list has to have an argument for each parameter of the owner. -/
def argument (args : GenericArgs) (p : GenericParam) : Except Error (Option TypeNode) :=
  match args.level p.level with
  | none => .ok none
  | some nodes =>
    if nodes.length ≠ p.ownerArity then .error (.genericArity p.ownerArity nodes.length)
    else .ok nodes[p.number]?

end GenericArgs

def TypeNode.bindParams (param : GenericParamId → Except Error GenericParam) (args : GenericArgs)
    (node : TypeNode) : Except Error TypeNode :=
  node.bindWith fun id => do args.argument (← param id)

def BoundType.bindMemberType (param : GenericParamId → Except Error GenericParam) (b : BoundType)
    (node : TypeNode) : Except Error TypeNode :=
  if b.args.isEmpty then .ok node else node.bindParams param { typeArgs := some b.args }

end CliMetadata
