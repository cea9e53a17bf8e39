import CliMetadata.Attribute.Decoder
import CliMetadata.Binding.Lookup
import CliMetadata.Binding.MemberReference

set_option autoImplicit false

namespace CliMetadata

namespace Binding

def attributeIn (a : AssemblyId) (place : Option (AttributeHolder × Nat))
    (row : CustomAttributeRow) : Binding Attribute := do
  let constructor ← methodNamed a row.constructor.token
  let type ← constructor.declaringType
  let assembly ← assembly a
  let value ← lift (assembly.module.blob row.value)
  return {
    assembly := a, place, token := row.token, owner := row.parent.token
    constructor := constructor.id, kind := type.kind, type := type.id, value }

def attributesFor (a : AssemblyId) (holder : Option AttributeHolder) (owner : Token) :
    Binding (List Attribute) := do
  let assembly ← assembly a
  let rows ← lift (assembly.module.rowsOf .customAttribute owner)
  (rows.map CustomAttributeRow.ofRow).zipIdx.mapM fun (row, position) =>
    attributeIn a (holder.map (·, position)) row

def attributesOf (a : AssemblyId) (owner : Token) : Binding (List Attribute) :=
  attributesFor a none owner

def heldAttributes (holder : AttributeHolder) (a : AssemblyId) (token : Token) :
    Binding (List Attribute) :=
  cell (.attributes holder) do
    let _ ← liveAssembly a
    attributesFor a (some holder) token

def heldAttributes? (holder : AttributeHolder) (a : AssemblyId) (token : Option Token) :
    Binding (List Attribute) :=
  cell (.attributes holder) do
    match token with
    | some token =>
      let _ ← liveAssembly a
      attributesFor a (some holder) token
    | none => return []

def assemblyAttributes (a : AssemblyId) : Binding (List Attribute) :=
  cell (.attributes (.assembly a)) do
    let assembly ← assembly a
    match ← lift assembly.module.assemblyRow.result with
    | some row => attributesFor a (some (.assembly a)) (AssemblyRow.ofRow row).token
    | none => return []

end Binding

def TypeDefinition.attributes (t : TypeDefinition) : Binding (List Attribute) :=
  Binding.heldAttributes (.type t.id) t.id.assembly t.token

def Method.attributes (m : Method) : Binding (List Attribute) :=
  Binding.heldAttributes (.method m.id) m.id.type.assembly m.token

def Field.attributes (f : Field) : Binding (List Attribute) :=
  Binding.heldAttributes (.field f.id) f.id.type.assembly f.token

def Property.attributes (p : Property) : Binding (List Attribute) :=
  Binding.heldAttributes (.property p.id) p.id.type.assembly p.token

def Event.attributes (e : Event) : Binding (List Attribute) :=
  Binding.heldAttributes (.event e.id) e.id.type.assembly e.token

def Param.attributes (p : Param) : Binding (List Attribute) :=
  Binding.heldAttributes? (.param p.method p.index) p.method.type.assembly p.token

def ReturnParam.attributes (p : ReturnParam) : Binding (List Attribute) :=
  Binding.heldAttributes? (.returnParam p.method) p.method.type.assembly p.token

def GenericParam.attributes (p : GenericParam) : Binding (List Attribute) :=
  Binding.heldAttributes (.genericParam p.id) p.assembly p.token

def BaseInterface.attributes (i : BaseInterface) : Binding (List Attribute) :=
  Binding.heldAttributes (.baseInterface i.type i.position) i.type.assembly i.token

namespace Binding

def enumPrimitive (t : TypeDefinition) : Binding Primitive := do
  if t.kind ≠ .enum then
    throw (.malformed (.argumentNotEnum t.fullName))
  let underlying ← t.underlyingType
  match Primitive.ofTypeName? underlying.nameSpace underlying.name with
  | some p => return p
  | none => throw (.malformed (.argumentEnumType t.fullName underlying.fullName))

def coreArgumentType? (t : TypeDefinition) : Option ArgumentType :=
  match Primitive.ofTypeName? t.nameSpace t.name with
  | some .string => some .text
  | some .object => some .boxed
  | some p => some (.primitive p)
  | none => if t.fullName = "System.Type" then some .type else none

def argumentTypeOf (t : TypeDefinition) : Binding ArgumentType := do
  if t.kind = .enum then
    let name := t.fullName.map fun c => if c == '/' then '+' else c
    let underlying ← enumPrimitive t
    return .enum name underlying
  let assembly ← liveAssembly t.id.assembly
  match if assembly.isCoreLibrary then coreArgumentType? t else none with
  | some found => return found
  | none => throw (.malformed (.argumentType t.fullName))

def argumentType : TypeNode → Binding ArgumentType
  | .bound _ definition _ => do argumentTypeOf (← liveType definition)
  | .array element => do return .array (← argumentType element)
  | node => do throw (.malformed (.argumentType (← text node)))

def enumNamed (a : AssemblyId) (name : String) : Binding Primitive := do
  match ← definitionReflected a name with
  | some t => enumPrimitive t
  | none => throw (.typeNotFound name)

end Binding

namespace Attribute

def constructorMethod (x : Attribute) : Binding Method := Binding.liveMethod x.constructor

def attributeType (x : Attribute) : Binding TypeDefinition := Binding.liveType x.type

def readArguments (x : Attribute) : Binding AttributeArguments := do
  let _ ← Binding.liveAssembly x.assembly
  let constructor ← x.constructorMethod
  let fixed ← (← constructor.params).mapM fun p => Binding.argumentType p.type
  AttributeBlob.decode (Binding.enumNamed x.assembly) fixed x.value

def arguments (x : Attribute) : Binding AttributeArguments :=
  match x.place with
  | some (holder, position) => .cell (.arguments holder position) x.readArguments
  | none => x.readArguments

end Attribute

namespace TypeDefinition

def flagsAttribute : String := "System.FlagsAttribute"

def anyFlags : List Attribute → Binding Bool
  | [] => return false
  | x :: rest => do
    let t ← x.attributeType
    if t.fullName = flagsAttribute then
      let assembly ← Binding.liveAssembly t.id.assembly
      if assembly.isCoreLibrary then
        return true
    anyFlags rest

def isFlags (t : TypeDefinition) : Binding Bool := do anyFlags (← t.attributes)

end TypeDefinition

end CliMetadata
