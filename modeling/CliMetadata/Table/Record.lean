import CliMetadata.Table.Row

set_option autoImplicit false

namespace CliMetadata

structure ModuleRow where
  name : Nat

def ModuleRow.ofRow (row : Row .module) : ModuleRow :=
  let (_, name, _) := row.fields
  { name }

structure TypeRefRow where
  scope : CodedIndex
  name : Nat
  nameSpace : Nat

def TypeRefRow.ofRow (row : Row .typeRef) : TypeRefRow :=
  let (scope, name, nameSpace, _) := row.fields
  { scope, name, nameSpace }

structure TypeDefRow where
  token : Token
  flags : Nat
  name : Nat
  nameSpace : Nat
  extends_ : CodedIndex
  fieldList : Nat
  methodList : Nat

def TypeDefRow.ofRow (row : Row .typeDef) : TypeDefRow :=
  let (flags, name, nameSpace, extends_, fieldList, methodList, _) := row.fields
  { token := row.token, flags, name, nameSpace, extends_, fieldList, methodList }

structure FieldRow where
  token : Token
  flags : Nat
  name : Nat
  signature : Nat

def FieldRow.ofRow (row : Row .field) : FieldRow :=
  let (flags, name, signature, _) := row.fields
  { token := row.token, flags, name, signature }

structure MethodDefRow where
  token : Token
  rva : Nat
  implFlags : Nat
  flags : Nat
  name : Nat
  signature : Nat
  paramList : Nat

def MethodDefRow.ofRow (row : Row .methodDef) : MethodDefRow :=
  let (rva, implFlags, flags, name, signature, paramList, _) := row.fields
  { token := row.token, rva, implFlags, flags, name, signature, paramList }

structure ParamRow where
  token : Token
  flags : Nat
  sequence : Nat
  name : Nat

def ParamRow.ofRow (row : Row .param) : ParamRow :=
  let (flags, sequence, name, _) := row.fields
  { token := row.token, flags, sequence, name }

structure InterfaceImplRow where
  rid : Nat
  token : Token
  interface : CodedIndex

def InterfaceImplRow.ofRow (row : Row .interfaceImpl) : InterfaceImplRow :=
  let (_, interface, _) := row.fields
  { rid := row.rid, token := row.token, interface }

structure MemberRefRow where
  parent : CodedIndex
  name : Nat
  signature : Nat

def MemberRefRow.ofRow (row : Row .memberRef) : MemberRefRow :=
  let (parent, name, signature, _) := row.fields
  { parent, name, signature }

structure ConstantRow where
  type : Nat
  value : Nat

def ConstantRow.ofRow (row : Row .constant) : ConstantRow :=
  let (type, _, _, value, _) := row.fields
  { type, value }

structure CustomAttributeRow where
  token : Token
  parent : CodedIndex
  constructor : CodedIndex
  value : Nat

def CustomAttributeRow.ofRow (row : Row .customAttribute) : CustomAttributeRow :=
  let (parent, constructor, value, _) := row.fields
  { token := row.token, parent, constructor, value }

structure ClassLayoutRow where
  packingSize : Nat
  classSize : Nat

def ClassLayoutRow.ofRow (row : Row .classLayout) : ClassLayoutRow :=
  let (packingSize, classSize, _) := row.fields
  { packingSize, classSize }

structure EventRow where
  token : Token
  flags : Nat
  name : Nat
  type : CodedIndex

def EventRow.ofRow (row : Row .event) : EventRow :=
  let (flags, name, type, _) := row.fields
  { token := row.token, flags, name, type }

structure PropertyRow where
  token : Token
  flags : Nat
  name : Nat
  signature : Nat

def PropertyRow.ofRow (row : Row .property) : PropertyRow :=
  let (flags, name, signature, _) := row.fields
  { token := row.token, flags, name, signature }

structure MethodSemanticsRow where
  semantics : Nat
  method : Nat

def MethodSemanticsRow.ofRow (row : Row .methodSemantics) : MethodSemanticsRow :=
  let (semantics, method, _) := row.fields
  { semantics, method }

structure TypeSpecRow where
  signature : Nat

def TypeSpecRow.ofRow (row : Row .typeSpec) : TypeSpecRow :=
  let (signature, _) := row.fields
  { signature }

structure AssemblyRow where
  token : Token
  hashAlgorithm : Nat
  version : AssemblyVersion
  flags : Nat
  publicKey : Nat
  name : Nat
  culture : Nat

def versionOf (major minor build revision : Nat) : AssemblyVersion :=
  ⟨major.toUInt16, minor.toUInt16, build.toUInt16, revision.toUInt16⟩

def AssemblyRow.ofRow (row : Row .assembly) : AssemblyRow :=
  let (hashAlgorithm, major, minor, build, revision, flags, publicKey, name, culture, _) :=
    row.fields
  { token := row.token, hashAlgorithm, version := versionOf major minor build revision, flags
    publicKey, name, culture }

structure AssemblyRefRow where
  version : AssemblyVersion
  flags : Nat
  publicKeyOrToken : Nat
  name : Nat
  culture : Nat

def AssemblyRefRow.ofRow (row : Row .assemblyRef) : AssemblyRefRow :=
  let (major, minor, build, revision, flags, publicKeyOrToken, name, culture, _) := row.fields
  { version := versionOf major minor build revision, flags, publicKeyOrToken, name, culture }

structure ExportedTypeRow where
  rid : Nat
  name : Nat
  nameSpace : Nat
  implementation : CodedIndex

def ExportedTypeRow.ofRow (row : Row .exportedType) : ExportedTypeRow :=
  let (_, _, name, nameSpace, implementation, _) := row.fields
  { rid := row.rid, name, nameSpace, implementation }

structure NestedClassRow where
  nested : Nat
  enclosing : Nat

def NestedClassRow.ofRow (row : Row .nestedClass) : NestedClassRow :=
  let (nested, enclosing, _) := row.fields
  { nested, enclosing }

structure GenericParamRow where
  token : Token
  number : Nat
  flags : Nat
  name : Nat

def GenericParamRow.ofRow (row : Row .genericParam) : GenericParamRow :=
  let (number, flags, _, name, _) := row.fields
  { token := row.token, number, flags, name }

structure GenericParamConstraintRow where
  constraint : CodedIndex

def GenericParamConstraintRow.ofRow (row : Row .genericParamConstraint) :
    GenericParamConstraintRow :=
  let (_, constraint, _) := row.fields
  { constraint }

end CliMetadata
