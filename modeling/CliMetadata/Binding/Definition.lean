import CliMetadata.Binding.GenericParam
import CliMetadata.Binding.Visibility

set_option autoImplicit false

namespace CliMetadata

structure TypeDefinition where
  id : TypeId
  token : Token
  kind : DefinitionKind
  flags : Nat
  name : String
  nameSpace : String
  fullName : String
  extends_ : CodedIndex
  enclosing : Option Nat

namespace TypeDefinition

def visibility (t : TypeDefinition) : Visibility := .ofTypeFlags t.flags

def isPublic (t : TypeDefinition) : Bool := t.visibility == .public_

def isNested (t : TypeDefinition) : Bool := t.enclosing.isSome

def isAbstract (t : TypeDefinition) : Bool := t.flags &&& TypeFlags.abstract_ != 0

def isSealed (t : TypeDefinition) : Bool := t.flags &&& TypeFlags.sealed_ != 0

def nameSpace? (t : TypeDefinition) : Option String :=
  if t.nameSpace.isEmpty then none else some t.nameSpace

def shortName (t : TypeDefinition) : String :=
  String.ofList (t.name.toList.takeWhile (· != '`'))

def display (t : TypeDefinition) : String := s!"{t.kind.name} {t.fullName} ({t.token})"

end TypeDefinition

inductive TypeLayout
  | auto
  | sequential (pack : Option Nat) (minSize : Nat)
  | explicit (minSize : Nat)
  deriving DecidableEq, Repr

namespace Assembly

def definition (a : Assembly) (id : AssemblyId) (rid : Nat) : Except Error TypeDefinition := do
  let m := a.module
  let row := TypeDefRow.ofRow (← m.rowAt .typeDef rid)
  let kind ← (m.kindOf row a.isCoreLibrary).result
  let nesting ← a.nesting
  let name ← m.string row.name
  let nameSpace ← m.string row.nameSpace
  let fullName ← m.fullName nesting rid
  return {
    id := ⟨id, rid⟩, token := row.token, kind, flags := row.flags, name, nameSpace, fullName
    extends_ := row.extends_, enclosing := nesting.enclosing? rid }

def layout (a : Assembly) (t : TypeDefinition) : Except Error TypeLayout := do
  let row := (← a.module.rowOf? .classLayout t.token).map ClassLayoutRow.ofRow
  let pack := row.bind fun r => if r.packingSize ≠ 0 then some r.packingSize else none
  let minSize := (row.map (·.classSize)).getD 0
  let bits := t.flags &&& TypeFlags.layoutMask
  return if bits = TypeFlags.sequentialLayout then .sequential pack minSize
    else if bits = TypeFlags.explicitLayout then .explicit minSize
    else .auto

end Assembly

end CliMetadata
