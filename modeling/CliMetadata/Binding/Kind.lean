import CliMetadata.Module

set_option autoImplicit false

namespace CliMetadata

inductive DefinitionKind
  | class_ | interface | delegate | struct | enum
  deriving DecidableEq, Repr, Hashable

namespace DefinitionKind

def name : DefinitionKind → String
  | .class_ => "Class"
  | .interface => "Interface"
  | .delegate => "Delegate"
  | .struct => "Struct"
  | .enum => "Enum"

def isValueType : DefinitionKind → Bool
  | .struct | .enum => true
  | _ => false

end DefinitionKind

namespace TypeFlags

def interface : Nat := 0x20
def abstract_ : Nat := 0x80
def sealed_ : Nat := 0x100
def layoutMask : Nat := 0x18
def sequentialLayout : Nat := 0x08
def explicitLayout : Nat := 0x10

end TypeFlags

structure WrittenName where
  nameSpace : String
  name : String
  inCoreLibrary : Bool

namespace Module

/-- The name that a row of `TypeDef` or `TypeRef` gives a type; types that are nested in a
reference, and constructed types, have none here. -/
def writtenName? (m : Module) (token : Token) (isCoreLibrary : Bool) :
    Scan (Option WrittenName) := do
  match token.table? with
  | some .typeDef =>
    let row := TypeDefRow.ofRow (← m.row .typeDef token.row)
    let nameSpace ← Scan.lift (m.string row.nameSpace)
    let name ← Scan.lift (m.string row.name)
    return some ⟨nameSpace, name, isCoreLibrary⟩
  | some .typeRef =>
    let row := TypeRefRow.ofRow (← m.row .typeRef token.row)
    let nested := !row.scope.isNull && row.scope.table == .typeRef
    if nested then
      return none
    let inCoreLibrary ←
      if !row.scope.isNull && row.scope.table == .assemblyRef then do
        let scope := AssemblyRefRow.ofRow (← m.row .assemblyRef row.scope.row)
        pure (AssemblyIdentity.isCoreLibraryName (← Scan.lift (m.string scope.name)))
      else
        pure isCoreLibrary
    let nameSpace ← Scan.lift (m.string row.nameSpace)
    let name ← Scan.lift (m.string row.name)
    return some ⟨nameSpace, name, inCoreLibrary⟩
  | some .typeSpec => return none
  | _ => throw (.malformed (.tokenKind token .typeDefOrRef))

def kindOf (m : Module) (row : TypeDefRow) (isCoreLibrary : Bool) : Scan DefinitionKind := do
  if row.flags &&& TypeFlags.interface ≠ 0 then
    return .interface
  if row.extends_.isNull then
    return .class_
  let some base ← m.writtenName? row.extends_.token isCoreLibrary
    | return .class_
  if !base.inCoreLibrary || base.nameSpace != "System" then
    return .class_
  let isEnumClass ←
    if isCoreLibrary then do
      if (← Scan.lift (m.string row.nameSpace)) == "System" then
        pure ((← Scan.lift (m.string row.name)) == "Enum")
      else pure false
    else pure false
  if base.name == "Enum" then return .enum
  else if base.name == "ValueType" && !isEnumClass then return .struct
  else if base.name == "MulticastDelegate" then return .delegate
  else return .class_

end Module

end CliMetadata
