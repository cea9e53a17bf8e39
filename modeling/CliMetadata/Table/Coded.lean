import CliMetadata.Table

set_option autoImplicit false

namespace CliMetadata

inductive CodedKind
  | typeDefOrRef | hasConstant | hasCustomAttribute | hasFieldMarshal | hasDeclSecurity
  | memberRefParent | hasSemantics | methodDefOrRef | memberForwarded | implementation
  | customAttributeType | resolutionScope | typeOrMethodDef
  deriving DecidableEq, Repr, Inhabited

namespace CodedKind

def all : List CodedKind :=
  [.typeDefOrRef, .hasConstant, .hasCustomAttribute, .hasFieldMarshal, .hasDeclSecurity,
   .memberRefParent, .hasSemantics, .methodDefOrRef, .memberForwarded, .implementation,
   .customAttributeType, .resolutionScope, .typeOrMethodDef]

def name : CodedKind → String
  | .typeDefOrRef => "TypeDefOrRef"
  | .hasConstant => "HasConstant"
  | .hasCustomAttribute => "HasCustomAttribute"
  | .hasFieldMarshal => "HasFieldMarshal"
  | .hasDeclSecurity => "HasDeclSecurity"
  | .memberRefParent => "MemberRefParent"
  | .hasSemantics => "HasSemantics"
  | .methodDefOrRef => "MethodDefOrRef"
  | .memberForwarded => "MemberForwarded"
  | .implementation => "Implementation"
  | .customAttributeType => "CustomAttributeType"
  | .resolutionScope => "ResolutionScope"
  | .typeOrMethodDef => "TypeOrMethodDef"

def ofName? (s : String) : Option CodedKind := all.find? (·.name == s)

def slots : CodedKind → List (Option Table)
  | .typeDefOrRef => [some .typeDef, some .typeRef, some .typeSpec]
  | .hasConstant => [some .field, some .param, some .property]
  | .hasCustomAttribute =>
    [some .methodDef, some .field, some .typeRef, some .typeDef, some .param,
     some .interfaceImpl, some .memberRef, some .module, some .declSecurity, some .property,
     some .event, some .standAloneSig, some .moduleRef, some .typeSpec, some .assembly,
     some .assemblyRef, some .file, some .exportedType, some .manifestResource,
     some .genericParam, some .genericParamConstraint, some .methodSpec]
  | .hasFieldMarshal => [some .field, some .param]
  | .hasDeclSecurity => [some .typeDef, some .methodDef, some .assembly]
  | .memberRefParent =>
    [some .typeDef, some .typeRef, some .moduleRef, some .methodDef, some .typeSpec]
  | .hasSemantics => [some .event, some .property]
  | .methodDefOrRef => [some .methodDef, some .memberRef]
  | .memberForwarded => [some .field, some .methodDef]
  | .implementation => [some .file, some .assemblyRef, some .exportedType]
  | .customAttributeType => [none, none, some .methodDef, some .memberRef, none]
  | .resolutionScope => [some .module, some .moduleRef, some .assemblyRef, some .typeRef]
  | .typeOrMethodDef => [some .typeDef, some .methodDef]

def tagBits (kind : CodedKind) : Nat := Nat.log2 (kind.slots.length - 1) + 1

def tagOf? (kind : CodedKind) (table : Table) : Option Nat :=
  kind.slots.idxOf? (some table)

theorem slots_length_le (kind : CodedKind) : kind.slots.length ≤ 1 <<< kind.tagBits := by
  cases kind <;> decide

end CodedKind

end CliMetadata
