import CliMetadata.Table.Column

set_option autoImplicit false

namespace CliMetadata.Table

def versionColumns : List Column :=
  [.u16 "major_version", .u16 "minor_version", .u16 "build_number", .u16 "revision_number"]

def columns : Table → List Column
  | .module => [.u16 "generation", .text "name", .guid "mvid", .guid "encid", .guid "encbaseid"]
  | .typeRef =>
    [.coded "resolution_scope" .resolutionScope, .text "type_name", .text "type_namespace"]
  | .typeDef =>
    [.u32 "flags", .text "type_name", .text "type_namespace", .coded "extends" .typeDefOrRef,
     .rowOf "field_list" .field, .rowOf "method_list" .methodDef]
  | .fieldPtr => [.rowOf "field" .field]
  | .field => [.u16 "flags", .text "name", .blob "signature"]
  | .methodPtr => [.rowOf "method" .methodDef]
  | .methodDef =>
    [.u32 "rva", .u16 "impl_flags", .u16 "flags", .text "name", .blob "signature",
     .rowOf "param_list" .param]
  | .paramPtr => [.rowOf "param" .param]
  | .param => [.u16 "flags", .u16 "sequence", .text "name"]
  | .interfaceImpl => [.rowOf "class" .typeDef, .coded "interface" .typeDefOrRef]
  | .memberRef => [.coded "class" .memberRefParent, .text "name", .blob "signature"]
  | .constant => [.u8 "base", .padding 1, .coded "parent" .hasConstant, .blob "value"]
  | .customAttribute =>
    [.coded "parent" .hasCustomAttribute, .coded "constructor" .customAttributeType, .blob "value"]
  | .fieldMarshal => [.coded "parent" .hasFieldMarshal, .blob "native_type"]
  | .declSecurity => [.u16 "action", .coded "parent" .hasDeclSecurity, .blob "permission_set"]
  | .classLayout => [.u16 "packing_size", .u32 "class_size", .rowOf "parent" .typeDef]
  | .fieldLayout => [.u32 "field_offset", .rowOf "field" .field]
  | .standAloneSig => [.blob "signature"]
  | .eventMap => [.rowOf "parent" .typeDef, .rowOf "event_list" .event]
  | .eventPtr => [.rowOf "event" .event]
  | .event => [.u16 "flags", .text "name", .coded "event_type" .typeDefOrRef]
  | .propertyMap => [.rowOf "parent" .typeDef, .rowOf "property_list" .property]
  | .propertyPtr => [.rowOf "property" .property]
  | .property => [.u16 "flags", .text "name", .blob "signature"]
  | .methodSemantics =>
    [.u16 "semantics", .rowOf "method" .methodDef, .coded "association" .hasSemantics]
  | .methodImpl =>
    [.rowOf "class" .typeDef, .coded "method_body" .methodDefOrRef,
     .coded "method_declaration" .methodDefOrRef]
  | .moduleRef => [.text "name"]
  | .typeSpec => [.blob "signature"]
  | .implMap =>
    [.u16 "mapping_flags", .coded "member_forwarded" .memberForwarded, .text "import_name",
     .rowOf "import_scope" .moduleRef]
  | .fieldRva => [.u32 "rva", .rowOf "field" .field]
  | .encLog => [.u32 "token_value", .u32 "func_code"]
  | .encMap => [.u32 "token_value"]
  | .assembly =>
    [.u32 "hash_alg_id"] ++ versionColumns ++
      [.u32 "flags", .blob "public_key", .text "name", .text "culture"]
  | .assemblyProcessor => [.u32 "processor"]
  | .assemblyOs => [.u32 "os_platform_id", .u32 "os_major_version", .u32 "os_minor_version"]
  | .assemblyRef =>
    versionColumns ++
      [.u32 "flags", .blob "public_key_or_token", .text "name", .text "culture", .blob "hash_value"]
  | .assemblyRefProcessor => [.u32 "processor", .rowOf "assembly_ref" .assemblyRef]
  | .assemblyRefOs =>
    [.u32 "os_platform_id", .u32 "os_major_version", .u32 "os_minor_version",
     .rowOf "assembly_ref" .assemblyRef]
  | .file => [.u32 "flags", .text "name", .blob "hash_value"]
  | .exportedType =>
    [.u32 "flags", .u32 "type_def_id", .text "type_name", .text "type_namespace",
     .coded "implementation" .implementation]
  | .manifestResource =>
    [.u32 "data_offset", .u32 "flags", .text "name", .coded "implementation" .implementation]
  | .nestedClass => [.rowOf "nested_class" .typeDef, .rowOf "enclosing_class" .typeDef]
  | .genericParam => [.u16 "number", .u16 "flags", .coded "owner" .typeOrMethodDef, .text "name"]
  | .methodSpec => [.coded "method" .methodDefOrRef, .blob "instantiation"]
  | .genericParamConstraint =>
    [.rowOf "owner" .genericParam, .coded "constraint" .typeDefOrRef]

/-- The position of the column by which rows are looked up. Rows of a table that is marked as
sorted are in the order of this column. -/
def keyColumn? : Table → Option Nat
  | .interfaceImpl | .customAttribute | .fieldMarshal | .eventMap | .propertyMap | .methodImpl
  | .nestedClass | .genericParamConstraint => some 0
  | .declSecurity | .fieldLayout | .implMap | .fieldRva => some 1
  | .constant | .classLayout | .methodSemantics | .genericParam => some 2
  | _ => none

def keyKind? (t : Table) : Option ColumnKind :=
  t.keyColumn?.bind fun n => (t.columns[n]?).map (·.kind)

def keyIsFirst (t : Table) : Bool := t.keyColumn? == some 0

end CliMetadata.Table
