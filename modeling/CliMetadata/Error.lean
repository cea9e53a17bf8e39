import CliMetadata.Identity.Basic
import CliMetadata.Image.Fault
import CliMetadata.Table.Child
import CliMetadata.Table.Coded
import CliMetadata.Text.Unicode
import CliMetadata.Token

set_option autoImplicit false

namespace CliMetadata

inductive GenericLevel
  | type | method
  deriving DecidableEq, Repr, Hashable

def GenericLevel.name : GenericLevel → String
  | .type => "Type"
  | .method => "Method"

inductive Counted
  | instantiationArgument | arraySize | arrayLowerBound | parameter | propertyParameter
  | methodSpecArgument
  deriving DecidableEq, Repr

def Counted.name : Counted → String
  | .instantiationArgument => "GENERICINST argument"
  | .arraySize => "ARRAY size"
  | .arrayLowerBound => "ARRAY lower bound"
  | .parameter => "Parameter"
  | .propertyParameter => "Property parameter"
  | .methodSpecArgument => "MethodSpec argument"

inductive AccessorOwner
  | event | property
  deriving DecidableEq, Repr

def AccessorOwner.name : AccessorOwner → String
  | .event => "event"
  | .property => "property"

inductive Defect
  -- bytes
  | compressedUint (offset : Nat) (byte : UInt8)
  | compressedToken (value : Nat)
  | textAt (start stop : Nat) (fault : Utf8.Fault)
  | uintRange (value : Nat)
  | intRange (value : Int)
  | countRange (value : Nat)
  -- tokens
  | tokenRow (row : Nat) (table : Table)
  | rowIndex (index : Nat) (table : Table) (rows : Nat)
  | tokenTable (token : Token) (table : Table)
  | tokenNull (table : Table)
  -- storage root
  | rootMagic (value : Nat)
  | versionLength (value : Nat)
  | noStreams
  | streamRange (name : String) (offset size : Nat)
  | streamTwice (name : String)
  | streamNameOpen
  | streamNameBytes (bytes : List UInt8)
  -- image
  | clrHeaderSize (value : Nat)
  | clrHeaderEmpty (rva size : Nat)
  | noOptionalHeader
  | noClrDirectory
  | sectionExtent (address extent : Nat)
  | addressUnmapped (rva : Nat)
  | metadataRange (start stop size : Nat)
  -- heaps
  | blobHeap
  | guidHeap (size : Nat)
  | stringHeap
  | stringOpen (index : Nat)
  | stringText (index : Nat)
  | userStringHeap
  -- tables
  | validMask (value : UInt64)
  | tableStart (table : Table) (offset : Nat)
  | tableExtent (table : Table) (rows rowSize : Nat)
  | rowRange (rid : Nat) (table : Table) (rows : Nat)
  | codedTag (tag : Nat) (kind : CodedKind)
  | codedRow (kind : CodedKind) (row : Nat) (table : Table) (rows : Nat)
  | codedTable (table : Table) (kind : CodedKind)
  | parentRange (rid : Nat) (table : Table) (rows : Nat)
  | tableMissing (table : Table)
  | childSpan (list : ChildList) (rid start stop rows : Nat)
  -- signatures
  | signatureTrailing (count offset : Nat)
  | instantiationBase (byte : UInt8)
  | instantiationEmpty
  | elementType (byte : UInt8) (offset : Nat)
  | arrayRank
  | arraySizes (rank count : Nat)
  | arrayLowerBounds (rank count : Nat)
  | countExceeds (what : Counted) (count remaining : Nat)
  | callingConvention (byte : UInt8)
  | sentinel
  | fieldStart (byte : UInt8)
  | propertyStart (byte : UInt8)
  | methodSpecStart (byte : UInt8)
  | tokenUnencodable (token : Token)
  -- identities
  | keyTokenLength (length : Nat)
  | keyEmpty
  -- constants
  | constantOdd (length : Nat)
  | constantClass
  | constantType (byte : UInt8)
  | constantTrailing (byte : UInt8) (count : Nat)
  -- modules
  | noTableStream
  | rowAbsent (rid : Nat) (table : Table)
  | noStringHeap (index : Nat)
  | noBlobHeap (index : Nat)
  | noGuidHeap (index : Nat)
  | noUserStringHeap (index : Nat)
  | tokenKind (token : Token) (kind : CodedKind)
  -- binding
  | cyclic
  | typeDefRange (rid rows : Nat)
  | typeRefRange (rid : Nat)
  | memberRefRange (rid : Nat)
  | assemblyRefRange (rid : Nat)
  | exportedNesting (rid : Nat)
  | nestedTwice (rid : Nat)
  | nestingCycle (rid : Nat)
  | typeTokenNull
  | instantiationOfOther
  | methodUnowned (rid : Nat)
  | methodMissing (rid : Nat)
  | tokenNoMethod (token : Token)
  | memberRefParent (token : Token)
  | memberRefNone (rid : Nat) (parent name : String)
  | memberRefSeveral (rid : Nat) (parent name : String)
  | genericOwner (token : Token)
  | genericNumbers (token : Token) (arity : Nat)
  | genericScope (level : GenericLevel) (number count : Nat)
  | inheritanceCycle (name : String)
  | baseUnnamed (name node : String)
  | interfaceUnnamed (rid : Nat)
  | delegateInvoke (name : String)
  | enumField (name : String)
  | enumFieldType (name : String)
  | accessorSemantics (value : Nat) (owner : AccessorOwner) (name : String)
  -- attribute arguments
  | enumArgumentUnnamed
  | argumentTag (byte : UInt8) (offset : Nat)
  | argumentElement (byte : UInt8)
  | argumentBlobEmpty (params : Nat)
  | argumentProlog (value : Nat)
  | namedArgumentKind (byte : UInt8)
  | namedArgumentUnnamed
  | argumentTrailing (count : Nat)
  | argumentNotEnum (name : String)
  | argumentEnumType (name underlying : String)
  | argumentType (text : String)
  deriving DecidableEq, Repr

namespace Defect

def byteList (bytes : List UInt8) : String :=
  "[" ++ ", ".intercalate (bytes.map fun b => Hex.upper 2 b.toNat) ++ "]"

def message : Defect → String
  | .compressedUint offset byte =>
    s!"Invalid compressed uint at offset {offset} - 0x{Hex.upper 2 byte.toNat}"
  | .compressedToken value => s!"Invalid compressed token - 0x{Hex.upper 8 value}"
  | .textAt start stop fault =>
    s!"Invalid UTF-8 string at offset {start}-{stop}: {fault.message}"
  | .uintRange value => s!"Value 0x{Hex.upper 1 value} does not fit into a compressed integer"
  | .intRange value => s!"Value {value} does not fit into a compressed signed integer"
  | .countRange value => s!"Count {value} is too large"
  | .tokenRow row table => s!"Row id 0x{Hex.upper 1 row} does not fit into a {table.name} token"
  | .rowIndex index table rows =>
    s!"Row index {index} out of range for {table.name} with {rows} rows"
  | .tokenTable token table => s!"Token {token} does not point into {table.name}"
  | .tokenNull table => s!"Null token for {table.name}"
  | .rootMagic value => s!"CIL_HEADER_MAGIC does not match - 0x{Hex.upper 8 value}"
  | .versionLength value => s!"Invalid version string length - {value}"
  | .noStreams => "No streams have been found"
  | .streamRange name offset size =>
    s!"Stream '{name}' exceeds the metadata - offset {offset}, size {size}"
  | .streamTwice name => s!"Duplicate stream - {name}"
  | .streamNameOpen => "Unterminated stream header name"
  | .streamNameBytes bytes => s!"Invalid stream header name - {byteList bytes}"
  | .clrHeaderSize value => s!"Invalid CLR header size - {value}"
  | .clrHeaderEmpty rva size =>
    s!"CLR header does not locate any metadata - rva 0x{Hex.upper 1 rva}, size {size}"
  | .noOptionalHeader => "File does not have an OptionalHeader"
  | .noClrDirectory => "File does not have a CLR runtime header directory"
  | .sectionExtent address extent =>
    s!"Section malformed, causing integer overflow - {address} + {extent}"
  | .addressUnmapped rva => s!"RVA could not be converted to offset - 0x{Hex.upper 1 rva}"
  | .metadataRange start stop size =>
    s!"Metadata range 0x{Hex.upper 1 start}..0x{Hex.upper 1 stop} exceeds file size 0x{Hex.upper 1 size}"
  | .blobHeap => "Invalid memory for #Blob heap"
  | .guidHeap size => s!"Size of #GUID heap is not a multiple of 16 - {size}"
  | .stringHeap => "Provided #Strings heap is empty"
  | .stringOpen index => s!"Unterminated string at index - {index}"
  | .stringText index => s!"Invalid UTF-8 string at index - {index}"
  | .userStringHeap => "Invalid memory for #US heap"
  | .validMask value => s!"Valid mask names unknown tables - 0x{Hex.upper 16 value.toNat}"
  | .tableStart table offset =>
    s!"Table {table.name} starts at 0x{Hex.upper 1 offset}, past the end of the stream"
  | .tableExtent table rows rowSize =>
    s!"Table {table.name} with {rows} rows of {rowSize} bytes exceeds the table stream"
  | .rowRange rid table rows => s!"Row {rid} out of range for {table.name} with {rows} rows"
  | .codedTag tag kind => s!"Invalid tag {tag} for coded index {kind.name}"
  | .codedRow kind row table rows =>
    s!"Coded index {kind.name} references row {row} of {table.name} which has {rows} rows"
  | .codedTable table kind =>
    s!"{table.name} can not be referenced by coded index {kind.name}"
  | .parentRange rid table rows =>
    s!"Parent row {rid} out of range for {table.name} with {rows} rows"
  | .tableMissing table => s!"Missing {table.name} table"
  | .childSpan list rid start stop rows =>
    s!"{list.name} list of {list.parent.name} row {rid} spans {start}..{stop} but the table has {rows} rows"
  | .signatureTrailing count offset =>
    s!"Signature has {count} trailing bytes at offset {offset}"
  | .instantiationBase byte =>
    s!"GENERICINST - Next byte is not CLASS or VALUETYPE - 0x{Hex.upper 2 byte.toNat}"
  | .instantiationEmpty => "GENERICINST without arguments"
  | .elementType byte offset =>
    s!"Unsupported ELEMENT_TYPE - 0x{Hex.upper 2 byte.toNat} at offset {offset}"
  | .arrayRank => "ARRAY with rank 0"
  | .arraySizes rank count => s!"ARRAY of rank {rank} declares {count} sizes"
  | .arrayLowerBounds rank count => s!"ARRAY of rank {rank} declares {count} lower bounds"
  | .countExceeds what count remaining =>
    s!"{what.name} count {count} exceeds the {remaining} remaining bytes"
  | .callingConvention byte =>
    s!"Invalid method calling convention - 0x{Hex.upper 2 byte.toNat}"
  | .sentinel => "Unexpected SENTINEL in method signature"
  | .fieldStart byte => s!"SignatureField - invalid start - 0x{Hex.upper 2 byte.toNat}"
  | .propertyStart byte => s!"SignatureProperty - invalid start - 0x{Hex.upper 2 byte.toNat}"
  | .methodSpecStart byte => s!"SignatureMethodSpec - invalid start - 0x{Hex.upper 2 byte.toNat}"
  | .tokenUnencodable token => s!"Token {token} can not be encoded as TypeDefOrRefOrSpec"
  | .keyTokenLength length => s!"Public key token must be 8 bytes, got {length}"
  | .keyEmpty => "Cannot compute the token of an empty public key"
  | .constantOdd length => s!"String constant of odd length {length}"
  | .constantClass => "Class constant with a non-null value"
  | .constantType byte => s!"Invalid constant element type 0x{Hex.lower 2 byte.toNat}"
  | .constantTrailing byte count =>
    s!"Constant of type 0x{Hex.lower 2 byte.toNat} has {count} trailing bytes"
  | .noTableStream => "No table stream (#~ or #-) present"
  | .rowAbsent rid table => s!"Row {rid} requested from absent table {table.name}"
  | .noStringHeap index => s!"String index {index} without a #Strings heap"
  | .noBlobHeap index => s!"Blob index {index} without a #Blob heap"
  | .noGuidHeap index => s!"GUID index {index} without a #GUID heap"
  | .noUserStringHeap index => s!"User string index {index} without a #US heap"
  | .tokenKind token kind => s!"Token {token} is not a {kind.name}"
  | .cyclic => "Cyclic metadata - a lazily computed value depends on itself"
  | .typeDefRange rid rows => s!"TypeDef row {rid} out of range - {rows} rows"
  | .typeRefRange rid => s!"TypeRef row {rid} out of range"
  | .memberRefRange rid => s!"MemberRef row {rid} out of range"
  | .assemblyRefRange rid => s!"AssemblyRef row {rid} out of range"
  | .exportedNesting rid => s!"ExportedType row {rid} is nested in itself"
  | .nestedTwice rid => s!"TypeDef row {rid} is nested in more than one type"
  | .nestingCycle rid => s!"NestedClass rows of TypeDef row {rid} form a cycle"
  | .typeTokenNull => "Null type token in signature"
  | .instantiationOfOther => "Generic instantiation of a type that is not a definition"
  | .methodUnowned rid => s!"MethodDef row {rid} belongs to no type"
  | .methodMissing rid => s!"MethodDef row {rid} missing from its type"
  | .tokenNoMethod token => s!"Token {token} does not name a method"
  | .memberRefParent token => s!"MemberRef parent {token} is not a named type"
  | .memberRefNone rid parent name =>
    s!"MemberRef row {rid} names {parent}::{name} which does not exist"
  | .memberRefSeveral rid parent name =>
    s!"MemberRef row {rid} matches several overloads of {parent}::{name}"
  | .genericOwner token => s!"Token {token} cannot own generic parameters"
  | .genericNumbers token arity =>
    s!"Generic parameters of {token} are not numbered 0..{arity}"
  | .genericScope level number count =>
    s!"{level.name} generic parameter {number} referenced but only {count} in scope"
  | .inheritanceCycle name => s!"Cyclic inheritance involving {name}"
  | .baseUnnamed name node => s!"Base type of {name} is not a named type: {node}"
  | .interfaceUnnamed rid => s!"InterfaceImpl row {rid} does not name an interface"
  | .delegateInvoke name => s!"Delegate {name} has no unique Invoke method"
  | .enumField name => s!"Enum {name} has no value__ field"
  | .enumFieldType name => s!"Backing field of {name} is not of a named type"
  | .accessorSemantics value owner name =>
    s!"Unexpected semantics 0x{Hex.lower 4 value} for an accessor of {owner.name} {name}"
  | .enumArgumentUnnamed => "Enum argument without a type name"
  | .argumentTag byte offset =>
    s!"Invalid attribute argument type 0x{Hex.lower 2 byte.toNat} at offset {offset}"
  | .argumentElement byte =>
    s!"Element type 0x{Hex.lower 2 byte.toNat} cannot be an attribute argument"
  | .argumentBlobEmpty params =>
    s!"Empty attribute blob for a constructor with {params} parameters"
  | .argumentProlog value => s!"Invalid attribute prolog 0x{Hex.lower 4 value}"
  | .namedArgumentKind byte => s!"Invalid named argument kind 0x{Hex.lower 2 byte.toNat}"
  | .namedArgumentUnnamed => "Named argument without a name"
  | .argumentTrailing count => s!"Attribute blob has {count} trailing bytes"
  | .argumentNotEnum name => s!"{name} is used as an enum argument but is not an enum"
  | .argumentEnumType name underlying =>
    s!"Enum {name} has non-primitive underlying type {underlying}"
  | .argumentType text => s!"{text} cannot be an attribute argument type"

end Defect

/-- A cycle of references, or what is taken for one. -/
inductive Cycle
  | chain (identities : List AssemblyIdentity)
  | forwarded (typeName : String) (limit : Nat) (last : AssemblyIdentity)
  -- A cycle that a resolver reports in its own words.
  | reported (text : String)
  deriving DecidableEq, Repr

def Cycle.message : Cycle → String
  | .chain identities => " -> ".intercalate (identities.map (·.display))
  | .forwarded typeName limit last =>
    s!"{typeName} forwarded more than {limit} times, last by {last}"
  | .reported text => text

inductive Error
  | malformed (defect : Defect)
  | outOfBounds
  | notSupported
  | empty
  | recursionLimit (limit : Nat)
  | fileMissing
  | notPortable (fault : ImageFault)
  | assemblyNotFound (identity : String) (reason : String)
  | referenceCycle (cycle : Cycle)
  | typeNotFound (name : String)
  | genericArity (expected actual : Nat)
  | entityDropped
  -- The evaluation was cut off before it came to an end.
  | exhausted
  deriving DecidableEq, Repr

namespace Error

def name : Error → String
  | .malformed _ => "Malformed"
  | .outOfBounds => "OutOfBounds"
  | .notSupported => "NotSupported"
  | .empty => "Empty"
  | .recursionLimit _ => "RecursionLimit"
  | .fileMissing => "FileMissing"
  | .notPortable _ => "NotPortable"
  | .assemblyNotFound _ _ => "AssemblyNotFound"
  | .referenceCycle _ => "ReferenceCycle"
  | .typeNotFound _ => "TypeNotFound"
  | .genericArity _ _ => "GenericArityMismatch"
  | .entityDropped => "EntityDropped"
  | .exhausted => "Exhausted"

def message : Error → String
  | .malformed defect => s!"Malformed: {defect.message}"
  | .outOfBounds => "Out of Bound read would have occurred"
  | .notSupported => "This file type is not supported"
  | .empty => "Provided input was empty"
  | .recursionLimit limit => s!"Reach the maximum recursion level allowed - {limit}"
  | .fileMissing => "No such file or directory (os error 2)"
  | .notPortable fault => fault.message
  | .assemblyNotFound identity reason => s!"Could not load assembly '{identity}': {reason}"
  | .referenceCycle cycle => s!"Assembly reference cycle detected - {cycle.message}"
  | .typeNotFound name => s!"Failed to find type '{name}'"
  | .genericArity expected actual =>
    s!"Generic arity mismatch - expected {expected} arguments, got {actual}"
  | .entityDropped => "The entity behind this handle has been dropped"
  | .exhausted => "The evaluation did not come to an end"

end Error

end CliMetadata
