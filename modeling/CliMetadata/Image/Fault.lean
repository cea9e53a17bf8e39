import CliMetadata.Text.Quoted

set_option autoImplicit false

namespace CliMetadata

inductive ImagePart
  | imports
  | debugTable
  | threadStorage
  | exceptions
  | baseRelocations
  | loadConfiguration
  | resources
  | clrHeader
  | metadata
  deriving DecidableEq, Repr

inductive ImageFault
  | pastEnd (offset : Nat)
  | tooBig (width available : Nat)
  | notText (available : Nat)
  | noDosSignature
  | dosSignature (found : Nat)
  | noHeaderPointer
  | noSignature (pointer : Nat)
  | signature (found : Nat)
  | stubRange (start stop : Nat)
  | stampUnopened
  | stampOpening (start length : Nat)
  | optionalMagic (magic : Nat)
  | directoryCount (count most : Nat)
  | sectionCount (count : Nat)
  | sectionNameNumber (digits reason : String)
  | sectionNameBase64 (digits : String)
  | unmapped (part : ImagePart) (rva : Nat)
  | outside (part : ImagePart) (offset size available : Nat)
  | importName (rva : Nat) (sections : String)
  | importAddresses (rva : Nat) (library : String)
  | debugSize (size : Nat)
  | debugEntry (entry : String)
  | storageOrder (start stop : Nat)
  | storageBelow (what : String) (address base : Nat)
  | storageUnmapped (what : String) (rva : Nat)
  | exceptionsSize (size : Nat)
  | certificatesEnd
  | certificateSize (size : Nat)
  | certificateRevision
  | certificateKind
  deriving DecidableEq, Repr

namespace ImageFault

def address (n : Nat) : String := "0x" ++ Hex.lower 1 n

def unmappedMessage (rva : Nat) : ImagePart → String
  | .imports =>
    s!"Cannot create ImportData; cannot map import_directory_table_rva {address rva} into offset"
  | .debugTable => s!"Cannot map ImageDebugDirectory rva {address rva} into offset"
  | .threadStorage => s!"Cannot map ImageTlsDirectory rva {address rva} into offset"
  | .exceptions => s!"cannot map exception_rva ({address rva}) into offset"
  | .baseRelocations => s!"Cannot map base reloc rva {address rva} into offset"
  | .loadConfiguration => s!"Cannot map load config rva {address rva} into offset"
  | .resources => s!"Cannot map resource rva {address rva} into offset"
  | .clrHeader => s!"Cannot map COM descriptor rva {address rva} into offset"
  | .metadata => s!"Cannot map COR20 metadata rva {address rva} into offset"

def outsideMessage (offset size available : Nat) : ImagePart → String
  | .debugTable =>
    s!"ImageDebugDirectory offset {address offset} and size {address size} exceeds the bounds of the bytes size {address available}"
  | .metadata =>
    s!"COR20 metadata offset ({address offset}) and size ({address size}) exceeds bytes slice ({address available})"
  | .baseRelocations =>
    s!"base reloc offset ({address offset}) and size ({address size}) exceeds bytes slice ({address available})"
  | .threadStorage =>
    s!"tls raw data offset ({address offset}) and size ({address size}) exceeds bytes slice ({address available})"
  | _ => s!"offset ({address offset}) and size ({address size}) exceeds bytes slice ({address available})"

def malformed (text : String) : String := "Malformed entity: " ++ text

def message : ImageFault → String
  | .pastEnd offset => s!"bad offset {offset}"
  | .tooBig width available => s!"type is too big ({width}) for {available}"
  | .notText available => s!"bad input invalid utf8 ({available})"
  | .noDosSignature => malformed s!"cannot parse DOS signature (offset {address 0})"
  | .dosSignature found => malformed s!"DOS header is malformed (signature {address found})"
  | .noHeaderPointer => malformed s!"cannot parse PE header pointer (offset {address 0x3C})"
  | .noSignature pointer => malformed s!"cannot parse PE header signature (offset {address pointer})"
  | .signature found => malformed s!"PE header is malformed (signature {address found})"
  | .stubRange start stop =>
    malformed s!"Rich header scan start (0x{Hex.upper 1 start}) is greater than scan end (0x{Hex.upper 1 stop})"
  | .stampUnopened => malformed "Rich header does not contain the DanS marker"
  | .stampOpening start length =>
    malformed s!"Rich data start offset (0x{Hex.upper 1 start}) exceeds the length of the rich header (0x{Hex.upper 1 length})"
  | .optionalMagic magic => s!"Invalid magic number: {address magic}"
  | .directoryCount count most =>
    malformed s!"data directory count ({count}) is greater than maximum number of data directories ({most})"
  | .sectionCount count => s!"Buffer is too short for {count} sections"
  | .sectionNameNumber digits reason =>
    malformed s!"Invalid indirect section name /{digits}: {reason}"
  | .sectionNameBase64 digits =>
    malformed s!"Invalid indirect section name //{digits}: base64 decoding failed"
  | .unmapped part rva => malformed (unmappedMessage rva part)
  | .outside part offset size available => malformed (outsideMessage offset size available part)
  | .importName rva sections =>
    malformed s!"Cannot find name from rva {address rva} in sections: {sections}"
  | .importAddresses rva library =>
    malformed s!"Cannot map import_address_table_rva {address rva} into offset for {library}"
  | .debugSize size => malformed s!"ImageDebugDirectory size of data seems wrong: {size}"
  | .debugEntry entry => malformed s!"ImageDebugDirectory seems corrupted: {entry}"
  | .storageOrder start stop =>
    malformed s!"tls start_address_of_raw_data ({address start}) is greater than end_address_of_raw_data ({address stop})"
  | .storageBelow what va base =>
    malformed s!"tls {what} ({address va}) is less than image base ({address base})"
  | .storageUnmapped what rva => malformed s!"cannot map tls {what} rva ({address rva}) into offset"
  | .exceptionsSize size => s!"bad input invalid exception directory table size ({size})"
  | .certificatesEnd =>
    malformed "End of attribute certificates table is after the end of the PE binary"
  | .certificateSize size =>
    malformed s!"Unable to extract certificate. Probably cert_size:{size} is malformed"
  | .certificateRevision => malformed "Invalid certificate attribute revision"
  | .certificateKind => malformed "Invalid attribute certificate type"

end ImageFault

end CliMetadata
