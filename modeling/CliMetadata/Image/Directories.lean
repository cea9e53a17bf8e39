import CliMetadata.Image.Portable

/-!
What the data directories of a portable executable lead to, as far as a file is refused for it: the
tables of imports, of debugging data, of thread storage, of exceptions and of relocations, the load
configuration, the resources, the header of the common language runtime with the storage signature
behind it, and the certificates. `Portable.parse` reads the headers and checks all of these.
-/

set_option autoImplicit false

namespace CliMetadata

structure MappedImage where
  data : ByteArray
  sections : List Section
  header : OptionalHeader

namespace MappedImage

open ImageField

def offset? (m : MappedImage) (rva : Nat) : Option Nat :=
  Section.mapped? m.sections m.header.fileAlignment rva

def offset (m : MappedImage) (rva : Nat) (fault : ImageFault) : Except ImageFault Nat :=
  match m.offset? rva with
  | some offset => .ok offset
  | none => .error fault

def partOffset (m : MappedImage) (part : ImagePart) (rva : Nat) : Except ImageFault Nat :=
  m.offset rva (.unmapped part rva)

def inside (m : MappedImage) (part : ImagePart) (offset size : Nat) : Except ImageFault Unit :=
  if m.data.size < offset + size then .error (.outside part offset size m.data.size) else .ok ()

def word (m : MappedImage) (offset : Nat) : Nat := Bytes.number m.data offset 4

def addressWidth (m : MappedImage) : Nat := if m.header.wide then 8 else 4

def checkImport (m : MappedImage) (entry : Nat) : Except ImageFault Unit := do
  if entry / (if m.header.wide then 0x8000000000000000 else 0x80000000) % 2 = 0 then
    if let some offset := m.offset? (entry % 0x80000000) then
      let _ ← number m.data offset 2
      let _ ← text m.data (offset + 2) m.data.size

def checkLibrary (m : MappedImage) (descriptor : Nat) : Except ImageFault Unit := do
  let nameRva := m.word (descriptor + 12)
  let shown := "[" ++ ", ".intercalate (m.sections.map (·.display)) ++ "]"
  let nameOffset ← m.offset nameRva (.importName nameRva shown)
  let library ← text m.data nameOffset m.data.size
  if let some lookups := m.offset? (m.word descriptor) then
    visitTable m.data m.addressWidth m.checkImport lookups
  let addressesRva := m.word (descriptor + 16)
  let addresses ← m.offset addressesRva (.importAddresses addressesRva library)
  visitTable m.data m.addressWidth (fun _ => .ok ()) addresses

def checkLibraries (m : MappedImage) (offset : Nat) : Except ImageFault Unit :=
  if _fits : offset + 20 ≤ m.data.size then
    if Bytes.number m.data offset 20 = 0 then .ok ()
    else
      match m.checkLibrary offset with
      | .ok () => m.checkLibraries (offset + 20)
      | .error fault => .error fault
  else record m.data.size offset offset [4, 4, 4, 4, 4]
termination_by m.data.size - offset

def checkImports (m : MappedImage) (d : DataDirectory) : Except ImageFault Unit := do
  m.checkLibraries (← m.partOffset .imports d.rva)

def debugWidths : List Nat := [4, 4, 2, 2, 4, 4, 4, 4]

def debugEntrySize : Nat := 28

def displayDebugEntry (m : MappedImage) (entry : Nat) : String :=
  let half (place : Nat) := Bytes.number m.data (entry + place) 2
  Text.record "ImageDebugDirectory"
    [("characteristics", toString (m.word entry)),
      ("time_date_stamp", toString (m.word (entry + 4))),
      ("major_version", toString (half 8)),
      ("minor_version", toString (half 10)),
      ("data_type", toString (m.word (entry + 12))),
      ("size_of_data", toString (m.word (entry + 16))),
      ("address_of_raw_data", toString (m.word (entry + 20))),
      ("pointer_to_raw_data", toString (m.word (entry + 24)))]

def checkSymbolFile (m : MappedImage) (entry signature : Nat) (widths : List Nat) (fixed : Nat) :
    Except ImageFault Unit := do
  let size := m.word (entry + 16)
  let start := m.word (entry + 24)
  if size < fixed then
    throw (.debugSize size)
  if (← number m.data start 4) = signature then
    fieldsFrom m.data.size 0 (start + 4) widths
    if m.data.size < start + size then
      throw (.debugEntry (m.displayDebugEntry entry))

def checkDebugEntry (m : MappedImage) (entry : Nat) : Except ImageFault Unit := do
  let start := m.word (entry + 24)
  match m.word (entry + 12) with
  | 2 =>
    m.checkSymbolFile entry 0x53445352 [16, 4] 24
    m.checkSymbolFile entry 0x3031424E [4, 4, 4] 16
  | 12 => fieldsFrom m.data.size 0 start [4, 4, 4, 4, 4]
  | 20 => within m.data.size start 4
  | _ => return

def checkDebugEntries (m : MappedImage) (stop entry : Nat) : Except ImageFault Unit :=
  if entry < stop then
    if entry + debugEntrySize ≤ stop then
      match m.checkDebugEntry entry with
      | .ok () => m.checkDebugEntries stop (entry + debugEntrySize)
      | .error fault => .error fault
    else record stop entry 0 debugWidths
  else .ok ()
termination_by stop - entry
decreasing_by simp only [debugEntrySize]; omega

def checkDebugTable (m : MappedImage) (d : DataDirectory) : Except ImageFault Unit := do
  let start ← m.partOffset .debugTable d.rva
  m.inside .debugTable start d.size
  m.checkDebugEntries (start + d.size) start

def belowBase (m : MappedImage) (what : String) (va : Nat) : Except ImageFault Nat :=
  if va < m.header.imageBase then .error (.storageBelow what va m.header.imageBase)
  else .ok (va - m.header.imageBase)

def checkStorageData (m : MappedImage) (start stop : Nat) : Except ImageFault Unit := do
  if stop < start then
    throw (.storageOrder start stop)
  let what := "start_address_of_raw_data"
  let rva ← m.belowBase what start
  m.inside .threadStorage (← m.offset rva (.storageUnmapped what rva)) (stop - start)

def checkCallback (m : MappedImage) (callback : Nat) : Except ImageFault Unit := do
  let rva ← m.belowBase "callback" callback
  let _ ← m.offset rva (.storageUnmapped "callback" rva)

def checkCallbacks (m : MappedImage) (va : Nat) : Except ImageFault Unit := do
  let what := "address_of_callbacks"
  let rva ← m.belowBase what va
  let table ← m.offset rva (.storageUnmapped what rva)
  visitTable m.data m.addressWidth m.checkCallback table

def checkThreadStorage (m : MappedImage) (d : DataDirectory) : Except ImageFault Unit := do
  let table ← m.partOffset .threadStorage d.rva
  let width := m.addressWidth
  fieldsFrom m.data.size 0 table [width, width, width, width, 4, 4]
  let field (place : Nat) := Bytes.number m.data (table + place * width) width
  let (start, stop, index, callbacks) := (field 0, field 1, field 2, field 3)
  if start ≠ 0 ∧ stop ≠ 0 then
    m.checkStorageData start stop
  if index ≠ 0 then
    let _ ← m.belowBase "address_of_index" index
  if callbacks ≠ 0 then
    m.checkCallbacks callbacks

def machineX64 : Nat := 0x8664

def checkExceptions (m : MappedImage) (d : DataDirectory) : Except ImageFault Unit := do
  if d.size % 12 ≠ 0 then
    throw (.exceptionsSize d.size)
  let table ← m.partOffset .exceptions d.rva
  if table % 4 ≠ 0 then
    throw (.pastEnd table)

def checkBaseRelocations (m : MappedImage) (d : DataDirectory) : Except ImageFault Unit := do
  m.inside .baseRelocations (← m.partOffset .baseRelocations d.rva) d.size

def checkLoadConfiguration (m : MappedImage) (d : DataDirectory) : Except ImageFault Unit := do
  within m.data.size (← m.partOffset .loadConfiguration d.rva) 4

def checkResources (m : MappedImage) (d : DataDirectory) : Except ImageFault Unit := do
  let table ← m.partOffset .resources d.rva
  record m.data.size table table [4, 4, 2, 2, 2, 2]
  let count := Bytes.number m.data (table + 12) 2 + Bytes.number m.data (table + 14) 2
  m.inside .resources table (16 + 8 * count)

def clrHeaderWidths : List Nat := [4, 2, 2, 4, 4, 4, 4, 4, 4, 4, 4, 4, 4, 4, 4, 4, 4, 4, 4]

def checkRuntime (m : MappedImage) (d : DataDirectory) : Except ImageFault Unit := do
  let limit := m.data.size
  let header ← m.partOffset .clrHeader d.rva
  record limit header header clrHeaderWidths
  let start ← m.partOffset .metadata (m.word (header + 8))
  within limit start 4
  m.inside .metadata start (m.word (header + 12))
  record limit start start [4, 2, 2, 4, 4]
  let version := start + 16
  let length := m.word (start + 12)
  within limit version length
  let _ ← textOf m.data version (version + length) limit
  within limit (version + length) 4

def checkCertificates (m : MappedImage) (stop offset : Nat) : Except ImageFault Unit :=
  if offset < stop then
    match record m.data.size offset offset [4, 2, 2] with
    | .error fault => .error fault
    | .ok () =>
      let size := m.word offset - 8
      let revision := Bytes.number m.data (offset + 4) 2
      let kind := Bytes.number m.data (offset + 6) 2
      if m.data.size < offset + 8 + size then .error (.certificateSize size)
      else if revision ≠ 0x100 ∧ revision ≠ 0x200 then .error .certificateRevision
      else if kind = 0 ∨ 4 < kind then .error .certificateKind
      else m.checkCertificates stop ((offset + 8 + size + 7) / 8 * 8)
  else .ok ()
termination_by stop - offset

def checkCertificateTable (m : MappedImage) (d : DataDirectory) : Except ImageFault Unit := do
  if m.data.size < d.rva + d.size then
    throw .certificatesEnd
  m.checkCertificates (d.rva + d.size) d.rva

def checks (machine : Nat) : List (Nat × (MappedImage → DataDirectory → Except ImageFault Unit)) :=
  [(1, checkImports), (6, checkDebugTable), (9, checkThreadStorage)]
    ++ (if machine = machineX64 then [(3, checkExceptions)] else [])
    ++ [(5, checkBaseRelocations), (10, checkLoadConfiguration), (14, checkRuntime),
      (2, checkResources), (4, checkCertificateTable)]

def check (m : MappedImage) (machine : Nat) : Except ImageFault Unit :=
  (checks machine).forM fun (place, run) =>
    match m.header.directory? place with
    | some d => run m d
    | none => .ok ()

end MappedImage

namespace Portable

def checked (data : ByteArray) : Except ImageFault Portable := do
  let portable ← read data
  if let some header := portable.optional then
    MappedImage.check ⟨data, portable.sections, header⟩ portable.machine
  return portable

def parse (data : ByteArray) : Except Error Portable := (checked data).mapError .notPortable

end Portable

end CliMetadata
