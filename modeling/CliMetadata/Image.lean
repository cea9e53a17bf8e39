import CliMetadata.Image.ClrHeader
import CliMetadata.Image.Directories
import CliMetadata.Storage.Root

set_option autoImplicit false

namespace CliMetadata

structure Image where
  data : ByteArray
  start : Nat
  stop : Nat
  clrHeader : Option ClrHeader

namespace Image

/-- An address mapped over the sections. A section counts with the larger of its two sizes; one
that reaches past the address space is an error if no section before it holds the address. -/
def offsetOf (rva : Nat) : List Section → Except Error Nat
  | [] => .error (.malformed (.addressUnmapped rva))
  | s :: rest =>
    let extent := max s.virtualSize s.rawSize
    if 0x100000000 ≤ s.virtualAddress + extent then
      .error (.malformed (.sectionExtent s.virtualAddress extent))
    else if s.virtualAddress ≤ rva ∧ rva < s.virtualAddress + extent then
      .ok (rva - s.virtualAddress + s.rawPointer)
    else offsetOf rva rest

def locate (data : ByteArray) : Except Error (Nat × Nat × ClrHeader) := do
  let portable ← Portable.parse data
  let some optional := portable.optional
    | throw (.malformed .noOptionalHeader)
  let some clr := optional.clr?
    | throw (.malformed .noClrDirectory)
  let offset ← offsetOf clr.rva portable.sections
  if data.size < offset then
    throw .outOfBounds
  let header ← ClrHeader.read (data.extract offset data.size)
  let start ← offsetOf header.metadataRva portable.sections
  let stop := start + header.metadataSize
  if data.size < stop then
    throw (.malformed (.metadataRange start stop data.size))
  return (start, stop, header)

def read (data : ByteArray) : Except Error Image := do
  if data.size = 0 then
    throw .empty
  if 4 ≤ data.size ∧ Bytes.number data 0 4 = StorageRoot.magic then
    return { data, start := 0, stop := data.size, clrHeader := none }
  let (start, stop, header) ← locate data
  return { data, start, stop, clrHeader := some header }

def isPortable (image : Image) : Bool := image.clrHeader.isSome

def metadata (image : Image) : ByteArray := image.data.extract image.start image.stop

end Image

end CliMetadata
