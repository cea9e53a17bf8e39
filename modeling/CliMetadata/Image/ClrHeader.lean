import CliMetadata.Bytes.Cursor

set_option autoImplicit false

namespace CliMetadata

structure ClrHeader where
  headerSize : Nat
  majorRuntime : Nat
  minorRuntime : Nat
  metadataRva : Nat
  metadataSize : Nat
  flags : Nat
  entryPointToken : Nat
  resourcesRva : Nat
  resourcesSize : Nat
  strongNameRva : Nat
  strongNameSize : Nat
  deriving DecidableEq, Repr

namespace ClrHeader

def size : Nat := 72

def reader : Reader ClrHeader := do
  let headerSize ← Reader.number 4
  if headerSize < size then
    Reader.malformed (.clrHeaderSize headerSize)
  let majorRuntime ← Reader.number 2
  let minorRuntime ← Reader.number 2
  let metadataRva ← Reader.number 4
  let metadataSize ← Reader.number 4
  if metadataRva = 0 ∨ metadataSize = 0 then
    Reader.malformed (.clrHeaderEmpty metadataRva metadataSize)
  let flags ← Reader.number 4
  let entryPointToken ← Reader.number 4
  let resourcesRva ← Reader.number 4
  let resourcesSize ← Reader.number 4
  let strongNameRva ← Reader.number 4
  let strongNameSize ← Reader.number 4
  return {
    headerSize, majorRuntime, minorRuntime, metadataRva, metadataSize, flags, entryPointToken
    resourcesRva, resourcesSize, strongNameRva, strongNameSize }

def read (data : ByteArray) : Except Error ClrHeader :=
  if data.size < size then .error .outOfBounds else reader.runOn data

def ilOnly (h : ClrHeader) : Bool := h.flags % 2 == 1

def nativeEntryPoint (h : ClrHeader) : Bool := h.flags / 16 % 2 == 1

def entryPoint? (h : ClrHeader) : Option Token :=
  if h.entryPointToken = 0 || h.nativeEntryPoint then none else some ⟨h.entryPointToken.toUInt32⟩

end ClrHeader

end CliMetadata
