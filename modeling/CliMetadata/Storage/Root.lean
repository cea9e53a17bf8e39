import CliMetadata.Bytes.Cursor
import CliMetadata.Storage.StreamHeader

set_option autoImplicit false

namespace CliMetadata

structure StorageRoot where
  signature : Nat
  majorVersion : Nat
  minorVersion : Nat
  reserved : Nat
  versionLength : Nat
  version : String
  flags : Nat
  streams : List StreamHeader
  deriving Repr

namespace StorageRoot

def magic : Nat := 0x424A5342

def maxVersionLength : Nat := 256

def nextStream (before : List StreamHeader) : Reader StreamHeader := do
  let cursor ← get
  let header ← match StreamHeader.readAt cursor.data cursor.pos with
    | .ok header => pure header
    | .error e => throw e
  Reader.advanceBy header.encodedSize
  if header.offset + header.size < 0x100000000 ∧ header.offset + header.size ≤ cursor.data.size then
    if before.any (·.name == header.name) then
      Reader.malformed (.streamTwice header.name)
    return header
  else
    Reader.malformed (.streamRange header.name header.offset header.size)

def nextStreams : (count : Nat) → List StreamHeader → Reader (List StreamHeader)
  | 0, read => return read
  | count + 1, read => do
    let header ← nextStream read
    nextStreams count (read ++ [header])

def reader : Reader StorageRoot := do
  let signature ← Reader.number 4
  if signature ≠ magic then
    Reader.malformed (.rootMagic signature)
  let majorVersion ← Reader.number 2
  let minorVersion ← Reader.number 2
  let reserved ← Reader.number 4
  let versionLength ← Reader.number 4
  if maxVersionLength < versionLength then
    Reader.malformed (.versionLength versionLength)
  let text ← Reader.bytes versionLength
  let flags ← Reader.number 2
  let count ← Reader.number 2
  if count = 0 then
    Reader.malformed .noStreams
  let streams ← nextStreams count []
  return {
    signature, majorVersion, minorVersion, reserved, versionLength, flags, streams
    version := Utf8.decodeLossy (text.toList.takeWhile (· != 0)) }

def read (data : ByteArray) : Except Error StorageRoot := reader.runOn data

def stream? (root : StorageRoot) (name : String) : Option StreamHeader :=
  root.streams.find? (·.name == name)

end StorageRoot

end CliMetadata
