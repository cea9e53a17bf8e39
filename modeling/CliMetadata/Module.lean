import CliMetadata.Heap.Blobs
import CliMetadata.Heap.Guids
import CliMetadata.Heap.Strings
import CliMetadata.Image
import CliMetadata.Table.Children
import CliMetadata.Table.Record

set_option autoImplicit false

namespace CliMetadata

structure Module where
  image : Image
  root : StorageRoot
  tables : TableStream
  strings : Option StringHeap
  blobs : Option BlobHeap
  guids : Option GuidHeap
  userStrings : Option UserStringHeap

namespace Module

def streamBytes? (metadata : ByteArray) (root : StorageRoot) (name : String) : Option ByteArray :=
  (root.stream? name).map fun h => metadata.extract h.offset (h.offset + h.size)

def heap? {α : Type} (bytes : Option ByteArray) (read : ByteArray → Except Error α) :
    Except Error (Option α) :=
  match bytes with
  | some data => some <$> read data
  | none => .ok none

def ofImage (image : Image) : Except Error Module := do
  let metadata := image.metadata
  let root ← StorageRoot.read metadata
  let stream := streamBytes? metadata root
  let some tableBytes := stream "#~" <|> stream "#-"
    | throw (.malformed .noTableStream)
  let tables ← TableStream.read tableBytes
  let strings ← heap? (stream "#Strings") StringHeap.ofBytes
  let blobs ← heap? (stream "#Blob") BlobHeap.ofBytes
  let guids ← heap? (stream "#GUID") GuidHeap.ofBytes
  let userStrings ← heap? (stream "#US") UserStringHeap.ofBytes
  return { image, root, tables, strings, blobs, guids, userStrings }

def read (data : ByteArray) : Except Error Module := do
  ofImage (← Image.read data)

def string (m : Module) (index : Nat) : Except Error String :=
  if index = 0 then .ok ""
  else
    match m.strings with
    | some heap => heap.get index
    | none => .error (.malformed (.noStringHeap index))

def blob (m : Module) (index : Nat) : Except Error ByteArray :=
  if index = 0 then .ok .empty
  else
    match m.blobs with
    | some heap => heap.get index
    | none => .error (.malformed (.noBlobHeap index))

def guid (m : Module) (index : Nat) : Except Error (Option Guid) :=
  if index = 0 then .ok none
  else
    match m.guids with
    | some heap => some <$> heap.get index
    | none => .error (.malformed (.noGuidHeap index))

def userString (m : Module) (index : Nat) : Except Error String :=
  match m.userStrings with
  | some heap => Utf16.decodeLossy <$> heap.get index
  | none => if index = 0 then .ok "" else .error (.malformed (.noUserStringHeap index))

def row (m : Module) (t : Table) (rid : Nat) : Scan (Row t) :=
  match m.tables.view? t with
  | some view => view.get rid
  | none => throw (.malformed (.rowAbsent rid t))

def rowAt (m : Module) (t : Table) (rid : Nat) : Except Error (Row t) := (m.row t rid).result

def name (m : Module) : Scan String := do
  let row ← m.row .module 1
  Scan.lift (m.string (ModuleRow.ofRow row).name)

def assemblyRow (m : Module) : Scan (Option (Row .assembly)) :=
  match m.tables.view? .assembly with
  | some view => some <$> view.get 1
  | none => return none

def rowsOf (m : Module) (t : Table) (key : Token) : Except Error (List (Row t)) :=
  match m.tables.view? t with
  | some view => (view.findAll key).result
  | none => .ok []

def rowOf? (m : Module) (t : Table) (key : Token) : Except Error (Option (Row t)) :=
  match m.tables.view? t with
  | some view => (view.findAny key).result
  | none => .ok none

end Module

end CliMetadata
