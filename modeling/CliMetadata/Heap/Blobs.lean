import CliMetadata.Bytes.Compressed
import CliMetadata.Text.Unicode

set_option autoImplicit false

namespace CliMetadata

structure BlobHeap where
  data : ByteArray

namespace BlobHeap

def ofBytes (data : ByteArray) : Except Error BlobHeap :=
  if data.data[0]? = some 0 then .ok ⟨data⟩ else .error (.malformed .blobHeap)

def entry : Reader ByteArray := do
  Reader.bytes (← Reader.compressedUint)

def entryAt (heap : BlobHeap) (index : Nat) : Except Error (ByteArray × Nat) :=
  match entry.run { data := heap.data.extract index heap.data.size } with
  | .ok blob cursor => .ok (blob, cursor.pos)
  | .error e _ => .error e

def get (heap : BlobHeap) (index : Nat) : Except Error ByteArray :=
  if index < heap.data.size then (heap.entryAt index).map Prod.fst else .error .outOfBounds

inductive Item
  | blob (offset : Nat) (bytes : ByteArray)
  | fault (e : Error)

/-- What a walk meets at a position, and the position behind it. A blob that cannot be read moves
the walk to the end of the heap. -/
def next (heap : BlobHeap) (position : Nat) : Option (Item × Nat) :=
  if position < heap.data.size then
    match heap.entryAt position with
    | .ok (bytes, taken) => some (.blob position bytes, position + taken)
    | .error e => some (.fault e, heap.data.size)
  else none

def walk (heap : BlobHeap) : (fuel position : Nat) → List Item
  | 0, _ => []
  | fuel + 1, position =>
    match heap.next position with
    | some (item, behind) => item :: heap.walk fuel behind
    | none => []

/-- Every blob takes a byte at least, so the walk has no more steps than the heap has bytes. -/
def items (heap : BlobHeap) : List Item := heap.walk heap.data.size 1

end BlobHeap

end CliMetadata

namespace CliMetadata

structure UserStringHeap where
  data : ByteArray

namespace UserStringHeap

def ofBytes (data : ByteArray) : Except Error UserStringHeap :=
  if data.data[0]? = some 0 then .ok ⟨data⟩ else .error (.malformed .userStringHeap)

def get (heap : UserStringHeap) (index : Nat) : Except Error (List UInt16) :=
  if index < heap.data.size then
    ((BlobHeap.mk heap.data).entryAt index).map fun blob => Utf16.units blob.1.toList
  else .error .outOfBounds

end UserStringHeap

end CliMetadata
