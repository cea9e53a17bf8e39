import CliMetadata.Bytes.Basic

set_option autoImplicit false

namespace CliMetadata

structure Guid where
  bytes : List UInt8
  deriving DecidableEq, Repr

namespace Guid

def display (g : Guid) : String :=
  let part (start count : Nat) := (g.bytes.drop start).take count
  "-".intercalate
    [Hex.ofBytes (part 0 4).reverse, Hex.ofBytes (part 4 2).reverse, Hex.ofBytes (part 6 2).reverse,
     Hex.ofBytes (part 8 2), Hex.ofBytes (part 10 6)]

end Guid

structure GuidHeap where
  data : ByteArray

namespace GuidHeap

def ofBytes (data : ByteArray) : Except Error GuidHeap :=
  if data.size % 16 = 0 then .ok ⟨data⟩ else .error (.malformed (.guidHeap data.size))

def count (heap : GuidHeap) : Nat := heap.data.size / 16

def get (heap : GuidHeap) (index : Nat) : Except Error Guid :=
  if 1 ≤ index ∧ index ≤ heap.count then
    .ok ⟨(heap.data.extract ((index - 1) * 16) (index * 16)).toList⟩
  else .error .outOfBounds

end GuidHeap

end CliMetadata
