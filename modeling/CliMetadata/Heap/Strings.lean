import CliMetadata.Bytes.Basic

set_option autoImplicit false

namespace CliMetadata

structure StringHeap where
  data : ByteArray

namespace StringHeap

def ofBytes (data : ByteArray) : Except Error StringHeap :=
  if data.data[0]? = some 0 then .ok ⟨data⟩ else .error (.malformed .stringHeap)

def untilNul (data : ByteArray) (position : Nat) : Option (List UInt8) :=
  if h : position < data.size then
    if data[position] = 0 then some []
    else (untilNul data (position + 1)).map (data[position] :: ·)
  else none
termination_by data.size - position

def get (heap : StringHeap) (index : Nat) : Except Error String :=
  if index < heap.data.size then
    match untilNul heap.data index with
    | none => .error (.malformed (.stringOpen index))
    | some bytes => (Utf8.decode bytes).mapError fun _ => .malformed (.stringText index)
  else .error .outOfBounds

end StringHeap

end CliMetadata
