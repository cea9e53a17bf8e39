import CliMetadata.Bytes.Basic

set_option autoImplicit false

namespace CliMetadata

structure StreamHeader where
  offset : Nat
  size : Nat
  name : String
  deriving DecidableEq, Repr

namespace StreamHeader

def nameLimit : Nat := 32

def readAt (data : ByteArray) (position : Nat) : Except Error StreamHeader :=
  if data.size < position + 9 then .error .outOfBounds
  else
    let area := (data.extract (position + 8) (position + 8 + nameLimit)).toList
    let name := area.takeWhile (· != 0)
    if name.length = area.length then .error (.malformed .streamNameOpen)
    else if name.all (· < 0x80) then
      .ok {
        offset := Bytes.number data position 4
        size := Bytes.number data (position + 4) 4
        name := String.ofList (name.map fun b => Char.ofNat b.toNat) }
    else .error (.malformed (.streamNameBytes name))

def encodedSize (h : StreamHeader) : Nat := 8 + (h.name.length + 4) / 4 * 4

end StreamHeader

end CliMetadata
