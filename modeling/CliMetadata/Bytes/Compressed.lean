import CliMetadata.Bytes.Cursor
import CliMetadata.Bytes.Writer

set_option autoImplicit false

namespace CliMetadata

namespace Reader

def compressedUint : Reader Nat := do
  let first ← byte
  if first < 0x80 then
    return first.toNat
  else if first < 0xC0 then
    let second ← byte
    return (first.toNat - 0x80) * 0x100 + second.toNat
  else if first < 0xE0 then
    let rest ← bytes 3
    return (first.toNat - 0xC0) * 0x1000000 + (rest.toList.foldl (fun n b => n * 256 + b.toNat) 0)
  else
    malformed (.compressedUint ((← pos) - 1) first)

def signedHalf (length : Nat) : Nat :=
  if length = 1 then 0x40 else if length = 2 then 0x2000 else 0x10000000

def compressedInt : Reader Int := do
  let start ← pos
  let raw ← compressedUint
  let length := (← pos) - start
  return if raw % 2 = 0 then ((raw / 2 : Nat) : Int) else (raw / 2 : Nat) - (signedHalf length : Int)

def tokenTable? (tag : Nat) : Option Table :=
  match tag with
  | 0 => some .typeDef
  | 1 => some .typeRef
  | 2 => some .typeSpec
  | _ => none

def tokenOf (value : Nat) : Reader Token :=
  match tokenTable? (value % 4) with
  | some table => return .ofBits table (value / 4)
  | none => malformed (.compressedToken value)

def compressedToken : Reader Token := do tokenOf (← compressedUint)

def serializedString : Reader (Option String) := do
  if ← consumeIf 0xFF then
    return none
  let length ← compressedUint
  let start ← pos
  let data ← bytes length
  match Utf8.decode data.toList with
  | .ok text => return some text
  | .error fault => malformed (.textAt start (start + length) fault)

end Reader

namespace Compressed

def twoBytes (value : Nat) : List UInt8 :=
  [(0x80 + value / 0x100).toUInt8, value.toUInt8]

def fourBytes (value : Nat) : List UInt8 :=
  [(0xC0 + value / 0x1000000).toUInt8, (value / 0x10000).toUInt8, (value / 0x100).toUInt8,
    value.toUInt8]

/-- The rotated form of a signed number from `-half` up to below `half`. -/
def rotated (half : Nat) (value : Int) : Nat :=
  if 0 ≤ value then 2 * value.toNat else 2 * (value + half).toNat + 1

def tokenTag? (table : Option Table) : Option Nat :=
  match table with
  | some .typeDef => some 0
  | some .typeRef => some 1
  | some .typeSpec => some 2
  | _ => none

end Compressed

namespace Writer

open Compressed

def compressedUint (value : Nat) : Writer Unit :=
  if value < 0x80 then byte value.toUInt8
  else if value < 0x4000 then bytes (twoBytes value)
  else if value < 0x20000000 then bytes (fourBytes value)
  else malformed (.uintRange value)

def compressedInt (value : Int) : Writer Unit :=
  if -0x40 ≤ value ∧ value < 0x40 then byte (rotated 0x40 value).toUInt8
  else if -0x2000 ≤ value ∧ value < 0x2000 then bytes (twoBytes (rotated 0x2000 value))
  else if -0x10000000 ≤ value ∧ value < 0x10000000 then bytes (fourBytes (rotated 0x10000000 value))
  else malformed (.intRange value)

def count (length : Nat) : Writer Unit :=
  if length < 0x100000000 then compressedUint length else malformed (.countRange length)

def compressedToken (t : Token) : Writer Unit :=
  match tokenTag? t.table? with
  | some tag => compressedUint (t.row * 4 + tag)
  | none => malformed (.tokenUnencodable t)

end Writer

namespace Compressed

def uint (value : Nat) : Except Error (List UInt8) := (Writer.compressedUint value).written

def int (value : Int) : Except Error (List UInt8) := (Writer.compressedInt value).written

def token (t : Token) : Except Error (List UInt8) := (Writer.compressedToken t).written

end Compressed

end CliMetadata
