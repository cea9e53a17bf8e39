import CliMetadata.Bytes.Cursor
import CliMetadata.Number.Shortest
import CliMetadata.Signature.Element
import CliMetadata.Text.Quoted
import CliMetadata.Text.Unicode

set_option autoImplicit false

namespace CliMetadata

inductive Scalar
  | boolean (value : Bool)
  | char (unit : UInt16)
  | i1 (value : Int8)
  | u1 (value : UInt8)
  | i2 (value : Int16)
  | u2 (value : UInt16)
  | i4 (value : Int32)
  | u4 (value : UInt32)
  | i8 (value : Int64)
  | u8 (value : UInt64)
  | r4 (bits : UInt32)
  | r8 (bits : UInt64)
  deriving DecidableEq, Repr

namespace Scalar

def reader? : Primitive → Option (Reader Scalar)
  | .boolean => some do return .boolean ((← Reader.byte) != 0)
  | .char => some do return .char (← Reader.number 2).toUInt16
  | .i1 => some do return .i1 (← Reader.number 1).toUInt8.toInt8
  | .u1 => some do return .u1 (← Reader.number 1).toUInt8
  | .i2 => some do return .i2 (← Reader.number 2).toUInt16.toInt16
  | .u2 => some do return .u2 (← Reader.number 2).toUInt16
  | .i4 => some do return .i4 (← Reader.number 4).toUInt32.toInt32
  | .u4 => some do return .u4 (← Reader.number 4).toUInt32
  | .i8 => some do return .i8 (← Reader.number 8).toUInt64.toInt64
  | .u8 => some do return .u8 (← Reader.number 8).toUInt64
  | .r4 => some do return .r4 (← Reader.number 4).toUInt32
  | .r8 => some do return .r8 (← Reader.number 8).toUInt64
  | _ => none

def display : Scalar → String
  | .boolean value => if value then "true" else "false"
  | .char unit =>
    if Utf16.isHigh unit || Utf16.isLow unit then "'\\u" ++ Hex.lower 4 unit.toNat ++ "'"
    else "'" ++ (Char.ofNat unit.toNat).toString ++ "'"
  | .i1 value => toString value.toInt
  | .u1 value => toString value.toNat
  | .i2 value => toString value.toInt
  | .u2 value => toString value.toNat
  | .i4 value => toString value.toInt
  | .u4 value => toString value.toNat
  | .i8 value => toString value.toInt
  | .u8 value => toString value.toNat
  | .r4 bits => Shortest.single.text bits.toNat
  | .r8 bits => Shortest.double.text bits.toNat

end Scalar

inductive Constant
  | scalar (value : Scalar)
  | text (value : String)
  | null
  deriving DecidableEq, Repr

namespace Constant

def reader (type : UInt8) : Reader Constant :=
  if type = Element.classType then do
    if (← Reader.number 4) ≠ 0 then
      Reader.malformed .constantClass
    return .null
  else
    match (Primitive.ofByte? type).bind Scalar.reader? with
    | some read => return .scalar (← read)
    | none => Reader.malformed (.constantType type)

def decode (type : UInt8) (blob : ByteArray) : Except Error Constant :=
  if type = Primitive.string.byte then
    if blob.size % 2 = 0 then .ok (.text (Utf16.decodeLossy (Utf16.units blob.toList)))
    else .error (.malformed (.constantOdd blob.size))
  else
    (do
      let value ← reader type
      if ← Reader.hasMore then
        Reader.malformed (.constantTrailing type (← Reader.remaining))
      return value : Reader Constant).runOn blob

def display : Constant → String
  | .scalar value => value.display
  | .text value => Text.quoted value
  | .null => "null"

end Constant

end CliMetadata
