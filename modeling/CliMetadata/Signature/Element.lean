
set_option autoImplicit false

namespace CliMetadata

inductive Primitive
  | void | boolean | char | i1 | u1 | i2 | u2 | i4 | u4 | i8 | u8 | r4 | r8 | i | u | string
  | object | typedReference
  deriving DecidableEq, Repr, Hashable, Inhabited

namespace Primitive

def all : List Primitive :=
  [.void, .boolean, .char, .i1, .u1, .i2, .u2, .i4, .u4, .i8, .u8, .r4, .r8, .i, .u, .string,
   .object, .typedReference]

def byte : Primitive → UInt8
  | .void => 0x01
  | .boolean => 0x02
  | .char => 0x03
  | .i1 => 0x04
  | .u1 => 0x05
  | .i2 => 0x06
  | .u2 => 0x07
  | .i4 => 0x08
  | .u4 => 0x09
  | .i8 => 0x0A
  | .u8 => 0x0B
  | .r4 => 0x0C
  | .r8 => 0x0D
  | .string => 0x0E
  | .typedReference => 0x16
  | .i => 0x18
  | .u => 0x19
  | .object => 0x1C

def ofByte? (b : UInt8) : Option Primitive := all.find? (·.byte == b)

theorem ofByte?_byte (p : Primitive) : ofByte? p.byte = some p := by
  cases p <;> decide

def kindName : Primitive → String
  | .void => "Void"
  | .boolean => "Boolean"
  | .char => "Char"
  | .i1 => "I1"
  | .u1 => "U1"
  | .i2 => "I2"
  | .u2 => "U2"
  | .i4 => "I4"
  | .u4 => "U4"
  | .i8 => "I8"
  | .u8 => "U8"
  | .r4 => "R4"
  | .r8 => "R8"
  | .i => "I"
  | .u => "U"
  | .string => "String"
  | .object => "Object"
  | .typedReference => "TypedReference"

def nameSpace : String := "System"

def typeName : Primitive → String
  | .void => "Void"
  | .boolean => "Boolean"
  | .char => "Char"
  | .i1 => "SByte"
  | .u1 => "Byte"
  | .i2 => "Int16"
  | .u2 => "UInt16"
  | .i4 => "Int32"
  | .u4 => "UInt32"
  | .i8 => "Int64"
  | .u8 => "UInt64"
  | .r4 => "Single"
  | .r8 => "Double"
  | .i => "IntPtr"
  | .u => "UIntPtr"
  | .string => "String"
  | .object => "Object"
  | .typedReference => "TypedReference"

def fullName (p : Primitive) : String := nameSpace ++ "." ++ p.typeName

def ofTypeName? (space name : String) : Option Primitive :=
  if space == nameSpace then all.find? (·.typeName == name) else none

end Primitive

namespace Element

def pointer : UInt8 := 0x0F
def byReference : UInt8 := 0x10
def valueType : UInt8 := 0x11
def classType : UInt8 := 0x12
def typeVariable : UInt8 := 0x13
def array : UInt8 := 0x14
def instantiation : UInt8 := 0x15
def functionPointer : UInt8 := 0x1B
def vector : UInt8 := 0x1D
def methodVariable : UInt8 := 0x1E
def requiredModifier : UInt8 := 0x1F
def optionalModifier : UInt8 := 0x20
def sentinel : UInt8 := 0x41

def isModifier (b : UInt8) : Bool := b == requiredModifier || b == optionalModifier

end Element

namespace Header

def varargs : UInt8 := 0x05
def field : UInt8 := 0x06
def property : UInt8 := 0x08
def instantiation : UInt8 := 0x0A
def conventionMask : UInt8 := 0x0F
def generic : UInt8 := 0x10
def hasThis : UInt8 := 0x20
def explicitThis : UInt8 := 0x40

end Header

end CliMetadata
