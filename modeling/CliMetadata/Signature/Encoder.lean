import CliMetadata.Bytes.Compressed
import CliMetadata.Signature.Basic

set_option autoImplicit false

namespace CliMetadata

open Writer

def CustomModifier.write (m : CustomModifier) : Writer Unit := do
  byte m.element
  compressedToken m.type

def writeModifiers : List CustomModifier → Writer Unit := each CustomModifier.write

def sizesOf : List ArrayDimension → List Nat
  | ⟨some size, _⟩ :: rest => size :: sizesOf rest
  | _ => []

def lowerBoundsOf : List ArrayDimension → List Int
  | ⟨_, some low⟩ :: rest => low :: lowerBoundsOf rest
  | _ => []

def writeShape (rank : Nat) (dimensions : List ArrayDimension) : Writer Unit := do
  compressedUint rank
  let sizes := sizesOf dimensions
  count sizes.length
  each compressedUint sizes
  let lows := lowerBoundsOf dimensions
  count lows.length
  each compressedInt lows

def MethodSignature.header (m : MethodSignature) : UInt8 :=
  (m.convention &&& Header.conventionMask) |||
    (if m.hasThis then Header.hasThis else 0) |||
    (if m.explicitThis then Header.explicitThis else 0) |||
    (if m.isGeneric then Header.generic else 0)

def writeGenerics (genericParams : Nat) : Writer Unit :=
  if 0 < genericParams then compressedUint genericParams else return

def writeMarker (marked : Bool) (marker : UInt8) : Writer Unit :=
  if marked then byte marker else return

mutual

def TypeSignature.write : TypeSignature → Writer Unit
  | .primitive p => byte p.byte
  | .pointer modifiers base => do
    byte Element.pointer
    writeModifiers modifiers
    base.write
  | .byReference base => do
    byte Element.byReference
    base.write
  | .valueType token => do
    byte Element.valueType
    compressedToken token
  | .classType token => do
    byte Element.classType
    compressedToken token
  | .typeVariable number => do
    byte Element.typeVariable
    compressedUint number
  | .methodVariable number => do
    byte Element.methodVariable
    compressedUint number
  | .array base rank dimensions => do
    byte Element.array
    base.write
    writeShape rank dimensions
  | .vector modifiers base => do
    byte Element.vector
    writeModifiers modifiers
    base.write
  | .instantiation base args => do
    byte Element.instantiation
    base.write
    count args.length
    TypeSignature.writeList args
  | .functionPointer method => do
    byte Element.functionPointer
    method.write
  | .modified modifiers base => do
    writeModifiers modifiers
    base.write

def TypeSignature.writeList : List TypeSignature → Writer Unit
  | [] => return
  | type :: rest => do
    type.write
    TypeSignature.writeList rest

def ParamSignature.write : ParamSignature → Writer Unit
  | ⟨modifiers, byReference, type⟩ => do
    writeModifiers modifiers
    writeMarker byReference Element.byReference
    type.write

def ParamSignature.writeList : List ParamSignature → Writer Unit
  | [] => return
  | param :: rest => do
    param.write
    ParamSignature.writeList rest

def MethodSignature.write : MethodSignature → Writer Unit
  | ⟨hasThis, explicitThis, convention, genericParams, returns, params, extra⟩ => do
    byte <| MethodSignature.header
      ⟨hasThis, explicitThis, convention, genericParams, returns, params, extra⟩
    writeGenerics genericParams
    count (params.length + extra.length)
    returns.write
    ParamSignature.writeList params
    writeMarker (!extra.isEmpty) Element.sentinel
    ParamSignature.writeList extra

end

def TypeSignature.append (type : TypeSignature) : Writer Unit := restoring type.write

def FieldSignature.write (f : FieldSignature) : Writer Unit := do
  byte Header.field
  writeModifiers f.modifiers
  f.type.write

def PropertySignature.write (p : PropertySignature) : Writer Unit := do
  byte (Header.property ||| (if p.hasThis then Header.hasThis else 0))
  count p.params.length
  writeModifiers p.modifiers
  p.type.write
  ParamSignature.writeList p.params

def MethodSpecSignature.write (m : MethodSpecSignature) : Writer Unit := do
  byte Header.instantiation
  count m.args.length
  each TypeSignature.append m.args

def TypeSignature.encode (type : TypeSignature) : Except Error (List UInt8) := type.write.written

def FieldSignature.encode (f : FieldSignature) : Except Error (List UInt8) := f.write.written

def MethodSignature.encode (m : MethodSignature) : Except Error (List UInt8) := m.write.written

def PropertySignature.encode (p : PropertySignature) : Except Error (List UInt8) := p.write.written

def MethodSpecSignature.encode (m : MethodSpecSignature) : Except Error (List UInt8) :=
  m.write.written

end CliMetadata
