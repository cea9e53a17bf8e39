import CliMetadata.Bytes.Compressed
import CliMetadata.Signature.Basic

/-!
Reading signatures. Each reader takes the reader of the types one level further in; `type` ties the
knot, and refuses types that lie deeper than the levels it is given.
-/

set_option autoImplicit false

namespace CliMetadata.SignatureReader

open Reader

def times {α : Type} (reader : Reader α) : Nat → Reader (List α)
  | 0 => return []
  | n + 1 => do
    let value ← reader
    return value :: (← times reader n)

def count (what : Counted) : Reader Nat := do
  let n ← compressedUint
  let rest ← remaining
  if rest < n then
    malformed (.countExceeds what n rest)
  return n

def modifier : Reader CustomModifier := do
  let b ← byte
  let type ← compressedToken
  return ⟨b == Element.requiredModifier, type⟩

def modifiersUpTo : (limit : Nat) → Reader (List CustomModifier)
  | 0 => return []
  | limit + 1 => do
    if (← next?).any Element.isModifier then
      let first ← modifier
      return first :: (← modifiersUpTo limit)
    else
      return []

def modifiers : Reader (List CustomModifier) := do
  modifiersUpTo (← remaining)

def modified (inner : Reader TypeSignature) : Reader (List CustomModifier × TypeSignature) := do
  let modifiers ← modifiers
  return (modifiers, ← inner)

def dimensions : List Nat → List Int → List ArrayDimension
  | [], [] => []
  | size :: sizes, [] => ⟨some size, none⟩ :: dimensions sizes []
  | [], low :: lows => ⟨none, some low⟩ :: dimensions [] lows
  | size :: sizes, low :: lows => ⟨some size, some low⟩ :: dimensions sizes lows

def array (inner : Reader TypeSignature) : Reader TypeSignature := do
  let base ← inner
  let rank ← compressedUint
  if rank = 0 then
    malformed .arrayRank
  let sizeCount ← count .arraySize
  if rank < sizeCount then
    malformed (.arraySizes rank sizeCount)
  let sizes ← times compressedUint sizeCount
  let lowCount ← count .arrayLowerBound
  if rank < lowCount then
    malformed (.arrayLowerBounds rank lowCount)
  let lows ← times compressedInt lowCount
  return .array base rank (dimensions sizes lows)

def instantiation (inner : Reader TypeSignature) : Reader TypeSignature := do
  let next ← peek
  if next ≠ Element.classType ∧ next ≠ Element.valueType then
    malformed (.instantiationBase next)
  let base ← inner
  let n ← count .instantiationArgument
  if n = 0 then
    malformed .instantiationEmpty
  return .instantiation base (← times inner n)

def param (inner : Reader TypeSignature) : Reader ParamSignature := do
  let modifiers ← modifiers
  let byReference ← consumeIf Element.byReference
  return { modifiers, byReference, type := ← inner }

def params (inner : Reader TypeSignature) (varargs : Bool) :
    (n : Nat) → (fixed extra : List ParamSignature) →
    Reader (List ParamSignature × List ParamSignature)
  | 0, fixed, extra => return (fixed, extra)
  | n + 1, fixed, extra => do
    if ← consumeIf Element.sentinel then
      if !varargs || !extra.isEmpty then
        malformed .sentinel
      let next ← param inner
      params inner varargs n fixed (extra ++ [next])
    else
      let next ← param inner
      if extra.isEmpty then params inner varargs n (fixed ++ [next]) extra
      else params inner varargs n fixed (extra ++ [next])

def method (inner : Reader TypeSignature) : Reader MethodSignature := do
  let header ← byte
  let convention := header &&& Header.conventionMask
  if Header.varargs < convention then
    malformed (.callingConvention header)
  let genericParams ← if header &&& Header.generic ≠ 0 then compressedUint else pure 0
  let n ← count .parameter
  let returns ← param inner
  let (fixed, extra) ← params inner (convention == Header.varargs) n [] []
  return {
    hasThis := header &&& Header.hasThis != 0
    explicitThis := header &&& Header.explicitThis != 0
    convention, genericParams, returns, params := fixed, extra }

/-- The type that the byte just read starts, given the reader of the types inside it. A modifier
goes back in front of the type. -/
def startedBy (inner : Reader TypeSignature) (b : UInt8) : Reader TypeSignature :=
  match Primitive.ofByte? b with
  | some p => return .primitive p
  | none =>
    if b = Element.pointer then do
      let (modifiers, base) ← modified inner
      return .pointer modifiers base
    else if b = Element.byReference then
      return .byReference (← inner)
    else if b = Element.valueType then
      return .valueType (← compressedToken)
    else if b = Element.classType then
      return .classType (← compressedToken)
    else if b = Element.typeVariable then
      return .typeVariable (← compressedUint)
    else if b = Element.methodVariable then
      return .methodVariable (← compressedUint)
    else if b = Element.array then
      array inner
    else if b = Element.instantiation then
      instantiation inner
    else if b = Element.functionPointer then
      return .functionPointer (← method inner)
    else if b = Element.vector then do
      let (modifiers, base) ← modified inner
      return .vector modifiers base
    else if Element.isModifier b then do
      seek ((← pos) - 1)
      let (modifiers, base) ← modified inner
      return .modified modifiers base
    else do
      malformed (.elementType b ((← pos) - 1))

def body (inner : Reader TypeSignature) : Reader TypeSignature := do
  startedBy inner (← byte)

def maxDepth : Nat := 50

def type : (levels : Nat) → Reader TypeSignature
  | 0 => throw (.recursionLimit maxDepth)
  | levels + 1 => body (type levels)

def field (levels : Nat) : Reader FieldSignature := do
  let header ← byte
  if header ≠ Header.field then
    malformed (.fieldStart header)
  let (modifiers, type) ← modified (type levels)
  return { modifiers, type }

def property (levels : Nat) : Reader PropertySignature := do
  let header ← byte
  if header &&& ~~~Header.hasThis ≠ Header.property then
    malformed (.propertyStart header)
  let n ← count .propertyParameter
  let (modifiers, base) ← modified (type levels)
  let params ← times (param (type levels)) n
  return { hasThis := header &&& Header.hasThis != 0, modifiers, type := base, params }

def methodSpec (levels : Nat) : Reader MethodSpecSignature := do
  let header ← byte
  if header ≠ Header.instantiation then
    malformed (.methodSpecStart header)
  let n ← count .methodSpecArgument
  return { args := ← times (type levels) n }

def methodDef (levels : Nat) : Reader MethodSignature := method (type levels)

def finish : Reader Unit := do
  if ← hasMore then
    malformed (.signatureTrailing (← remaining) (← pos))

def levels : Nat := maxDepth - 1

def whole {α : Type} (reader : Nat → Reader α) (blob : ByteArray) : Except Error α :=
  (do
    let value ← reader levels
    finish
    return value : Reader α).runOn blob

end CliMetadata.SignatureReader

namespace CliMetadata

def readType (blob : ByteArray) : Except Error TypeSignature :=
  SignatureReader.whole SignatureReader.type blob

def readField (blob : ByteArray) : Except Error FieldSignature :=
  SignatureReader.whole SignatureReader.field blob

def readMethodDef (blob : ByteArray) : Except Error MethodSignature :=
  SignatureReader.whole SignatureReader.methodDef blob

def readProperty (blob : ByteArray) : Except Error PropertySignature :=
  SignatureReader.whole SignatureReader.property blob

def readTypeSpec (blob : ByteArray) : Except Error TypeSignature :=
  SignatureReader.whole SignatureReader.type blob

def readMethodSpec (blob : ByteArray) : Except Error MethodSpecSignature :=
  SignatureReader.whole SignatureReader.methodSpec blob

/-- A reader of several signatures in one blob. A type that lies too deep leaves its level counted,
so that the signatures behind it have one level less. -/
structure SignatureCursor where
  cursor : Cursor
  overruns : Nat := 0

namespace SignatureCursor

def read {α : Type} (c : SignatureCursor) (reader : Nat → Reader α) :
    Except Error α × SignatureCursor :=
  match reader (SignatureReader.levels - c.overruns) c.cursor with
  | .ok value cursor => (.ok value, { c with cursor })
  | .error (.recursionLimit n) cursor =>
    (.error (.recursionLimit n), { cursor, overruns := c.overruns + 1 })
  | .error e cursor => (.error e, { c with cursor })

end SignatureCursor

end CliMetadata
