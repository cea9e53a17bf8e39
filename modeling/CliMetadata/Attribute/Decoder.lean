import CliMetadata.Attribute.Value
import CliMetadata.Bytes.Compressed

set_option autoImplicit false

namespace CliMetadata.AttributeBlob

def prolog : Nat := 0x0001

def typeTag : UInt8 := 0x50
def boxedTag : UInt8 := 0x51
def fieldTag : UInt8 := 0x53
def propertyTag : UInt8 := 0x54
def enumTag : UInt8 := 0x55

def maxNesting : Nat := 16

def levels : Nat := maxNesting + 1

def nullArray : Nat := 0xFFFFFFFF

variable {m : Type → Type} [Monad m] [MonadExceptOf Error m]

abbrev ArgumentReader (m : Type → Type) := StateT Cursor m

def fail {α : Type} (e : Error) : ArgumentReader m α := fun _ => throw e

def read {α : Type} (reader : Reader α) : ArgumentReader m α := fun c =>
  match reader c with
  | .ok value c => pure (value, c)
  | .error e _ => throw e

def argumentPrimitive? (tag : UInt8) : Option Primitive :=
  (Primitive.ofByte? tag).filter fun p => (Scalar.reader? p).isSome

def scalar (p : Primitive) : ArgumentReader m Scalar :=
  match Scalar.reader? p with
  | some reader => read reader
  | none => fail (.malformed (.argumentElement p.byte))

def type (resolve : String → m Primitive) : (levels : Nat) → ArgumentReader m ArgumentType
  | 0 => fail (.recursionLimit maxNesting)
  | levels + 1 => do
    let tag ← read Reader.byte
    match argumentPrimitive? tag with
    | some p => return .primitive p
    | none =>
      if tag = Primitive.string.byte then return .text
      else if tag = typeTag then return .type
      else if tag = boxedTag then return .boxed
      else if tag = Element.vector then return .array (← type resolve levels)
      else if tag = enumTag then
        match ← read Reader.serializedString with
        | none => fail (.malformed .enumArgumentUnnamed)
        | some name => return .enum name (← resolve name)
      else fail (.malformed (.argumentTag tag ((← read Reader.pos) - 1)))

def times {α : Type} (reader : ArgumentReader m α) : Nat → ArgumentReader m (List α)
  | 0 => return []
  | n + 1 => do
    let value ← reader
    return value :: (← times reader n)

def value (resolve : String → m Primitive) :
    (levels : Nat) → ArgumentType → ArgumentReader m AttributeValue
  | 0, _ => fail (.recursionLimit maxNesting)
  | _ + 1, .primitive p => return .scalar (← scalar p)
  | _ + 1, .text => return .text (← read Reader.serializedString)
  | _ + 1, .type => return .type (← read Reader.serializedString)
  | levels + 1, .boxed => do value resolve levels (← type resolve levels)
  | _ + 1, .enum name underlying => return .enum name (← scalar underlying)
  | levels + 1, .array element => do
    let count ← read (Reader.number 4)
    if count = nullArray then return .array none
    else return .array (some (← times (value resolve levels element) count))

def fixedArguments (resolve : String → m Primitive) :
    List ArgumentType → ArgumentReader m (List AttributeValue)
  | [] => return []
  | t :: rest => do
    let v ← value resolve levels t
    return v :: (← fixedArguments resolve rest)

def namedKind (tag : UInt8) : Except Error NamedArgumentKind :=
  if tag = fieldTag then .ok .field
  else if tag = propertyTag then .ok .property
  else .error (.malformed (.namedArgumentKind tag))

def namedArgument (resolve : String → m Primitive) : ArgumentReader m NamedArgument := do
  match namedKind (← read Reader.byte) with
  | .error e => fail e
  | .ok kind =>
    let t ← type resolve levels
    match ← read Reader.serializedString with
    | none => fail (.malformed .namedArgumentUnnamed)
    | some name => return { kind, name, value := ← value resolve levels t }

def namedCount : Reader Nat := do
  if ← Reader.hasMore then Reader.number 2 else return 0

def finish : Reader Unit := do
  if ← Reader.hasMore then
    Reader.malformed (.argumentTrailing (← Reader.remaining))

def expectProlog : Reader Unit := do
  let found ← Reader.number 2
  if found ≠ prolog then
    Reader.malformed (.argumentProlog found)

def arguments (resolve : String → m Primitive) (fixed : List ArgumentType) :
    ArgumentReader m AttributeArguments := do
  read expectProlog
  let fixed ← fixedArguments resolve fixed
  let named ← times (namedArgument resolve) (← read namedCount)
  read finish
  return { fixed, named }

/-- The arguments in a blob. Without parameters the blob may be empty. -/
def decode (resolve : String → m Primitive) (fixed : List ArgumentType) (blob : ByteArray) :
    m AttributeArguments := do
  if blob.size = 0 then
    if fixed.isEmpty then return {}
    else throw (.malformed (.argumentBlobEmpty fixed.length))
  else
    let (result, _) ← (arguments resolve fixed).run { data := blob }
    return result

end CliMetadata.AttributeBlob
