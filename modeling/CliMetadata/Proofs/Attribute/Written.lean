import CliMetadata.Attribute.Decoder
import CliMetadata.Proofs.Bytes.Compressed
import CliMetadata.Proofs.Bytes.Numbers

set_option autoImplicit false

namespace CliMetadata

namespace Compressed

def shortest (n : Nat) : List UInt8 :=
  if n < 0x80 then [n.toUInt8] else if n < 0x4000 then twoBytes n else fourBytes n

theorem shortest_form {n : Nat} (fits : n < 0x20000000) : UintForm (shortest n) n := by
  unfold shortest
  by_cases one : n < 0x80
  · rw [if_pos one]
    exact oneByte_form one
  by_cases two : n < 0x4000
  · rw [if_neg one, if_pos two]
    exact twoBytes_form two
  · rw [if_neg one, if_neg two]
    exact fourBytes_form fits

end Compressed

namespace Scalar

def primitive : Scalar → Primitive
  | .boolean _ => .boolean
  | .char _ => .char
  | .i1 _ => .i1
  | .u1 _ => .u1
  | .i2 _ => .i2
  | .u2 _ => .u2
  | .i4 _ => .i4
  | .u4 _ => .u4
  | .i8 _ => .i8
  | .u8 _ => .u8
  | .r4 _ => .r4
  | .r8 _ => .r8

def width : Scalar → Nat
  | .boolean _ | .i1 _ | .u1 _ => 1
  | .char _ | .i2 _ | .u2 _ => 2
  | .i4 _ | .u4 _ | .r4 _ => 4
  | .i8 _ | .u8 _ | .r8 _ => 8

/-- The number that stands for the value; a negative one stands by its two's complement. -/
def bits : Scalar → Nat
  | .boolean value => value.toNat
  | .char unit => unit.toNat
  | .i1 value => value.toUInt8.toNat
  | .u1 value => value.toNat
  | .i2 value => value.toUInt16.toNat
  | .u2 value => value.toNat
  | .i4 value => value.toUInt32.toNat
  | .u4 value => value.toNat
  | .i8 value => value.toUInt64.toNat
  | .u8 value => value.toNat
  | .r4 bits => bits.toNat
  | .r8 bits => bits.toNat

def written (value : Scalar) : List UInt8 := Bytes.written value.width value.bits

theorem bits_lt (value : Scalar) : value.bits < Bytes.span value.width := by
  cases value with
  | boolean value => cases value <;> decide
  | char unit => exact unit.toNat_lt
  | i1 value => exact value.toUInt8.toNat_lt
  | u1 value => exact value.toNat_lt
  | i2 value => exact value.toUInt16.toNat_lt
  | u2 value => exact value.toNat_lt
  | i4 value => exact value.toUInt32.toNat_lt
  | u4 value => exact value.toNat_lt
  | i8 value => exact value.toUInt64.toNat_lt
  | u8 value => exact value.toNat_lt
  | r4 bits => exact bits.toNat_lt
  | r8 bits => exact bits.toNat_lt

end Scalar

namespace AttributeBlob

def textBytes (text : String) : List UInt8 :=
  Compressed.shortest text.utf8ByteSize ++ text.toByteArray.data.toList

def writtenText : Option String → List UInt8
  | none => [0xFF]
  | some text => textBytes text

end AttributeBlob

namespace ArgumentType

open AttributeBlob

def tag : ArgumentType → List UInt8
  | .primitive p => [p.byte]
  | .text => [Primitive.string.byte]
  | .type => [typeTag]
  | .boxed => [boxedTag]
  | .enum name _ => enumTag :: textBytes name
  | .array element => Element.vector :: element.tag

def depth : ArgumentType → Nat
  | .array element => element.depth + 1
  | _ => 0

/-- A tag can say the type, where the enumerations are those that the resolver knows. -/
inductive Tagged {m : Type → Type} [Monad m] (resolve : String → m Primitive) : ArgumentType → Prop
  | primitive {p : Primitive} (scalars : (Scalar.reader? p).isSome) : Tagged resolve (.primitive p)
  | text : Tagged resolve .text
  | type : Tagged resolve .type
  | boxed : Tagged resolve .boxed
  | enum {name : String} {underlying : Primitive} (fits : name.utf8ByteSize < 0x20000000)
    (known : resolve name = pure underlying) : Tagged resolve (.enum name underlying)
  | array {element : ArgumentType} (tagged : Tagged resolve element) :
    Tagged resolve (.array element)

end ArgumentType

inductive Argument
  | scalar (value : Scalar)
  | text (value : Option String)
  | type (name : Option String)
  | enum (typeName : String) (value : Scalar)
  | boxed (t : ArgumentType) (content : Argument)
  | nullArray
  | array (elements : List Argument)

namespace Argument

open AttributeBlob

mutual

def value : Argument → AttributeValue
  | .scalar value => .scalar value
  | .text value => .text value
  | .type name => .type name
  | .enum name value => .enum name value
  | .boxed _ content => content.value
  | .nullArray => .array none
  | .array elements => .array (some (values elements))

def values : List Argument → List AttributeValue
  | [] => []
  | a :: rest => a.value :: values rest

end

mutual

def written : Argument → List UInt8
  | .scalar value => value.written
  | .text value => writtenText value
  | .type name => writtenText name
  | .enum _ value => value.written
  | .boxed t content => t.tag ++ content.written
  | .nullArray => Bytes.written 4 AttributeBlob.nullArray
  | .array elements => Bytes.written 4 elements.length ++ writtenAll elements

def writtenAll : List Argument → List UInt8
  | [] => []
  | a :: rest => a.written ++ writtenAll rest

end

mutual

/-- How many levels below the argument the deepest value or tag within it lies. -/
def depth : Argument → Nat
  | .boxed t content => max t.depth content.depth + 1
  | .array elements => depthBelow elements
  | _ => 0

def depthBelow : List Argument → Nat
  | [] => 0
  | a :: rest => max (a.depth + 1) (depthBelow rest)

end

@[simp] theorem values_eq (elements : List Argument) : values elements = elements.map value := by
  induction elements with
  | nil => rw [values, List.map_nil]
  | cons a rest ih => rw [values, ih, List.map_cons]

@[simp] theorem writtenAll_eq (elements : List Argument) :
    writtenAll elements = elements.flatMap written := by
  induction elements with
  | nil => rw [writtenAll, List.flatMap_nil]
  | cons a rest ih => rw [writtenAll, ih, List.flatMap_cons]

theorem depth_lt_below {a : Argument} {elements : List Argument} (member : a ∈ elements) :
    a.depth < depthBelow elements := by
  induction elements with
  | nil => cases member
  | cons b rest ih =>
    rw [depthBelow]
    rcases List.mem_cons.1 member with rfl | member
    · omega
    · have := ih member
      omega

def TextFits (text : Option String) : Prop := ∀ s, text = some s → s.utf8ByteSize < 0x20000000

/-- The argument can be passed for a parameter of the type. -/
inductive Serves {m : Type → Type} [Monad m] (resolve : String → m Primitive) :
    ArgumentType → Argument → Prop
  | scalar (value : Scalar) : Serves resolve (.primitive value.primitive) (.scalar value)
  | text {value : Option String} (fits : TextFits value) : Serves resolve .text (.text value)
  | type {name : Option String} (fits : TextFits name) : Serves resolve .type (.type name)
  | enum (name : String) (value : Scalar) :
    Serves resolve (.enum name value.primitive) (.enum name value)
  | boxed {t : ArgumentType} {content : Argument} (tagged : t.Tagged resolve)
    (served : Serves resolve t content) : Serves resolve .boxed (.boxed t content)
  | nullArray (element : ArgumentType) : Serves resolve (.array element) .nullArray
  | array {element : ArgumentType} {elements : List Argument}
    (few : elements.length < AttributeBlob.nullArray)
    (served : ∀ a ∈ elements, Serves resolve element a) :
    Serves resolve (.array element) (.array elements)

end Argument

structure FixedArgument where
  type : ArgumentType
  argument : Argument

structure TaggedArgument where
  kind : NamedArgumentKind
  name : String
  type : ArgumentType
  argument : Argument

structure AttributeContent where
  fixed : List FixedArgument
  named : List TaggedArgument

namespace AttributeBlob

def kindTag : NamedArgumentKind → UInt8
  | .field => fieldTag
  | .property => propertyTag

end AttributeBlob

variable {m : Type → Type} [Monad m]

structure FixedArgument.Storable (resolve : String → m Primitive) (x : FixedArgument) : Prop where
  serves : x.argument.Serves resolve x.type
  shallow : x.argument.depth ≤ AttributeBlob.maxNesting

namespace TaggedArgument

def value (x : TaggedArgument) : NamedArgument :=
  { kind := x.kind, name := x.name, value := x.argument.value }

def written (x : TaggedArgument) : List UInt8 :=
  AttributeBlob.kindTag x.kind ::
    (x.type.tag ++ (AttributeBlob.textBytes x.name ++ x.argument.written))

structure Storable (resolve : String → m Primitive) (x : TaggedArgument) : Prop where
  nameFits : x.name.utf8ByteSize < 0x20000000
  tagged : x.type.Tagged resolve
  tagShallow : x.type.depth ≤ AttributeBlob.maxNesting
  serves : x.argument.Serves resolve x.type
  shallow : x.argument.depth ≤ AttributeBlob.maxNesting

end TaggedArgument

namespace AttributeContent

def types (content : AttributeContent) : List ArgumentType := content.fixed.map (·.type)

def arguments (content : AttributeContent) : AttributeArguments :=
  { fixed := content.fixed.map (·.argument.value), named := content.named.map (·.value) }

/-- The blob: the prolog, the fixed arguments, and the named ones behind their number. -/
def written (content : AttributeContent) : List UInt8 :=
  Bytes.written 2 AttributeBlob.prolog ++
    (content.fixed.flatMap (·.argument.written) ++
      (Bytes.written 2 content.named.length ++ content.named.flatMap (·.written)))

structure Storable (resolve : String → m Primitive) (content : AttributeContent) : Prop where
  fixed : ∀ x ∈ content.fixed, x.Storable resolve
  named : ∀ x ∈ content.named, x.Storable resolve
  few : content.named.length ≤ 0xFFFF

end AttributeContent

end CliMetadata
