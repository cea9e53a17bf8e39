import CliMetadata.Signature.Element
import CliMetadata.Token

set_option autoImplicit false

namespace CliMetadata

structure CustomModifier where
  required : Bool
  type : Token
  deriving DecidableEq, Repr

def CustomModifier.element (m : CustomModifier) : UInt8 :=
  if m.required then Element.requiredModifier else Element.optionalModifier

structure ArrayDimension where
  size : Option Nat
  lowerBound : Option Int
  deriving DecidableEq, Repr

mutual

inductive TypeSignature
  | primitive (p : Primitive)
  | pointer (modifiers : List CustomModifier) (base : TypeSignature)
  | byReference (base : TypeSignature)
  | valueType (token : Token)
  | classType (token : Token)
  | typeVariable (number : Nat)
  | methodVariable (number : Nat)
  | array (base : TypeSignature) (rank : Nat) (dimensions : List ArrayDimension)
  | vector (modifiers : List CustomModifier) (base : TypeSignature)
  | instantiation (base : TypeSignature) (args : List TypeSignature)
  | functionPointer (method : MethodSignature)
  | modified (modifiers : List CustomModifier) (base : TypeSignature)

structure ParamSignature where
  modifiers : List CustomModifier
  byReference : Bool
  type : TypeSignature

structure MethodSignature where
  hasThis : Bool
  explicitThis : Bool
  convention : UInt8
  genericParams : Nat
  returns : ParamSignature
  params : List ParamSignature
  extra : List ParamSignature

end

instance : Inhabited TypeSignature := ⟨.primitive .void⟩
instance : Inhabited ParamSignature := ⟨[], false, default⟩
instance : Inhabited MethodSignature := ⟨false, false, 0, 0, default, [], []⟩

structure FieldSignature where
  modifiers : List CustomModifier
  type : TypeSignature

structure PropertySignature where
  hasThis : Bool
  modifiers : List CustomModifier
  type : TypeSignature
  params : List ParamSignature

structure MethodSpecSignature where
  args : List TypeSignature

namespace TypeSignature

def unmodified : TypeSignature → TypeSignature
  | .modified _ base => base.unmodified
  | type => type

end TypeSignature

namespace MethodSignature

def isVarargs (m : MethodSignature) : Bool := m.convention == Header.varargs

def isGeneric (m : MethodSignature) : Bool := 0 < m.genericParams

end MethodSignature

end CliMetadata
