import CliMetadata.Proofs.Bytes.Codec
import CliMetadata.Signature.Encoder

set_option autoImplicit false

namespace CliMetadata

open Writer

theorem steady_byte (b : UInt8) : (byte b).Steady := (puts_byte b).appends.steady

theorem steady_compressedUint (n : Nat) : (compressedUint n).Steady :=
  (appends_compressedUint n).steady

theorem steady_count (length : Nat) : (count length).Steady := (appends_count length).steady

theorem steady_compressedToken (t : Token) : (compressedToken t).Steady :=
  (appends_compressedToken t).steady

theorem steady_marker (marked : Bool) (marker : UInt8) : (writeMarker marked marker).Steady :=
  ((puts_byte marker).appends.ite puts_nothing.appends).steady

theorem steady_modifier (m : CustomModifier) : m.write.Steady :=
  (steady_byte m.element).andThen (steady_compressedToken m.type)

theorem steady_modifiers (modifiers : List CustomModifier) : (writeModifiers modifiers).Steady :=
  steady_each steady_modifier modifiers

theorem steady_shape (rank : Nat) (dimensions : List ArrayDimension) :
    (writeShape rank dimensions).Steady :=
  (steady_compressedUint rank).andThen <| (steady_count _).andThen <|
    (steady_each steady_compressedUint _).andThen <| (steady_count _).andThen <|
    steady_each (fun low => (appends_compressedInt low).steady) _

theorem steady_generics (genericParams : Nat) : (writeGenerics genericParams).Steady :=
  ((appends_compressedUint _).ite puts_nothing.appends).steady

mutual

theorem TypeSignature.steady : (type : TypeSignature) → type.write.Steady
  | .primitive p => by
    rw [TypeSignature.write]
    exact steady_byte _
  | .pointer modifiers base | .vector modifiers base => by
    rw [TypeSignature.write]
    exact (steady_byte _).andThen ((steady_modifiers modifiers).andThen base.steady)
  | .byReference base => by
    rw [TypeSignature.write]
    exact (steady_byte _).andThen base.steady
  | .valueType token | .classType token => by
    rw [TypeSignature.write]
    exact (steady_byte _).andThen (steady_compressedToken token)
  | .typeVariable number | .methodVariable number => by
    rw [TypeSignature.write]
    exact (steady_byte _).andThen (steady_compressedUint number)
  | .array base rank dimensions => by
    rw [TypeSignature.write]
    exact (steady_byte _).andThen (base.steady.andThen (steady_shape rank dimensions))
  | .instantiation base args => by
    rw [TypeSignature.write]
    exact (steady_byte _).andThen <| base.steady.andThen <| (steady_count _).andThen <|
      TypeSignature.steadyList args
  | .functionPointer method => by
    rw [TypeSignature.write]
    exact (steady_byte _).andThen method.steady
  | .modified modifiers base => by
    rw [TypeSignature.write]
    exact (steady_modifiers modifiers).andThen base.steady

theorem TypeSignature.steadyList :
    (types : List TypeSignature) → (TypeSignature.writeList types).Steady
  | [] => by
    rw [TypeSignature.writeList]
    exact puts_nothing.appends.steady
  | type :: rest => by
    rw [TypeSignature.writeList]
    exact type.steady.andThen (TypeSignature.steadyList rest)

theorem ParamSignature.steady : (param : ParamSignature) → param.write.Steady
  | ⟨modifiers, byReference, type⟩ => by
    rw [ParamSignature.write]
    exact (steady_modifiers modifiers).andThen ((steady_marker byReference _).andThen type.steady)

theorem ParamSignature.steadyList :
    (params : List ParamSignature) → (ParamSignature.writeList params).Steady
  | [] => by
    rw [ParamSignature.writeList]
    exact puts_nothing.appends.steady
  | param :: rest => by
    rw [ParamSignature.writeList]
    exact param.steady.andThen (ParamSignature.steadyList rest)

theorem MethodSignature.steady : (method : MethodSignature) → method.write.Steady
  | ⟨hasThis, explicitThis, convention, genericParams, returns, params, extra⟩ => by
    rw [MethodSignature.write]
    exact (steady_byte _).andThen <| (steady_generics genericParams).andThen <|
      (steady_count _).andThen <| returns.steady.andThen <|
      (ParamSignature.steadyList params).andThen <| (steady_marker _ _).andThen <|
      ParamSignature.steadyList extra

end

/-- Nothing that stands in the buffer is read or moved, and nothing of a failed type stays behind
it. -/
theorem TypeSignature.append_or_restore (type : TypeSignature) (buffer : List UInt8) :
    (type.append buffer =
      match type.append [] with
      | .ok _ bytes => .ok () (buffer ++ bytes)
      | .error e _ => .error e buffer) ∧
    type.append [] =
      match type.encode with
      | .ok bytes => .ok () bytes
      | .error e => .error e [] := by
  have appends : type.append.Appends := type.steady.appends_restoring
  have alone : type.append.written = type.encode := written_restoring type.write
  rw [appends buffer, appends [], alone]
  cases type.encode with
  | ok bytes => exact ⟨rfl, rfl⟩
  | error e => exact ⟨rfl, rfl⟩

example :
    TypeSignature.append
        (.instantiation (.classType ⟨0x02000001⟩) [.primitive .i4, .valueType ⟨0x04000002⟩])
        [0x08] =
      .error (.malformed (.tokenUnencodable ⟨0x04000002⟩)) [0x08] := rfl

end CliMetadata
