import CliMetadata.Assembly
import CliMetadata.Binding.Kind

set_option autoImplicit false

namespace CliMetadata

structure TypeId where
  assembly : AssemblyId
  rid : Nat
  deriving DecidableEq, Repr, Hashable

structure MethodId where
  type : TypeId
  position : Nat
  deriving DecidableEq, Repr, Hashable

structure FieldId where
  type : TypeId
  position : Nat
  deriving DecidableEq, Repr, Hashable

structure PropertyId where
  type : TypeId
  position : Nat
  deriving DecidableEq, Repr, Hashable

structure EventId where
  type : TypeId
  position : Nat
  deriving DecidableEq, Repr, Hashable

inductive GenericOwner
  | type (id : TypeId)
  | method (id : MethodId)
  deriving DecidableEq, Repr, Hashable

structure GenericParamId where
  owner : GenericOwner
  position : Nat
  deriving DecidableEq, Repr, Hashable

def GenericOwner.assembly : GenericOwner → AssemblyId
  | .type id => id.assembly
  | .method id => id.type.assembly

end CliMetadata
