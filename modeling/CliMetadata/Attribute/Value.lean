import CliMetadata.Constant

set_option autoImplicit false

namespace CliMetadata

inductive AttributeValue
  | scalar (value : Scalar)
  | text (value : Option String)
  | type (name : Option String)
  | enum (typeName : String) (value : Scalar)
  | array (elements : Option (List AttributeValue))

namespace AttributeValue

mutual

def same : AttributeValue → AttributeValue → Bool
  | .scalar a, .scalar b => a = b
  | .text a, .text b => a = b
  | .type a, .type b => a = b
  | .enum name a, .enum other b => name = other && a = b
  | .array a, .array b => sameElements a b
  | _, _ => false

def sameElements : Option (List AttributeValue) → Option (List AttributeValue) → Bool
  | none, none => true
  | some values, some others => sameAll values others
  | _, _ => false

def sameAll : List AttributeValue → List AttributeValue → Bool
  | [], [] => true
  | a :: values, b :: others => same a b && sameAll values others
  | _, _ => false

end

mutual

theorem same_iff : (a b : AttributeValue) → (same a b = true ↔ a = b)
  | .array a, b => by cases b <;> simp [same, sameElements_iff a]
  | .scalar _, b | .text _, b | .type _, b | .enum _ _, b => by cases b <;> simp [same]

theorem sameElements_iff :
    (a b : Option (List AttributeValue)) → (sameElements a b = true ↔ a = b)
  | none, b => by cases b <;> simp [sameElements]
  | some values, b => by cases b <;> simp [sameElements, sameAll_iff values]

theorem sameAll_iff : (a b : List AttributeValue) → (sameAll a b = true ↔ a = b)
  | [], b => by cases b <;> simp [sameAll]
  | a :: values, b => by cases b <;> simp [sameAll, same_iff a, sameAll_iff values]

end

instance : DecidableEq AttributeValue := fun a b => decidable_of_iff _ (same_iff a b)

end AttributeValue

inductive NamedArgumentKind
  | field | property
  deriving DecidableEq, Repr

namespace NamedArgumentKind

def name : NamedArgumentKind → String
  | .field => "Field"
  | .property => "Property"

end NamedArgumentKind

structure NamedArgument where
  kind : NamedArgumentKind
  name : String
  value : AttributeValue
  deriving DecidableEq

structure AttributeArguments where
  fixed : List AttributeValue := []
  named : List NamedArgument := []
  deriving DecidableEq

inductive ArgumentType
  | primitive (p : Primitive)
  | text
  | type
  | boxed
  | enum (typeName : String) (underlying : Primitive)
  | array (element : ArgumentType)
  deriving DecidableEq, Repr

end CliMetadata
