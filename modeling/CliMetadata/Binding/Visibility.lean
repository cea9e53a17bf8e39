
set_option autoImplicit false

namespace CliMetadata

inductive Visibility
  | compilerControlled | private_ | familyAndAssembly | assembly | family | familyOrAssembly
  | public_
  deriving DecidableEq, Repr

namespace Visibility

def name : Visibility → String
  | .compilerControlled => "CompilerControlled"
  | .private_ => "Private"
  | .familyAndAssembly => "FamilyAndAssembly"
  | .assembly => "Assembly"
  | .family => "Family"
  | .familyOrAssembly => "FamilyOrAssembly"
  | .public_ => "Public"

def ofMemberFlags (flags : Nat) : Visibility :=
  match flags % 8 with
  | 1 => .private_
  | 2 => .familyAndAssembly
  | 3 => .assembly
  | 4 => .family
  | 5 => .familyOrAssembly
  | 6 => .public_
  | _ => .compilerControlled

def ofTypeFlags (flags : Nat) : Visibility :=
  match flags % 8 with
  | 1 | 2 => .public_
  | 3 => .private_
  | 4 => .family
  | 6 => .familyAndAssembly
  | 7 => .familyOrAssembly
  | _ => .assembly

def rank (v : Visibility) : Nat := v.ctorIdx

end Visibility

end CliMetadata
