import CliMetadata.Assembly.Names

set_option autoImplicit false

namespace CliMetadata

structure MethodOwners where
  -- The row numbers of a method and of its type, from the last type to the first.
  pairs : List (Nat × Nat) := []
  count : Nat := 0

namespace MethodOwners

def owner? (o : MethodOwners) (rid : Nat) : Option Nat :=
  if 1 ≤ rid ∧ rid ≤ o.count then (o.pairs.find? (·.1 == rid)).map (·.2) else none

end MethodOwners

namespace Module

def methodsOf (m : Module) (rid : Nat) : Except Error (List Nat) :=
  (m.tables.children .methods rid).result

def methodOwners (m : Module) : Except Error MethodOwners := do
  let runs ← (List.range m.typeCount).mapM fun i => do
    return (← m.methodsOf (i + 1)).map (·, i + 1)
  return { pairs := runs.flatten.reverse, count := m.tables.rows .methodDef }

end Module

end CliMetadata
