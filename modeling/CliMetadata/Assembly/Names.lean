import CliMetadata.Assembly.Nesting

set_option autoImplicit false

namespace CliMetadata

def qualify (nameSpace name : String) : String :=
  if nameSpace.isEmpty then name else nameSpace ++ "." ++ name

def joinNames (names : List String) : String := "/".intercalate names

namespace Module

def typeCount (m : Module) : Nat := m.tables.rows .typeDef

/-- The names from the outermost type around `current` down to `inner`, which are the names below
`current`. No more than `left` further types may lie around it. -/
def namesAround (m : Module) (nesting : Nesting) (start : Nat) :
    (left current : Nat) → (inner : List String) → Except Error (List String)
  | left, current, inner => do
    let row := TypeDefRow.ofRow (← m.rowAt .typeDef current)
    let name ← m.string row.name
    match nesting.enclosing? current with
    | none => return qualify (← m.string row.nameSpace) name :: inner
    | some outer =>
      match left with
      | 0 => throw (.malformed (.nestingCycle start))
      | left + 1 => namesAround m nesting start left outer (name :: inner)

def fullName (m : Module) (nesting : Nesting) (rid : Nat) : Except Error String := do
  return joinNames (← m.namesAround nesting rid m.typeCount rid [])

def typeNames (m : Module) (nesting : Nesting) : Except Error (List (String × Nat)) :=
  (List.range m.typeCount).mapM fun i => return (← m.fullName nesting (i + 1), i + 1)

def exportedCount (m : Module) : Nat := m.tables.rows .exportedType

def exportedAround (m : Module) (start : Nat) :
    (left : Nat) → (current : ExportedTypeRow) → (inner : List String) →
      Except Error (List String × CodedIndex)
  | left, current, inner => do
    let name ← m.string current.name
    if current.implementation.table ≠ .exportedType then
      return (qualify (← m.string current.nameSpace) name :: inner, current.implementation)
    match left with
    | 0 => throw (.malformed (.exportedNesting start))
    | left + 1 =>
      let outer := ExportedTypeRow.ofRow (← m.rowAt .exportedType current.implementation.row)
      exportedAround m start left outer (name :: inner)

def exportedName (m : Module) (row : ExportedTypeRow) : Except Error (String × CodedIndex) := do
  let (names, implementation) ← m.exportedAround row.rid m.exportedCount row []
  return (joinNames names, implementation)

def exportedFrom (m : Module) (view : TableView .exportedType) (name : String) :
    (count rid : Nat) → Except Error (Option CodedIndex)
  | 0, _ => return none
  | count + 1, rid => do
    let row := ExportedTypeRow.ofRow (← view.get? rid)
    let (found, implementation) ← m.exportedName row
    if found = name then return some implementation
    else exportedFrom m view name count (rid + 1)

def exported? (m : Module) (name : String) : Except Error (Option CodedIndex) :=
  match m.tables.view? .exportedType with
  | none => .ok none
  | some view => m.exportedFrom view name view.count 1

end Module

end CliMetadata
