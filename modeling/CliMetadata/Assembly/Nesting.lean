import CliMetadata.Module

set_option autoImplicit false

namespace CliMetadata

structure Nesting where
  outer : List (Nat × Nat) := []
  -- From the row number of a type to those of the types inside it. The first entry for a type
  -- counts.
  inner : List (Nat × List Nat) := []

namespace Nesting

def enclosing? (n : Nesting) (rid : Nat) : Option Nat := n.outer.lookup rid

def nested (n : Nesting) (rid : Nat) : List Nat := (n.inner.lookup rid).getD []

def insert (n : Nesting) (row : NestedClassRow) : Nesting where
  outer := (row.nested, row.enclosing) :: n.outer
  inner := (row.enclosing, n.nested row.enclosing ++ [row.nested]) :: n.inner

def add (n : Nesting) (row : NestedClassRow) : Except Error Nesting :=
  if (n.enclosing? row.nested).isSome then .error (.malformed (.nestedTwice row.nested))
  else .ok (n.insert row)

def sorted (n : Nesting) : Nesting :=
  { n with inner := n.inner.map fun (rid, inside) => (rid, inside.mergeSort) }

end Nesting

namespace Module

def nesting (m : Module) : Except Error Nesting :=
  match m.tables.view? .nestedClass with
  | none => .ok {}
  | some view => do
    let nesting : Nesting ← (List.range view.count).foldlM
      (fun n i => do n.add (NestedClassRow.ofRow (← view.get? (i + 1)))) {}
    return nesting.sorted

end Module

end CliMetadata
