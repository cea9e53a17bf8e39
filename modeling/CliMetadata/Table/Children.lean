import CliMetadata.Table.Stream

set_option autoImplicit false

namespace CliMetadata.TableStream

def numberIn : (columns : List Column) → Fields columns → Nat → Nat
  | [], _, _ => 0
  | c :: _, (value, _), 0 =>
    match c.cell? value with
    | some (.number _ n) => n
    | _ => 0
  | _ :: rest, (_, values), n + 1 => numberIn rest values n

end CliMetadata.TableStream

namespace CliMetadata.ChildList

def startColumn : ChildList → Nat
  | .fields => 4
  | .methods => 5
  | .params => 5
  | .properties => 1
  | .events => 1

end CliMetadata.ChildList

namespace CliMetadata.TableStream

def runStart (s : TableStream) (list : ChildList) (parent : Nat) : Scan Nat := do
  let some view := s.view? list.parent
    | throw (.malformed (.tableMissing list.parent))
  let row ← view.get parent
  return numberIn list.parent.columns row.fields list.startColumn

def runRows (s : TableStream) (list : ChildList) : Nat :=
  if s.has list.pointer then s.rows list.pointer else s.rows list.child

def childRange (s : TableStream) (list : ChildList) (parent : Nat) : Scan (Nat × Nat) := do
  let parents := s.rows list.parent
  if parent = 0 ∨ parents < parent then
    throw (.malformed (.parentRange parent list.parent parents))
  let rows := s.runRows list
  let start ← s.runStart list parent
  let stop ← if parent < parents then s.runStart list (parent + 1) else pure (rows + 1)
  if start = 0 ∨ stop < start ∨ rows + 1 < stop then
    throw (.malformed (.childSpan list parent start stop rows))
  return (start, stop)

def pointed (s : TableStream) (list : ChildList) (position : Nat) : Scan Nat := do
  let some view := s.view? list.pointer
    | throw (.malformed (.tableMissing list.pointer))
  let row ← view.get position
  return numberIn list.pointer.columns row.fields 0

def children (s : TableStream) (list : ChildList) (parent : Nat) : Scan (List Nat) := do
  let (start, stop) ← s.childRange list parent
  let positions := List.range' start (stop - start)
  if s.has list.pointer then positions.mapM (s.pointed list) else return positions

end CliMetadata.TableStream
