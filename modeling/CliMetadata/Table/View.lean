import CliMetadata.Table.Row

set_option autoImplicit false

namespace CliMetadata

structure TableView (t : Table) where
  data : ByteArray
  start : Nat
  count : Nat
  sorted : Bool
  widths : Widths

abbrev Scan := EStateM Error Nat

namespace Scan

def result {α : Type} (scan : Scan α) : Except Error α :=
  match scan.run 0 with
  | .ok value _ => .ok value
  | .error e _ => .error e

def lift {α : Type} (outcome : Except Error α) : Scan α := fun n =>
  match outcome with
  | .ok value => .ok value n
  | .error e => .error e n

end Scan

namespace TableView

variable {t : Table}

def rowBytes (view : TableView t) : Nat := view.widths.tableRowBytes t

def bytes (view : TableView t) : Nat := view.count * view.rowBytes

def make (t : Table) (data : ByteArray) (start count : Nat) (sorted : Bool) (widths : Widths) :
    Except Error (TableView t) :=
  let view : TableView t := { data, start, count, sorted, widths }
  if start + view.bytes ≤ data.size then .ok view
  else .error (.malformed (.tableExtent t count view.rowBytes))

def decode (view : TableView t) (rid : Nat) : Except Error (Row t) :=
  let offset := (rid - 1) * view.rowBytes
  (Row.readAt view.widths view.data rid (view.start + offset)).map fun (row, _) =>
    { row with offset }

def get (view : TableView t) (rid : Nat) : Scan (Row t) := do
  if rid = 0 ∨ view.count < rid then
    throw (.malformed (.rowRange rid t view.count))
  modify (· + 1)
  Scan.lift (view.decode rid)

def get? (view : TableView t) (rid : Nat) : Except Error (Row t) := (view.get rid).result

def outcomesFrom (view : TableView t) : (count rid : Nat) → Scan (List (Except Error (Row t)))
  | 0, _ => return []
  | count + 1, rid => do
    let outcome ← (Except.ok <$> view.get rid) |> tryCatch <| fun e => pure (.error e)
    return outcome :: (← outcomesFrom view count (rid + 1))

def outcomes (view : TableView t) : Scan (List (Except Error (Row t))) :=
  view.outcomesFrom view.count 1

def rows (view : TableView t) : Except Error (List (Row t)) :=
  (List.range view.count).mapM fun i => view.get? (i + 1)

def canBisect (view : TableView t) : Bool := view.sorted && t.keyIsFirst

def sortKey? (t : Table) (key : Token) : Option Nat :=
  match t.keyKind? with
  | some (.index table) => if key.tableNumber = table.number then some key.row else none
  | some (.coded kind) =>
    key.table?.bind fun table => (CodedIndex.encode kind table key.row).toOption
  | _ => none

/-- The number of the first row in `[low, high)` whose sort key is not below the target, if the
rows are in order; rows without a sort key count as not below it. -/
def lowerBound (view : TableView t) (target low high : Nat) : Scan Nat :=
  if _h : low < high then do
    let mid := low + (high - low) / 2
    let row ← view.get mid
    match row.key?.bind (sortKey? t) with
    | some key =>
      if key < target then lowerBound view target (mid + 1) high
      else lowerBound view target low mid
    | none => lowerBound view target low mid
  else
    return low
termination_by high - low

def runFrom (view : TableView t) (key : Token) : (count rid : Nat) → Scan (List (Row t))
  | 0, _ => return []
  | count + 1, rid => do
    let row ← view.get rid
    if row.key? = some key then
      return row :: (← runFrom view key count (rid + 1))
    else
      return []

def allFrom (view : TableView t) (key : Token) : (count rid : Nat) → Scan (List (Row t))
  | 0, _ => return []
  | count + 1, rid => do
    let row ← view.get rid
    let rest ← allFrom view key count (rid + 1)
    return if row.key? = some key then row :: rest else rest

def firstFrom (view : TableView t) (key : Token) : (count rid : Nat) → Scan (Option (Row t))
  | 0, _ => return none
  | count + 1, rid => do
    let row ← view.get rid
    if row.key? = some key then
      return some row
    else
      firstFrom view key count (rid + 1)

def findAny (view : TableView t) (key : Token) : Scan (Option (Row t)) := do
  if view.canBisect then
    match sortKey? t key with
    | none => return none
    | some target =>
      let first ← view.lowerBound target 1 (view.count + 1)
      if first ≤ view.count then
        let row ← view.get first
        return if row.key? = some key then some row else none
      else
        return none
  else
    view.firstFrom key view.count 1

def findAll (view : TableView t) (key : Token) : Scan (List (Row t)) := do
  if view.canBisect then
    match sortKey? t key with
    | none => return []
    | some target =>
      let first ← view.lowerBound target 1 (view.count + 1)
      view.runFrom key (view.count + 1 - first) first
  else
    view.allFrom key view.count 1

end TableView

end CliMetadata
