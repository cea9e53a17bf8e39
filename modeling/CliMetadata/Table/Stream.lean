import CliMetadata.Table.View

set_option autoImplicit false

namespace CliMetadata

structure TableStream where
  data : ByteArray
  majorVersion : Nat
  minorVersion : Nat
  heapSizes : Nat
  valid : UInt64
  sortedMask : UInt64
  widths : Widths
  starts : Array Nat

namespace TableStream

def headerBytes : Nat := 24

def named (mask : UInt64) (t : Table) : Bool := mask &&& t.mask != 0

def tablesOf (mask : UInt64) : List Table := Table.all.filter (named mask)

def readCounts (data : ByteArray) :
    List Table → (offset : Nat) → Except Error (List (Table × Nat))
  | [], _ => .ok []
  | t :: rest, offset => do
    let (count, next) ← Bytes.readAt data offset 4
    return (t, count) :: (← readCounts data rest next)

def flag (heapSizes bit : Nat) : Bool := heapSizes.testBit bit

/-- Checks that tables without gaps from an offset on lie within the data, and gives their starts.
Tables without rows take no place and are not checked. -/
def place (data : ByteArray) (widths : Widths) :
    List Table → (offset : Nat) → Except Error (List Nat)
  | [], _ => .ok []
  | t :: rest, offset => do
    let rows := widths.rows t
    if rows = 0 then
      return offset :: (← place data widths rest offset)
    if data.size < offset then
      throw (.malformed (.tableStart t offset))
    let extent := rows * widths.tableRowBytes t
    if data.size < offset + extent then
      throw (.malformed (.tableExtent t rows (widths.tableRowBytes t)))
    return offset :: (← place data widths rest (offset + extent))

def read (data : ByteArray) : Except Error TableStream := do
  if data.size < headerBytes then
    throw .outOfBounds
  let valid := (Bytes.number data 8 8).toUInt64
  if valid >>> Table.count.toUInt64 != 0 then
    throw (.malformed (.validMask valid))
  let named := tablesOf valid
  let counts ← readCounts data named headerBytes
  let heapSizes := Bytes.number data 6 1
  let widths := Widths.ofRows counts (flag heapSizes 0) (flag heapSizes 1) (flag heapSizes 2)
  let starts ← place data widths Table.all (headerBytes + 4 * named.length)
  return {
    data, heapSizes, valid, widths
    majorVersion := Bytes.number data 4 1
    minorVersion := Bytes.number data 5 1
    sortedMask := (Bytes.number data 16 8).toUInt64
    starts := starts.toArray }

def tableCount (s : TableStream) : Nat := (tablesOf s.valid).length

def rows (s : TableStream) (t : Table) : Nat := s.widths.rows t

def has (s : TableStream) (t : Table) : Bool := s.rows t != 0

def present (s : TableStream) : List Table := Table.all.filter s.has

def view? (s : TableStream) (t : Table) : Option (TableView t) :=
  if s.has t then
    some {
      data := s.data
      start := s.starts.getD t.number 0
      count := s.rows t
      sorted := named s.sortedMask t
      widths := s.widths }
  else none

end TableStream

end CliMetadata
