import CliMetadata.Bytes.Basic
import CliMetadata.Table.Schema

/-!
How wide the columns of a table stream are. Indices into a heap take four bytes where the heap is
marked as large, row numbers where they need more than sixteen bits, and coded indices where the
tag and the row numbers of the widest of their tables together do.
-/

set_option autoImplicit false

namespace CliMetadata

structure Widths where
  rowCounts : Array (Option Nat)
  largeStrings : Bool
  largeGuids : Bool
  largeBlobs : Bool
  deriving Repr, Inhabited

namespace Widths

def rows? (w : Widths) (t : Table) : Option Nat := w.rowCounts.getD t.number none

def rows (w : Widths) (t : Table) : Nat := (w.rows? t).getD 0

def bitsFor : Option Nat → Nat
  | none => 0
  | some 0 => 1
  | some rows => Nat.log2 rows + 1

def rowBits (w : Widths) (t : Table) : Nat := bitsFor (w.rows? t)

def isLarge (w : Widths) (t : Table) : Bool := 16 < w.rowBits t

def codedBits (w : Widths) (kind : CodedKind) : Nat :=
  (kind.slots.map fun
    | some t => w.rowBits t
    | none => 0).foldl max 0 + kind.tagBits

def bytesFor (large : Bool) : Nat := if large then 4 else 2

def stringBytes (w : Widths) : Nat := bytesFor w.largeStrings
def guidBytes (w : Widths) : Nat := bytesFor w.largeGuids
def blobBytes (w : Widths) : Nat := bytesFor w.largeBlobs
def indexBytes (w : Widths) (t : Table) : Nat := bytesFor (w.isLarge t)
def codedBytes (w : Widths) (kind : CodedKind) : Nat := bytesFor (16 < w.codedBits kind)

/-- The widths for given row counts; of two counts for one table the later holds. -/
def ofRows (rows : List (Table × Nat)) (largeStrings largeGuids largeBlobs : Bool) : Widths where
  rowCounts := rows.foldl (fun counts (t, n) => counts.set! t.number (some n))
    (Array.replicate Table.count none)
  largeStrings := largeStrings
  largeGuids := largeGuids
  largeBlobs := largeBlobs

def columnBytes (w : Widths) : ColumnKind → Nat
  | .fixed width => width
  | .padding width => width
  | .string => w.stringBytes
  | .guid => w.guidBytes
  | .blob => w.blobBytes
  | .index t => w.indexBytes t
  | .coded kind => w.codedBytes kind

def rowBytes (w : Widths) (columns : List Column) : Nat :=
  columns.foldr (fun c bytes => w.columnBytes c.kind + bytes) 0

/-- The size of a row, declared for each table apart from the columns by which rows are read. -/
def tableRowBytes (w : Widths) : Table → Nat
  | .module => 2 + w.stringBytes + w.guidBytes + w.guidBytes + w.guidBytes
  | .typeRef => w.codedBytes .resolutionScope + w.stringBytes + w.stringBytes
  | .typeDef =>
    4 + w.stringBytes + w.stringBytes + w.codedBytes .typeDefOrRef + w.indexBytes .field +
      w.indexBytes .methodDef
  | .fieldPtr => w.indexBytes .field
  | .field => 2 + w.stringBytes + w.blobBytes
  | .methodPtr => w.indexBytes .methodDef
  | .methodDef => 4 + 2 + 2 + w.stringBytes + w.blobBytes + w.indexBytes .param
  | .paramPtr => w.indexBytes .param
  | .param => 2 + 2 + w.stringBytes
  | .interfaceImpl => w.indexBytes .typeDef + w.codedBytes .typeDefOrRef
  | .memberRef => w.codedBytes .memberRefParent + w.stringBytes + w.blobBytes
  | .constant => 1 + 1 + w.codedBytes .hasConstant + w.blobBytes
  | .customAttribute =>
    w.codedBytes .hasCustomAttribute + w.codedBytes .customAttributeType + w.blobBytes
  | .fieldMarshal => w.codedBytes .hasFieldMarshal + w.blobBytes
  | .declSecurity => 2 + w.codedBytes .hasDeclSecurity + w.blobBytes
  | .classLayout => 2 + 4 + w.indexBytes .typeDef
  | .fieldLayout => 4 + w.indexBytes .field
  | .standAloneSig => w.blobBytes
  | .eventMap => w.indexBytes .typeDef + w.indexBytes .event
  | .eventPtr => w.indexBytes .event
  | .event => 2 + w.stringBytes + w.codedBytes .typeDefOrRef
  | .propertyMap => w.indexBytes .typeDef + w.indexBytes .property
  | .propertyPtr => w.indexBytes .property
  | .property => 2 + w.stringBytes + w.blobBytes
  | .methodSemantics => 2 + w.indexBytes .methodDef + w.codedBytes .hasSemantics
  | .methodImpl =>
    w.indexBytes .typeDef + w.codedBytes .methodDefOrRef + w.codedBytes .methodDefOrRef
  | .moduleRef => w.stringBytes
  | .typeSpec => w.blobBytes
  | .implMap =>
    2 + w.codedBytes .memberForwarded + w.stringBytes + w.indexBytes .moduleRef
  | .fieldRva => 4 + w.indexBytes .field
  | .encLog => 4 + 4
  | .encMap => 4
  | .assembly =>
    4 + 2 + 2 + 2 + 2 + 4 + w.blobBytes + w.stringBytes + w.stringBytes
  | .assemblyProcessor => 4
  | .assemblyOs => 4 + 4 + 4
  | .assemblyRef =>
    2 + 2 + 2 + 2 + 4 + w.blobBytes + w.stringBytes + w.stringBytes + w.blobBytes
  | .assemblyRefProcessor => 4 + w.indexBytes .assemblyRef
  | .assemblyRefOs => 4 + 4 + 4 + w.indexBytes .assemblyRef
  | .file => 4 + w.stringBytes + w.blobBytes
  | .exportedType => 4 + 4 + w.stringBytes + w.stringBytes + w.codedBytes .implementation
  | .manifestResource => 4 + 4 + w.stringBytes + w.codedBytes .implementation
  | .nestedClass => w.indexBytes .typeDef + w.indexBytes .typeDef
  | .genericParam => 2 + 2 + w.codedBytes .typeOrMethodDef + w.stringBytes
  | .methodSpec => w.codedBytes .methodDefOrRef + w.blobBytes
  | .genericParamConstraint => w.indexBytes .genericParam + w.codedBytes .typeDefOrRef

/-- The reference that a stored number stands for. Its tag has to name a table and its row to be
one of the table's, or zero. -/
def decode (w : Widths) (kind : CodedKind) (value : Nat) : Except Error CodedIndex :=
  let tag := value % (1 <<< kind.tagBits)
  let row := value >>> kind.tagBits
  match kind.slots[tag]? with
  | some (some table) =>
    if row ≤ w.rows table then .ok ⟨table, row⟩
    else .error (.malformed (.codedRow kind row table (w.rows table)))
  | _ => .error (.malformed (.codedTag tag kind))

end Widths

namespace CodedIndex

def encode (kind : CodedKind) (table : Table) (row : Nat) : Except Error Nat :=
  match kind.tagOf? table with
  | some tag => .ok ((row <<< kind.tagBits) % 0x100000000 + tag)
  | none => .error (.malformed (.codedTable table kind))

/-- Reads a reference at an offset. The offset moves past the stored number also when the number
stands for no reference. -/
def readAt (w : Widths) (kind : CodedKind) (data : ByteArray) (offset : Nat) :
    Except Error CodedIndex × Nat :=
  match Bytes.readAt data offset (w.codedBytes kind) with
  | .ok (value, next) => (w.decode kind value, next)
  | .error e => (.error e, offset)

end CodedIndex

end CliMetadata
