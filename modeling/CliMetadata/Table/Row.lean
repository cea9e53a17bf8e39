import CliMetadata.Table.Widths

set_option autoImplicit false

namespace CliMetadata

structure Row (t : Table) where
  rid : Nat
  offset : Nat
  fields : Fields t.columns

namespace Row

variable {t : Table}

def token (row : Row t) : Token := .ofRow t row.rid

def cells (row : Row t) : List Cell := Fields.cells t.columns row.fields

def key? (row : Row t) : Option Token :=
  t.keyColumn?.bind (Fields.token? t.columns row.fields)

end Row

def ColumnKind.readAt (w : Widths) (data : ByteArray) (offset : Nat) :
    (kind : ColumnKind) → Except Error (kind.Value × Nat)
  | .fixed width => Bytes.readAt data offset width
  | .padding width => (Bytes.readAt data offset width).map fun (_, next) => ((), next)
  | .string => Bytes.readAt data offset w.stringBytes
  | .guid => Bytes.readAt data offset w.guidBytes
  | .blob => Bytes.readAt data offset w.blobBytes
  | .index table => Bytes.readAt data offset (w.indexBytes table)
  | .coded kind => do
    let (value, next) ← Bytes.readAt data offset (w.codedBytes kind)
    return (← w.decode kind value, next)

def Fields.readAt (w : Widths) (data : ByteArray) :
    (columns : List Column) → (offset : Nat) → Except Error (Fields columns × Nat)
  | [], offset => .ok ((), offset)
  | c :: rest, offset => do
    let (value, next) ← c.kind.readAt w data offset
    let (values, stop) ← readAt w data rest next
    return ((value, values), stop)

def Row.readAt {t : Table} (w : Widths) (data : ByteArray) (rid offset : Nat) :
    Except Error (Row t × Nat) := do
  let (fields, next) ← Fields.readAt w data t.columns offset
  return ({ rid, offset, fields }, next)

end CliMetadata
