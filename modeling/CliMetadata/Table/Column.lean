import CliMetadata.Table.Coded
import CliMetadata.Token

set_option autoImplicit false

namespace CliMetadata

structure CodedIndex where
  table : Table
  row : Nat
  deriving DecidableEq, Repr, Hashable, Inhabited

namespace CodedIndex

def isNull (c : CodedIndex) : Bool := c.row == 0

def token (c : CodedIndex) : Token := .ofBits c.table (c.row % 0x1000000)

end CodedIndex

inductive ColumnKind
  | fixed (width : Nat)
  | padding (width : Nat)
  | string
  | guid
  | blob
  | index (table : Table)
  | coded (kind : CodedKind)
  deriving DecidableEq, Repr

abbrev ColumnKind.Value : ColumnKind → Type
  | .coded _ => CodedIndex
  | .padding _ => Unit
  | _ => Nat

structure Column where
  name : String
  kind : ColumnKind
  deriving DecidableEq, Repr

namespace Column

def u8 (name : String) : Column := ⟨name, .fixed 1⟩
def u16 (name : String) : Column := ⟨name, .fixed 2⟩
def u32 (name : String) : Column := ⟨name, .fixed 4⟩
def text (name : String) : Column := ⟨name, .string⟩
def guid (name : String) : Column := ⟨name, .guid⟩
def blob (name : String) : Column := ⟨name, .blob⟩
def rowOf (name : String) (table : Table) : Column := ⟨name, .index table⟩
def coded (name : String) (kind : CodedKind) : Column := ⟨name, .coded kind⟩
def padding (width : Nat) : Column := ⟨"", .padding width⟩

end Column

abbrev Fields : List Column → Type
  | [] => Unit
  | c :: rest => c.kind.Value × Fields rest

inductive Cell
  | number (name : String) (value : Nat)
  | coded (name : String) (value : CodedIndex)
  deriving DecidableEq, Repr

def Column.cell? (c : Column) (value : c.kind.Value) : Option Cell :=
  match c with
  | ⟨name, .coded _⟩ => some (.coded name value)
  | ⟨_, .padding _⟩ => none
  | ⟨name, .fixed _⟩ => some (.number name value)
  | ⟨name, .string⟩ => some (.number name value)
  | ⟨name, .guid⟩ => some (.number name value)
  | ⟨name, .blob⟩ => some (.number name value)
  | ⟨name, .index _⟩ => some (.number name value)

def Fields.cells : (columns : List Column) → Fields columns → List Cell
  | [], _ => []
  | c :: rest, (value, values) => (c.cell? value).toList ++ cells rest values

def Column.token? (c : Column) (value : c.kind.Value) : Option Token :=
  match c with
  | ⟨_, .coded _⟩ => some (CodedIndex.token value)
  | ⟨_, .index table⟩ => some (.ofBits table value)
  | _ => none

def Fields.token? : (columns : List Column) → Fields columns → Nat → Option Token
  | [], _, _ => none
  | c :: _, (value, _), 0 => c.token? value
  | _ :: rest, (_, values), n + 1 => token? rest values n

end CliMetadata
