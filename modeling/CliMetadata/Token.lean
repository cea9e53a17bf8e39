import CliMetadata.Table
import CliMetadata.Text.Ascii

set_option autoImplicit false

namespace CliMetadata

structure Token where
  value : UInt32
  deriving DecidableEq, Repr, Hashable, Inhabited

namespace Token

def maxRow : Nat := 0x00FFFFFF

def tableNumber (t : Token) : Nat := (t.value >>> 24).toNat

def table? (t : Token) : Option Table := Table.ofNumber? t.tableNumber

def row (t : Token) : Nat := (t.value &&& 0x00FFFFFF).toNat

def isNull (t : Token) : Bool := t.value == 0

def isNullRow (t : Token) : Bool := t.row == 0

def null (table : Table) : Token := ⟨table.tokenBase⟩

def ofRow (table : Table) (rid : Nat) : Token := ⟨table.tokenBase + rid.toUInt32⟩

def ofBits (table : Table) (bits : Nat) : Token := ⟨table.tokenBase ||| bits.toUInt32⟩

def display (t : Token) : String := "0x" ++ Hex.lower 8 t.value.toNat

def debug (t : Token) : String :=
  s!"Token({t.display}, table: 0x{Hex.lower 2 t.tableNumber}, row: {t.row})"

instance : ToString Token := ⟨display⟩

theorem ext_value {a b : Token} (h : a.value = b.value) : a = b := by
  cases a; cases b; simp_all

end Token

end CliMetadata
