import CliMetadata.Error

set_option autoImplicit false

namespace CliMetadata

structure RowIndex (t : Table) where
  index : Nat
  deriving DecidableEq, Repr

namespace RowIndex

variable {t : Table}

def make (t : Table) (index rows : Nat) : Except Error (RowIndex t) :=
  if index < rows then .ok ⟨index⟩ else .error (.malformed (.rowIndex index t rows))

def ofToken (t : Table) (token : Token) (rows : Nat) : Except Error (RowIndex t) :=
  if token.tableNumber ≠ t.number then .error (.malformed (.tokenTable token t))
  else if token.isNullRow then .error (.malformed (.tokenNull t))
  else make t (token.row - 1) rows

def rid (i : RowIndex t) : Nat := i.index + 1

def token (i : RowIndex t) : Token := .ofBits t (i.index + 1)

def debug (i : RowIndex t) : String := s!"RowIndex<{t.name}>({i.index})"

end RowIndex

def Token.ofParts (table : Table) (row : Nat) : Except Error Token :=
  if row ≤ Token.maxRow then .ok (.ofBits table row)
  else .error (.malformed (.tokenRow row table))

end CliMetadata
