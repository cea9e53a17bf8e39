import CliMetadata.Table.Column

set_option autoImplicit false

namespace CliMetadata

namespace Table

theorem number_of_ofNumber? {n : Nat} {t : Table} (found : ofNumber? n = some t) :
    t.number = n := by
  have listed : ∀ i : Fin all.length, all[i].number = i.val := by decide
  obtain ⟨inside, rfl⟩ := List.getElem?_eq_some_iff.1 found
  exact listed ⟨n, inside⟩

end Table

namespace Token

def NamesType (t : Token) : Prop :=
  t.table? = some .typeDef ∨ t.table? = some .typeRef ∨ t.table? = some .typeSpec

theorem tableNumber_eq (t : Token) : t.tableNumber = t.value.toNat / 0x1000000 := by
  simp [tableNumber, Nat.shiftRight_eq_div_pow]

theorem row_eq (t : Token) : t.row = t.value.toNat % 0x1000000 := by
  have mask : (0x00FFFFFF : UInt32).toNat = 0x1000000 - 1 := rfl
  rw [row, UInt32.toNat_and, mask]
  exact Nat.and_two_pow_sub_one_eq_mod t.value.toNat 24

theorem row_lt (t : Token) : t.row < 0x1000000 := by
  rw [row_eq]
  omega

theorem ext_parts {a b : Token} (table : a.tableNumber = b.tableNumber) (row : a.row = b.row) :
    a = b := by
  rw [tableNumber_eq, tableNumber_eq] at table
  rw [row_eq, row_eq] at row
  apply ext_value
  apply UInt32.toNat_inj.1
  rw [← Nat.div_add_mod a.value.toNat 0x1000000, table, row, Nat.div_add_mod]

theorem tokenBase_toNat (t : Table) : t.tokenBase.toNat = t.number * 0x1000000 := by
  cases t <;> rfl

theorem ofBits_row {t : Token} {table : Table} (named : t.table? = some table) :
    Token.ofBits table t.row = t := by
  have number := Table.number_of_ofNumber? named
  rw [tableNumber_eq] at number
  have whole := t.value.toNat_lt
  apply ext_value
  apply UInt32.toNat_inj.1
  have row : t.row.toUInt32.toNat = t.value.toNat % 0x1000000 := by
    rw [row_eq]
    exact Nat.mod_eq_of_lt (by omega)
  simp only [ofBits, UInt32.toNat_or, tokenBase_toNat, number, row]
  have joined := Nat.shiftLeft_add_eq_or_of_lt (i := 24) (b := t.value.toNat % 0x1000000)
    (by omega) (t.value.toNat / 0x1000000)
  simp only [Nat.shiftLeft_eq, Nat.reducePow] at joined
  omega

def Names (token : Token) (t : Table) (rid : Nat) : Prop :=
  token.table? = some t ∧ token.row = rid

theorem Names.unique {token : Token} {t u : Table} {rid other : Nat} (first : token.Names t rid)
    (second : token.Names u other) : t = u ∧ rid = other :=
  ⟨Option.some.inj (first.1.symm.trans second.1), first.2.symm.trans second.2⟩

theorem Names.le_maxRow {token : Token} {t : Table} {rid : Nat} (named : token.Names t rid) :
    rid ≤ maxRow := by
  rw [← named.2]
  exact Nat.le_of_lt_succ token.row_lt

theorem names_of_parts {token : Token} {t : Table} {rid : Nat} (room : rid ≤ maxRow)
    (parts : token.value.toNat = t.number * 0x1000000 + rid) : token.Names t rid := by
  rw [maxRow] at room
  constructor
  · rw [table?, tableNumber_eq, parts, show (t.number * 0x1000000 + rid) / 0x1000000 = t.number by
      omega]
    exact Table.ofNumber?_number t
  · rw [row_eq, parts]
    omega

theorem toNat_toUInt32 {rid : Nat} (room : rid ≤ maxRow) : rid.toUInt32.toNat = rid :=
  Nat.mod_eq_of_lt (Nat.lt_of_le_of_lt room (by decide))

-- The sum runs over into the table part where the row does not fit into three bytes.
@[simp] theorem names_ofRow_iff (t : Table) (rid : Nat) :
    (ofRow t rid).Names t rid ↔ rid ≤ maxRow := by
  refine ⟨Names.le_maxRow, fun room => names_of_parts room ?_⟩
  have known : t.number < 45 := t.number_lt
  have small : rid ≤ 0xFFFFFF := room
  rw [ofRow, UInt32.toNat_add, tokenBase_toNat, toNat_toUInt32 room]
  omega

@[simp] theorem names_ofBits_iff (t : Table) (rid : Nat) :
    (ofBits t rid).Names t rid ↔ rid ≤ maxRow := by
  refine ⟨Names.le_maxRow, fun room => names_of_parts room ?_⟩
  have small : rid < 2 ^ 24 := Nat.lt_succ_of_le room
  rw [ofBits, UInt32.toNat_or, tokenBase_toNat, toNat_toUInt32 room]
  have joined := Nat.shiftLeft_add_eq_or_of_lt small t.number
  rw [Nat.shiftLeft_eq] at joined
  exact joined.symm

end Token

@[simp] theorem CodedIndex.names_token_iff (c : CodedIndex) :
    c.token.Names c.table c.row ↔ c.row ≤ Token.maxRow := by
  refine ⟨Token.Names.le_maxRow, fun room => ?_⟩
  have small : c.row < 0x1000000 := Nat.lt_succ_of_le room
  rw [token, Nat.mod_eq_of_lt small]
  exact (Token.names_ofBits_iff c.table c.row).2 room

end CliMetadata
