import CliMetadata.Proofs.Table.Layout
import CliMetadata.Table.RowIndex

set_option autoImplicit false

namespace CliMetadata

section
variable {t : Table} {index : RowIndex t} {token : Token} {rows : Nat}

@[simp] theorem RowIndex.make_ok {i : Nat} :
    make t i rows = .ok index ↔ i < rows ∧ index = ⟨i⟩ := by
  unfold make
  split
  next inside => simp [inside, eq_comm]
  next outside => simp [outside]

theorem RowIndex.ofToken_ok :
    ofToken t token rows = .ok index ↔ token.Names t index.rid ∧ index.index < rows := by
  have number : token.tableNumber = t.number ↔ token.table? = some t :=
    ⟨fun same => by rw [Token.table?, same, Table.ofNumber?_number],
      fun named => (Table.number_of_ofNumber? named).symm⟩
  unfold ofToken
  split
  next other => simp [Token.Names, ← number, other]
  next same =>
    rw [Decidable.not_not] at same
    split
    next null =>
      rw [Token.isNullRow, beq_iff_eq] at null
      simp [Token.Names, null, rid]
    next row =>
      rw [Token.isNullRow, beq_iff_eq] at row
      rw [make_ok, Token.Names, ← number, rid]
      constructor
      · rintro ⟨inside, rfl⟩
        exact ⟨⟨same, (Nat.sub_add_cancel (Nat.pos_of_ne_zero row)).symm⟩, inside⟩
      · rintro ⟨⟨_, named⟩, inside⟩
        rw [named, Nat.add_sub_cancel]
        exact ⟨inside, rfl⟩

theorem RowIndex.ofToken_token (inside : index.index < rows) :
    ofToken t index.token rows = .ok index ↔ index.rid ≤ Token.maxRow := by
  rw [ofToken_ok, and_iff_left inside]
  exact Token.names_ofBits_iff t index.rid

end

section
variable {w : Widths} {data : ByteArray}

theorem Widths.row_le_of_decode {kind : CodedKind} {value : Nat} {c : CodedIndex}
    (decoded : w.decode kind value = .ok c) : c.row ≤ w.rows c.table := by
  unfold decode at decoded
  dsimp only at decoded
  split at decoded
  next =>
    split at decoded
    next known =>
      cases decoded
      exact known
    next => cases decoded
  next => cases decoded

theorem CodedIndex.row_le_of_readAt {kind : CodedKind} {offset next : Nat} {c : CodedIndex}
    (read : CodedIndex.readAt w kind data offset = (.ok c, next)) : c.row ≤ w.rows c.table := by
  unfold readAt at read
  split at read
  next => exact Widths.row_le_of_decode (Prod.mk.inj read).1
  next => cases (Prod.mk.inj read).1

theorem ColumnKind.readAt_coded {kind : CodedKind} {offset next : Nat} {c : CodedIndex}
    (read : ColumnKind.readAt w data offset (.coded kind) = .ok (c, next)) :
    CodedIndex.readAt w kind data offset = (.ok c, next) := by
  rw [ColumnKind.readAt] at read
  obtain ⟨⟨value, after⟩, number, read⟩ := except_bind_ok.1 read
  obtain ⟨reference, decoded, same⟩ := except_bind_ok.1 read
  cases same
  rw [CodedIndex.readAt, number]
  exact Prod.ext decoded rfl

theorem Fields.coded_of_readAt {columns : List Column} {offset stop : Nat} {fields : Fields columns}
    (read : Fields.readAt w data columns offset = .ok (fields, stop)) {name : String}
    {c : CodedIndex} (member : .coded name c ∈ Fields.cells columns fields) :
    ∃ kind offset next, CodedIndex.readAt w kind data offset = (.ok c, next) := by
  induction columns generalizing offset with
  | nil => cases member
  | cons column rest ih =>
    rw [readAt] at read
    obtain ⟨⟨value, after⟩, first, read⟩ := except_bind_ok.1 read
    obtain ⟨⟨values, stop⟩, further, same⟩ := except_bind_ok.1 read
    cases same
    rcases List.mem_append.1 member with here | there
    · obtain ⟨columnName, kind⟩ := column
      cases kind with
      | coded kind =>
        cases List.mem_singleton.1 here
        exact ⟨kind, offset, after, ColumnKind.readAt_coded first⟩
      | padding width => cases here
      | _ => cases List.mem_singleton.1 here
    · exact ih further there

end

namespace TableStream

def Holds (s : TableStream) (t : Table) (rid : Nat) (row : Row t) : Prop :=
  ∃ view, s.view? t = some view ∧ view.get? rid = .ok row

/-- The reference can be read from a coded column of the stream, whatever bytes stand there. -/
def Refers (s : TableStream) (c : CodedIndex) : Prop :=
  ∃ kind bytes offset next, CodedIndex.readAt s.widths kind bytes offset = (.ok c, next)

/-- Each row and each reference has a token that names it, and so no two rows have the same. -/
structure Unambiguous (s : TableStream) : Prop where
  rows : ∀ {t rid} {row : Row t}, s.Holds t rid row → row.token.Names t rid
  distinct : ∀ {t u rid other} {row : Row t} {row' : Row u}, s.Holds t rid row →
    s.Holds u other row' → row.token = row'.token → t = u ∧ rid = other
  references : ∀ {c}, s.Refers c → c.token.Names c.table c.row

structure Tokens (s : TableStream) : Prop where
  rows : ∀ {t rid} {row : Row t}, s.Holds t rid row →
    (row.token.Names t rid ↔ rid ≤ Token.maxRow)
  references : ∀ {c}, s.Refers c →
    c.row ≤ s.rows c.table ∧ (c.token.Names c.table c.row ↔ c.row ≤ Token.maxRow)
  cells : ∀ {t rid name c} {row : Row t}, s.Holds t rid row → .coded name c ∈ row.cells →
    s.Refers c
  indices : ∀ {t i rows index}, RowIndex.make t i rows = .ok index →
    (RowIndex.ofToken t index.token rows = .ok index ↔ i + 1 ≤ Token.maxRow)
  roomy : (∀ t, s.rows t ≤ Token.maxRow) → s.Unambiguous

section
variable {s : TableStream} {t : Table} {rid : Nat} {row : Row t}

theorem Holds.decoded (holds : s.Holds t rid row) : row.rid = rid ∧ rid ≤ s.rows t ∧
    ∃ data offset stop, Fields.readAt s.widths data t.columns offset = .ok (row.fields, stop) := by
  obtain ⟨view, found, got⟩ := holds
  unfold view? at found
  split at found <;> cases found
  rw [TableView.get?_eq] at got
  split at got
  next => cases got
  next inside =>
    rw [TableView.decode_eq] at got
    obtain ⟨⟨fields, stop⟩, read, rfl⟩ := except_map_ok.1 got
    exact ⟨rfl, Nat.le_of_not_lt (not_or.1 inside).2, _, _, _, read⟩

theorem Holds.names_iff (holds : s.Holds t rid row) :
    row.token.Names t rid ↔ rid ≤ Token.maxRow := by
  rw [Row.token, holds.decoded.1]
  exact Token.names_ofRow_iff t rid

end

/-- No check stands between the row counts of a header and the tokens: a token names what it was
made from exactly if the row has room in it. -/
theorem tokens_name (s : TableStream) : s.Tokens where
  rows := Holds.names_iff
  references := fun {c} ⟨_, _, _, _, read⟩ =>
    ⟨CodedIndex.row_le_of_readAt read, c.names_token_iff⟩
  cells holds member := by
    obtain ⟨_, _, data, _, _, read⟩ := holds.decoded
    obtain ⟨kind, offset, next, coded⟩ := Fields.coded_of_readAt read member
    exact ⟨kind, data, offset, next, coded⟩
  indices made := by
    obtain ⟨inside, rfl⟩ := RowIndex.make_ok.1 made
    exact RowIndex.ofToken_token inside
  roomy room := by
    have names {t : Table} {rid : Nat} {row : Row t} (holds : s.Holds t rid row) :
        row.token.Names t rid :=
      holds.names_iff.2 (Nat.le_trans holds.decoded.2.1 (room t))
    refine ⟨names, fun first second same => ?_, fun {c} ⟨_, _, _, _, read⟩ => ?_⟩
    · have other := names second
      rw [← same] at other
      exact (names first).unique other
    · exact c.names_token_iff.2 (Nat.le_trans (CodedIndex.row_le_of_readAt read) (room c.table))

def withZeros (data : ByteArray) (n : Nat) : ByteArray := ⟨data.data ++ Array.replicate n 0⟩

section
variable (data : ByteArray) (n : Nat)

@[simp] theorem size_withZeros : (withZeros data n).size = data.size + n := by
  change (data.data ++ Array.replicate n 0).size = _
  rw [Array.size_append, Array.size_replicate]
  rfl

@[simp] theorem number_withZeros (offset width : Nat) :
    Bytes.number (withZeros data n) offset width = Bytes.number data offset width := by
  induction width generalizing offset with
  | zero => rfl
  | succ width ih =>
    have byte : (if h : offset < (withZeros data n).size then (withZeros data n)[offset].toNat
        else 0) = if h : offset < data.size then data[offset].toNat else 0 := by
      by_cases inside : offset < data.size
      · have still : offset < (withZeros data n).size := by
          simp only [size_withZeros]
          omega
        rw [dif_pos inside, dif_pos still]
        exact congrArg UInt8.toNat (Array.getElem_append_left inside)
      · rw [dif_neg inside]
        split
        next within =>
          have behind : data.data.size ≤ offset := Nat.le_of_not_lt inside
          have among : offset < (data.data ++ Array.replicate n 0).size := within
          have zero : (data.data ++ Array.replicate n 0)[offset] = 0 := by
            rw [Array.getElem_append_right behind, Array.getElem_replicate]
          exact congrArg UInt8.toNat zero
        next => rfl
    rw [Bytes.number, Bytes.number, byte, ih]

@[simp] theorem mask_withZeros : mask (withZeros data n) = mask data := number_withZeros data n 8 8

@[simp] theorem count?_withZeros : count? (withZeros data n) = count? data := by
  funext t
  simp [count?, namedTables]

@[simp] theorem widthsOf_withZeros : widthsOf (withZeros data n) = widthsOf data := by
  simp [widthsOf]

@[simp] theorem tablesStart_withZeros : tablesStart (withZeros data n) = tablesStart data := by
  simp [tablesStart]

@[simp] theorem stop_withZeros : stop (withZeros data n) = stop data := by
  simp [stop_eq, extent_eq]

end

theorem fits_withZeros {data : ByteArray} {n : Nat} (header : headerBytes ≤ data.size)
    (known : mask data < 2 ^ Table.count) (counts : tablesStart data ≤ data.size)
    (tables : stop data ≤ data.size + n) : Fits (withZeros data n) := by
  have longer : (withZeros data n).size = data.size + n := size_withZeros data n
  refine fits_of_mask (by omega) (by simpa using known) ?_ (by simpa using tables)
  rw [tablesStart_withZeros]
  omega

/-- A header that promises one row more of pointers to fields than tokens can name, and a field. -/
def crowdedHeader : ByteArray :=
  ⟨#[0, 0, 0, 0, 2, 0, 0, 1, 0x18, 0, 0, 0, 0, 0, 0, 0, 0, 0, 0, 0, 0, 0, 0, 0,
    1, 0, 0, 1, 1, 0, 0, 0]⟩

def crowded : ByteArray := withZeros crowdedHeader 33554440

theorem crowded_fits : Fits crowded :=
  fits_withZeros (by decide) (by decide) (by decide) (by decide +kernel)

theorem holds_crowded {t : Table} {rid : Nat} (first : 0 < rid)
    (last : rid ≤ (count? crowdedHeader t).getD 0)
    (plain : ∀ c ∈ t.columns, c.kind.isCoded = false) :
    ∃ row : Row t, (laidOut crowded).Holds t rid row := by
  have counted : rid ≤ (laidOut crowded).rows t := by
    change rid ≤ (widthsOf crowded).rows t
    simpa [crowded] using last
  obtain ⟨view, found, within, last⟩ := view?_fits crowded_fits first counted
  obtain ⟨row, got⟩ := TableView.get?_plain within first last plain
  exact ⟨row, view, found, got⟩

/-- The last pointer has the token of the field, and a row index the token of another table. -/
theorem crowded_ambiguous :
    (∃ s, read crowded = .ok s ∧ ¬s.Unambiguous) ∧
    ∃ index, RowIndex.make .typeDef 0xFFFFFF 0x1000000 = .ok index ∧
      RowIndex.ofToken .typeDef index.token 0x1000000 =
        .error (.malformed (.tokenTable ⟨0x03000000⟩ .typeDef)) := by
  refine ⟨⟨laidOut crowded, read_eq crowded_fits, fun unambiguous => ?_⟩, ⟨⟨0xFFFFFF⟩, rfl, rfl⟩⟩
  obtain ⟨pointer, last⟩ := @holds_crowded .fieldPtr 0x1000001 (by decide) (by decide) (by decide)
  obtain ⟨field, only⟩ := @holds_crowded .field 1 (by decide) (by decide) (by decide)
  have same : pointer.token = field.token := by
    rw [Row.token, Row.token, last.decoded.1, only.decoded.1]
    rfl
  cases (unambiguous.distinct last only same).1

end TableStream

end CliMetadata
