import CliMetadata.Proofs.Table.Rows

set_option autoImplicit false

namespace CliMetadata

variable {t : Table} {w : Widths} {data : ByteArray} {rid offset : Nat}

theorem Fields.readAt_within {columns : List Column} {stop : Nat} {fields : Fields columns}
    (proper : columns ≠ []) (read : Fields.readAt w data columns offset = .ok (fields, stop)) :
    stop ≤ data.size := by
  induction columns generalizing offset with
  | nil => exact absurd rfl proper
  | cons c rest ih =>
    rw [readAt_cons] at read
    split at read
    next fits =>
      obtain ⟨value, _, read⟩ := except_bind_ok.1 read
      obtain ⟨⟨values, last⟩, inner, same⟩ := except_bind_ok.1 read
      cases same
      cases rest with
      | nil =>
        cases inner
        exact fits
      | cons => exact ih (List.cons_ne_nil _ _) inner
    next => cases read

theorem Table.columns_ne_nil (t : Table) : t.columns ≠ [] := by
  cases t <;> exact List.cons_ne_nil _ _

namespace Row

variable {row : Row t} {next : Nat}

theorem readAt_ok (read : Row.readAt w data rid offset = .ok (row, next)) :
    Fields.readAt w data t.columns offset = .ok (row.fields, next) ∧ row.rid = rid ∧
      row.offset = offset := by
  rw [readAt_eq] at read
  obtain ⟨⟨fields, stop⟩, found, same⟩ := except_map_ok.1 read
  cases same
  exact ⟨found, rfl, rfl⟩

/-- Reading a row of a table takes the bytes that are declared for the table, and no others. -/
structure ReadsSpan (t : Table) (w : Widths) (data : ByteArray) (rid offset : Nat) : Prop where
  consumed : ∀ (row : Row t) next, Row.readAt w data rid offset = .ok (row, next) →
    next = offset + w.tableRowBytes t ∧ next ≤ data.size ∧ row.rid = rid ∧ row.offset = offset
  -- The same bytes give the same values, wherever they stand and whatever the number of the row.
  alone : ∀ (row : Row t) next, Row.readAt w data rid offset = .ok (row, next) →
    ∀ (other : ByteArray) number place, place + w.tableRowBytes t ≤ other.size →
      other.extract place (place + w.tableRowBytes t) =
        data.extract offset (offset + w.tableRowBytes t) →
      Row.readAt w other number place =
        .ok (⟨number, place, row.fields⟩, place + w.tableRowBytes t)
  refused : offset + w.tableRowBytes t ≤ data.size →
    ∀ e, Row.readAt (t := t) w data rid offset = .error e →
      ∃ c ∈ t.columns, ∃ kind, c.kind = .coded kind ∧ w.Refuses kind e

theorem readAt_consumed (read : Row.readAt w data rid offset = .ok (row, next)) :
    next = offset + w.tableRowBytes t ∧ next ≤ data.size := by
  obtain ⟨found, _⟩ := readAt_ok read
  rw [w.tableRowBytes_eq]
  exact ⟨Fields.readAt_stop found, Fields.readAt_within t.columns_ne_nil found⟩

theorem readAt_alone (read : Row.readAt w data rid offset = .ok (row, next))
    {other : ByteArray} (number : Nat) {place : Nat}
    (inside : place + w.tableRowBytes t ≤ other.size)
    (same : other.extract place (place + w.tableRowBytes t) =
      data.extract offset (offset + w.tableRowBytes t)) :
    Row.readAt w other number place =
      .ok (⟨number, place, row.fields⟩, place + w.tableRowBytes t) := by
  obtain ⟨rfl, within⟩ := readAt_consumed read
  obtain ⟨found, _⟩ := readAt_ok read
  rw [w.tableRowBytes_eq] at *
  rw [Fields.readAt_span w within] at found
  obtain ⟨⟨fields, stop⟩, window, spanned⟩ := except_map_ok.1 found
  obtain ⟨rfl, ended⟩ := Prod.mk.inj spanned
  have size : stop = w.rowBytes t.columns := Nat.add_left_cancel ended
  rw [readAt_eq, Fields.readAt_span w inside, same, window, size]
  rfl

/-- Whatever the widths of the columns are, a row is read from as many bytes as are declared for its
table, from all of these and from no others. -/
theorem readsSpan (t : Table) (w : Widths) (data : ByteArray) (rid offset : Nat) :
    ReadsSpan t w data rid offset where
  consumed := by
    intro row next read
    obtain ⟨size, within⟩ := readAt_consumed read
    obtain ⟨_, own⟩ := readAt_ok read
    exact ⟨size, within, own⟩
  alone := by
    intro row next read other number place inside same
    exact readAt_alone read number inside same
  refused := by
    intro inside e failed
    rw [w.tableRowBytes_eq] at inside
    rw [readAt_eq] at failed
    cases read : Fields.readAt w data t.columns offset with
    | ok found =>
      rw [read] at failed
      cases failed
    | error other =>
      rw [read] at failed
      cases failed
      rcases Fields.readAt_error read with refused | ⟨_, short⟩
      · exact refused
      · omega

end Row

end CliMetadata
