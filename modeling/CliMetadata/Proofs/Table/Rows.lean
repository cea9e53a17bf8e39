import CliMetadata.Proofs.Failing
import CliMetadata.Table.View

set_option autoImplicit false

namespace CliMetadata

def ColumnKind.value (w : Widths) : (kind : ColumnKind) → Nat → Except Error kind.Value
  | .fixed _, n => .ok n
  | .padding _, _ => .ok ()
  | .string, n => .ok n
  | .guid, n => .ok n
  | .blob, n => .ok n
  | .index _, n => .ok n
  | .coded kind, n => w.decode kind n

@[simp] theorem Widths.rowBytes_cons (w : Widths) (c : Column) (rest : List Column) :
    w.rowBytes (c :: rest) = w.columnBytes c.kind + w.rowBytes rest := rfl

@[simp] theorem Widths.rowBytes_nil (w : Widths) : w.rowBytes [] = 0 := rfl

-- The sizes and the columns are declared apart from each other, and agree for every table.
theorem Widths.tableRowBytes_eq (w : Widths) (t : Table) :
    w.tableRowBytes t = w.rowBytes t.columns := by
  cases t <;> simp only [tableRowBytes, rowBytes_cons, rowBytes_nil, columnBytes, Table.columns,
    Table.versionColumns, List.cons_append, List.nil_append, Column.u8, Column.u16, Column.u32,
    Column.text, Column.guid, Column.blob, Column.rowOf, Column.coded, Column.padding] <;> omega

section
variable (w : Widths) (data : ByteArray)

theorem ColumnKind.readAt_eq (kind : ColumnKind) (offset : Nat) :
    kind.readAt w data offset =
      if offset + w.columnBytes kind ≤ data.size then
        (kind.value w (Bytes.number data offset (w.columnBytes kind))).map
          (·, offset + w.columnBytes kind)
      else .error .outOfBounds := by
  cases kind with
  | padding width =>
    rw [ColumnKind.readAt, Bytes.readAt]
    by_cases fits : offset + width ≤ data.size <;> simp [Widths.columnBytes, fits] <;> rfl
  | coded kind =>
    rw [ColumnKind.readAt, Bytes.readAt]
    by_cases fits : offset + w.codedBytes kind ≤ data.size
    · simp only [Widths.columnBytes, fits, if_true]
      change (do return (← w.decode kind _, _)) = Except.map _ (w.decode kind _)
      cases w.decode kind (Bytes.number data offset (w.codedBytes kind)) <;> rfl
    · simp only [Widths.columnBytes, fits, if_false]
      rfl
  | _ => rfl

theorem Fields.readAt_cons (c : Column) (rest : List Column) (offset : Nat) :
    Fields.readAt w data (c :: rest) offset =
      if offset + w.columnBytes c.kind ≤ data.size then do
        let value ← c.kind.value w (Bytes.number data offset (w.columnBytes c.kind))
        let (values, stop) ← Fields.readAt w data rest (offset + w.columnBytes c.kind)
        return ((value, values), stop)
      else .error .outOfBounds := by
  rw [Fields.readAt, ColumnKind.readAt_eq]
  by_cases fits : offset + w.columnBytes c.kind ≤ data.size
  · simp only [fits, if_true]
    cases c.kind.value w (Bytes.number data offset (w.columnBytes c.kind)) <;> rfl
  · simp only [fits, if_false]
    rfl

end

theorem Row.readAt_eq {t : Table} (w : Widths) (data : ByteArray) (rid offset : Nat) :
    Row.readAt w data rid offset = (Fields.readAt w data t.columns offset).map
      fun (fields, next) => (({ rid, offset, fields } : Row t), next) := by
  unfold Row.readAt
  cases Fields.readAt w data t.columns offset <;> rfl

section
variable {data : ByteArray} {start stop : Nat}

theorem Bytes.number_extract {k width : Nat} (fits : start + k + width ≤ stop)
    (inside : stop ≤ data.size) :
    number (data.extract start stop) k width = number data (start + k) width := by
  induction width generalizing k with
  | zero => rfl
  | succ width ih =>
    have here : k < (data.extract start stop).size := by simp; omega
    have there : start + k < data.size := by omega
    rw [number, number, dif_pos here, dif_pos there, ih (by omega), ByteArray.getElem_extract]
    rfl

theorem Fields.readAt_extract (w : Widths) {columns : List Column} {k : Nat}
    (fits : start + k + w.rowBytes columns ≤ stop) (inside : stop ≤ data.size) :
    Fields.readAt w data columns (start + k) =
      (Fields.readAt w (data.extract start stop) columns k).map (Prod.map id (start + ·)) := by
  induction columns generalizing k with
  | nil => rfl
  | cons c rest ih =>
    rw [Widths.rowBytes_cons] at fits
    have here : k + w.columnBytes c.kind ≤ (data.extract start stop).size := by simp; omega
    have there : start + k + w.columnBytes c.kind ≤ data.size := by omega
    rw [readAt_cons, readAt_cons, if_pos here, if_pos there,
      Bytes.number_extract (by omega) inside, Nat.add_assoc, ih (by omega)]
    cases c.kind.value w (Bytes.number data (start + k) (w.columnBytes c.kind)) with
    | error e => rfl
    | ok value =>
      cases Fields.readAt w (data.extract start stop) rest (k + w.columnBytes c.kind) <;> rfl

theorem Fields.readAt_span (w : Widths) {columns : List Column} {offset : Nat}
    (inside : offset + w.rowBytes columns ≤ data.size) :
    Fields.readAt w data columns offset =
      (Fields.readAt w (data.extract offset (offset + w.rowBytes columns)) columns 0).map
        (Prod.map id (offset + ·)) := by
  have spanned := readAt_extract (k := 0) w (Nat.le_refl (offset + w.rowBytes columns)) inside
  rwa [Nat.add_zero] at spanned

end

/-- The errors over a number that stands for no reference of a kind. -/
inductive Widths.Refuses (w : Widths) (kind : CodedKind) : Error → Prop
  | tag {tag : Nat} (unused : ∀ table, kind.slots[tag]? = some (some table) → False) :
    Refuses w kind (.malformed (.codedTag tag kind))
  | row {row : Nat} {table : Table} (beyond : w.rows table < row) :
    Refuses w kind (.malformed (.codedRow kind row table (w.rows table)))

theorem Widths.Refuses.malformed {w : Widths} {kind : CodedKind} {e : Error}
    (refused : w.Refuses kind e) : ∃ defect, e = .malformed defect := by
  cases refused <;> exact ⟨_, rfl⟩

section
variable {w : Widths} {data : ByteArray}

theorem Fields.readAt_stop {columns : List Column} {offset stop : Nat} {fields : Fields columns}
    (read : Fields.readAt w data columns offset = .ok (fields, stop)) :
    stop = offset + w.rowBytes columns := by
  induction columns generalizing offset with
  | nil =>
    cases read
    rfl
  | cons c rest ih =>
    rw [readAt_cons] at read
    split at read
    next fits =>
      obtain ⟨value, valued, read⟩ := except_bind_ok.1 read
      obtain ⟨⟨values, end'⟩, inner, same⟩ := except_bind_ok.1 read
      cases same
      rw [ih inner, Widths.rowBytes_cons, Nat.add_assoc]
    next => cases read

theorem Widths.refuses_of_decode {kind : CodedKind} {n : Nat} {e : Error}
    (failed : w.decode kind n = .error e) : w.Refuses kind e := by
  unfold decode at failed
  dsimp only at failed
  split at failed
  next =>
    split at failed
    next => cases failed
    next beyond =>
      cases failed
      exact .row (Nat.lt_of_not_le beyond)
  next unused =>
    cases failed
    exact .tag unused

theorem ColumnKind.refuses_of_value {kind : ColumnKind} {n : Nat} {e : Error}
    (failed : kind.value w n = .error e) : ∃ coded, kind = .coded coded ∧ w.Refuses coded e := by
  cases kind with
  | coded coded => exact ⟨coded, rfl, Widths.refuses_of_decode failed⟩
  | _ => cases failed

theorem Fields.readAt_error {columns : List Column} {offset : Nat} {e : Error}
    (failed : Fields.readAt w data columns offset = .error e) :
    (∃ c ∈ columns, ∃ kind, c.kind = .coded kind ∧ w.Refuses kind e) ∨
      e = .outOfBounds ∧ data.size < offset + w.rowBytes columns := by
  induction columns generalizing offset with
  | nil => cases failed
  | cons c rest ih =>
    rw [readAt_cons] at failed
    rw [Widths.rowBytes_cons]
    split at failed
    next fits =>
      cases valued : c.kind.value w (Bytes.number data offset (w.columnBytes c.kind)) with
      | error other =>
        rw [valued] at failed
        cases failed
        exact .inl ⟨c, List.mem_cons_self, ColumnKind.refuses_of_value valued⟩
      | ok value =>
        cases inner : Fields.readAt w data rest (offset + w.columnBytes c.kind) with
        | ok read =>
          rw [valued, inner] at failed
          cases failed
        | error other =>
          rw [valued, inner] at failed
          cases failed
          rw [← Nat.add_assoc]
          refine (ih inner).imp_left ?_
          rintro ⟨c, member, refused⟩
          exact ⟨c, .tail _ member, refused⟩
    next short =>
      cases failed
      exact .inr ⟨rfl, by omega⟩

def ColumnKind.isCoded : ColumnKind → Bool
  | .coded _ => true
  | _ => false

theorem ColumnKind.value_plain {kind : ColumnKind} (plain : kind.isCoded = false) (n : Nat) :
    ∃ value, kind.value w n = .ok value := by
  cases kind with
  | coded kind => simp [isCoded] at plain
  | _ => exact ⟨_, rfl⟩

theorem Fields.readAt_plain {columns : List Column} {offset : Nat}
    (plain : ∀ c ∈ columns, c.kind.isCoded = false)
    (fits : offset + w.rowBytes columns ≤ data.size) :
    ∃ fields stop, Fields.readAt w data columns offset = .ok (fields, stop) := by
  induction columns generalizing offset with
  | nil => exact ⟨(), offset, rfl⟩
  | cons c rest ih =>
    rw [Widths.rowBytes_cons, ← Nat.add_assoc] at fits
    have here : offset + w.columnBytes c.kind ≤ data.size := by omega
    obtain ⟨value, valued⟩ := ColumnKind.value_plain (w := w) (plain c List.mem_cons_self)
      (Bytes.number data offset (w.columnBytes c.kind))
    obtain ⟨values, stop, further⟩ := ih (fun c member => plain c (.tail _ member)) fits
    refine ⟨(value, values), stop, ?_⟩
    rw [readAt_cons, if_pos here, valued]
    change (Fields.readAt w data rest _ >>= _) = _
    rw [further]
    rfl

end

theorem Scan.result_eq {α : Type} (scan : Scan α) : scan.result = outcome scan 0 := by
  unfold result outcome EStateM.run
  cases scan 0 <;> rfl

theorem Scan.lift_ok {α : Type} {x : Except Error α} {n n' : Nat} {value : α}
    (ran : lift x n = .ok value n') : x = .ok value := by
  unfold lift at ran
  cases x with
  | ok other =>
    cases ran
    rfl
  | error e => cases ran

namespace TableView

variable {t : Table}

theorem rowBytes_eq (view : TableView t) : view.rowBytes = view.widths.rowBytes t.columns :=
  view.widths.tableRowBytes_eq t

theorem decode_eq (view : TableView t) (rid : Nat) :
    view.decode rid =
      (Fields.readAt view.widths view.data t.columns
        (view.start + (rid - 1) * view.rowBytes)).map
        fun (fields, _) => { rid, offset := (rid - 1) * view.rowBytes, fields } := by
  unfold decode
  dsimp only
  rw [Row.readAt_eq]
  cases Fields.readAt view.widths view.data t.columns
    (view.start + (rid - 1) * view.rowBytes) <;> rfl

theorem get_eq (view : TableView t) (rid n : Nat) :
    view.get rid n =
      if rid = 0 ∨ view.count < rid then .error (.malformed (.rowRange rid t view.count)) n
      else match view.decode rid with
        | .ok row => .ok row (n + 1)
        | .error e => .error e (n + 1) := by
  unfold get
  by_cases outside : rid = 0 ∨ view.count < rid
  · rw [if_pos outside, if_pos outside]
    rfl
  · rw [if_neg outside, if_neg outside]
    change Scan.lift (view.decode rid) (n + 1) = _
    unfold Scan.lift
    cases view.decode rid <;> rfl

theorem get?_eq (view : TableView t) (rid : Nat) :
    view.get? rid = if rid = 0 ∨ view.count < rid then
      .error (.malformed (.rowRange rid t view.count)) else view.decode rid := by
  rw [get?, Scan.result_eq, outcome, get_eq]
  by_cases outside : rid = 0 ∨ view.count < rid
  · simp only [outside, if_true]
  · simp only [outside, if_false]
    cases view.decode rid <;> rfl

theorem get_of_get? {view : TableView t} {rid : Nat} {row : Row t} (got : view.get? rid = .ok row)
    (n : Nat) : view.get rid n = .ok row (n + 1) := by
  rw [get?_eq] at got
  rw [get_eq]
  by_cases outside : rid = 0 ∨ view.count < rid
  · rw [if_pos outside] at got
    cases got
  · rw [if_neg outside] at got
    rw [if_neg outside, got]

theorem get?_of_get {view : TableView t} {rid n n' : Nat} {row : Row t}
    (ran : view.get rid n = .ok row n') : view.get? rid = .ok row ∧ 0 < rid ∧ rid ≤ view.count := by
  rw [get_eq] at ran
  rw [get?_eq]
  by_cases outside : rid = 0 ∨ view.count < rid
  · rw [if_pos outside] at ran
    cases ran
  · rw [if_neg outside] at ran
    rw [if_neg outside]
    cases decoded : view.decode rid <;> rw [decoded] at ran <;> cases ran
    exact ⟨rfl, by omega⟩

def window (view : TableView t) (rid : Nat) : ByteArray :=
  view.data.extract (view.start + (rid - 1) * view.rowBytes)
    (view.start + (rid - 1) * view.rowBytes + view.rowBytes)

end TableView

def Row.ofWindow (w : Widths) (t : Table) (rid : Nat) (window : ByteArray) : Except Error (Row t) :=
  (Fields.readAt w window t.columns 0).map fun (fields, _) =>
    { rid, offset := (rid - 1) * w.tableRowBytes t, fields }

namespace TableView

structure ReadsWindow {t : Table} (view : TableView t) (rid : Nat) : Prop where
  size : (view.window rid).size = view.rowBytes
  row : view.get? rid = Row.ofWindow view.widths t rid (view.window rid)
  whole : ∀ row, view.get? rid = .ok row →
    Fields.readAt view.widths (view.window rid) t.columns 0 = .ok (row.fields, view.rowBytes)
  inside : view.get? rid ≠ .error .outOfBounds

variable {t : Table} {view : TableView t} {rid : Nat}

theorem row_within (first : 0 < rid) (last : rid ≤ view.count) :
    view.start + (rid - 1) * view.rowBytes + view.rowBytes ≤ view.start + view.bytes := by
  have rows : (rid - 1) * view.rowBytes + view.rowBytes = rid * view.rowBytes := by
    rw [← Nat.succ_mul, Nat.succ_eq_add_one, Nat.sub_add_cancel first]
  have below : rid * view.rowBytes ≤ view.bytes := Nat.mul_le_mul_right _ last
  omega

section
variable (within : view.start + view.bytes ≤ view.data.size) (first : 0 < rid)
  (last : rid ≤ view.count)

include within first last

@[simp] theorem size_window : (view.window rid).size = view.rowBytes := by
  have inside := Nat.le_trans (row_within first last) within
  rw [window, ByteArray.size_extract]
  omega

theorem get?_window : view.get? rid = Row.ofWindow view.widths t rid (view.window rid) := by
  have inside : ¬(rid = 0 ∨ view.count < rid) := by omega
  have all := Nat.le_trans (row_within first last) within
  rw [rowBytes_eq] at all
  rw [get?_eq, if_neg inside, decode_eq, rowBytes_eq, Fields.readAt_span view.widths all,
    Row.ofWindow, Widths.tableRowBytes_eq, window, rowBytes_eq]
  cases Fields.readAt view.widths _ t.columns 0 <;> rfl

theorem get?_plain (plain : ∀ c ∈ t.columns, c.kind.isCoded = false) :
    ∃ row, view.get? rid = .ok row := by
  have fits : 0 + view.widths.rowBytes t.columns ≤ (view.window rid).size := by
    rw [Nat.zero_add, ← rowBytes_eq]
    exact Nat.le_of_eq (size_window within first last).symm
  obtain ⟨fields, stop, read⟩ := Fields.readAt_plain plain fits
  rw [get?_window within first last, Row.ofWindow, read]
  exact ⟨_, rfl⟩

theorem readsWindow : view.ReadsWindow rid where
  size := size_window within first last
  row := get?_window within first last
  whole row read := by
    rw [get?_window within first last, Row.ofWindow] at read
    obtain ⟨⟨fields, stop⟩, found, rfl⟩ := except_map_ok.1 read
    have all := Fields.readAt_stop found
    rw [Nat.zero_add, ← view.rowBytes_eq] at all
    rw [found, all]
  inside := by
    rw [get?_window within first last, Row.ofWindow]
    cases read : Fields.readAt view.widths (view.window rid) t.columns 0 with
    | ok found => exact fun impossible => by cases impossible
    | error e =>
      rcases Fields.readAt_error read with ⟨_, _, _, _, refused⟩ | ⟨rfl, short⟩
      · obtain ⟨defect, rfl⟩ := refused.malformed
        exact fun impossible => by cases impossible
      · rw [size_window within first last, Nat.zero_add, rowBytes_eq] at short
        exact absurd short (Nat.lt_irrefl _)

end

end TableView

end CliMetadata
