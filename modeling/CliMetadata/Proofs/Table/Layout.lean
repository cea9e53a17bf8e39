import CliMetadata.Proofs.Table.Header
import CliMetadata.Proofs.Table.Rows

set_option autoImplicit false

namespace CliMetadata

def Tiles : Nat → List (Nat × Nat) → Nat → Prop
  | low, [], high => low = high
  | low, (start, stop) :: rest, high => start = low ∧ start ≤ stop ∧ Tiles stop rest high

def TableView.region {t : Table} (view : TableView t) : Nat × Nat :=
  (view.start, view.start + view.bytes)

namespace TableStream

def tablesStart (data : ByteArray) : Nat := headerBytes + 4 * bitCount (mask data)

def extent (data : ByteArray) (t : Table) : Nat :=
  (count? data t).getD 0 * (widthsOf data).tableRowBytes t

def stop (data : ByteArray) : Nat :=
  tablesStart data + ((namedTables data).map (extent data)).sum

/-- The data hold all that the header promises. -/
structure Fits (data : ByteArray) : Prop where
  header : headerBytes ≤ data.size
  known : ∀ bit, Table.count ≤ bit → (mask data).testBit bit = false
  counts : tablesStart data ≤ data.size
  tables : stop data ≤ data.size

def region? (s : TableStream) (t : Table) : Option (Nat × Nat) := (s.view? t).map (·.region)

def regions (s : TableStream) : List (Nat × Nat) := s.present.filterMap s.region?

/-- The stream is laid out as the header of the data says. -/
structure LaidOut (data : ByteArray) (s : TableStream) : Prop where
  bytes : s.data = data
  widths : s.widths = widthsOf data
  counts : ∀ t, s.rows t = (count? data t).getD 0
  ascending : s.present.Pairwise fun t u => t.number < u.number
  tiles : Tiles (tablesStart data) s.regions (stop data)
  -- What stands behind the tables does not matter.
  beyond : ∀ other : ByteArray, other.extract 0 (stop data) = data.extract 0 (stop data) →
    read other = .ok { s with data := other } ∧
      ∀ t rid, (({ s with data := other } : TableStream).view? t).map (·.get? rid) =
        (s.view? t).map (·.get? rid)
  rows : ∀ (t : Table) (rid : Nat), 0 < rid → rid ≤ s.rows t →
    ∃ view, s.view? t = some view ∧ view.ReadsWindow rid

section
variable (extent : Table → Nat)

def startsFrom : List Table → (offset : Nat) → List Nat
  | [], _ => []
  | t :: rest, offset => offset :: startsFrom rest (offset + extent t)

theorem startsFrom_at (front : List Table) (t : Table) (rest : List Table) (offset : Nat) :
    (startsFrom extent (front ++ t :: rest) offset)[front.length]? =
      some (offset + (front.map extent).sum) := by
  induction front generalizing offset with
  | nil => rfl
  | cons first front ih =>
    rw [List.cons_append, startsFrom, List.length_cons, List.getElem?_cons_succ, ih, List.map_cons,
      List.sum_cons, Nat.add_assoc]

end

section
variable {data : ByteArray} {w : Widths}

theorem place_cons {t : Table} {offset : Nat} (rest : List Table)
    (inside : w.rows t = 0 ∨ offset + w.rows t * w.tableRowBytes t ≤ data.size) :
    place data w (t :: rest) offset =
      (place data w rest (offset + w.rows t * w.tableRowBytes t)).map (offset :: ·) := by
  rw [place]
  by_cases empty : w.rows t = 0
  · simp only [empty, if_true, Nat.zero_mul, Nat.add_zero]
    cases place data w rest offset <;> rfl
  · have fits : ¬data.size < offset + w.rows t * w.tableRowBytes t := by omega
    have start : ¬data.size < offset := by omega
    simp only [empty, start, fits, if_false]
    cases place data w rest (offset + w.rows t * w.tableRowBytes t) <;> rfl

theorem place_overrun {t : Table} {offset : Nat} (rest : List Table) (some : w.rows t ≠ 0)
    (beyond : data.size < offset + w.rows t * w.tableRowBytes t) :
    ∃ e, place data w (t :: rest) offset = .error e := by
  rw [place]
  by_cases start : data.size < offset
  · exact ⟨_, by simp only [some, start, if_true, if_false]; rfl⟩
  · exact ⟨_, by simp only [some, start, beyond, if_true, if_false]; rfl⟩

theorem place_eq {tables : List Table} {offset : Nat}
    (fits : offset + (tables.map fun t => w.rows t * w.tableRowBytes t).sum ≤ data.size) :
    place data w tables offset =
      .ok (startsFrom (fun t => w.rows t * w.tableRowBytes t) tables offset) := by
  induction tables generalizing offset with
  | nil => rfl
  | cons t rest ih =>
    rw [List.map_cons, List.sum_cons, ← Nat.add_assoc] at fits
    rw [place_cons rest (.inr (by omega)), ih fits]
    rfl

theorem tables_fit {tables : List Table} {offset : Nat} {starts : List Nat}
    (inside : offset ≤ data.size) (placed : place data w tables offset = .ok starts) :
    offset + (tables.map fun t => w.rows t * w.tableRowBytes t).sum ≤ data.size := by
  induction tables generalizing offset starts with
  | nil => simpa using inside
  | cons t rest ih =>
    rw [List.map_cons, List.sum_cons, ← Nat.add_assoc]
    by_cases overrun : w.rows t ≠ 0 ∧ data.size < offset + w.rows t * w.tableRowBytes t
    · obtain ⟨e, failed⟩ := place_overrun rest overrun.1 overrun.2
      rw [failed] at placed
      cases placed
    · have fits : w.rows t = 0 ∨ offset + w.rows t * w.tableRowBytes t ≤ data.size := by omega
      rw [place_cons rest fits] at placed
      obtain ⟨others, further, _⟩ := except_map_ok.1 placed
      refine ih ?_ further
      rcases fits with empty | fits
      · rwa [empty, Nat.zero_mul]
      · exact fits

end

def laidOut (data : ByteArray) : TableStream where
  data := data
  majorVersion := Bytes.number data 4 1
  minorVersion := Bytes.number data 5 1
  heapSizes := Bytes.number data 6 1
  valid := (mask data).toUInt64
  sortedMask := (Bytes.number data 16 8).toUInt64
  widths := widthsOf data
  starts := (startsFrom (extent data) Table.all (tablesStart data)).toArray

section
variable {data : ByteArray}

@[simp] theorem rows_widthsOf (data : ByteArray) (t : Table) :
    (widthsOf data).rows t = (count? data t).getD 0 := by
  rw [Widths.rows, rows?_widthsOf]

theorem extent_eq (data : ByteArray) :
    extent data = fun t => (widthsOf data).rows t * (widthsOf data).tableRowBytes t := by
  funext t
  rw [extent, rows_widthsOf]

theorem stop_eq (data : ByteArray) :
    stop data = tablesStart data + (Table.all.map (extent data)).sum := by
  have named (tables : List Table) :
      ((tables.filter fun t => (mask data).testBit t.number).map (extent data)).sum =
        (tables.map (extent data)).sum := by
    induction tables with
    | nil => rfl
    | cons t rest ih =>
      by_cases bit : (mask data).testBit t.number
      · simp [bit, ih]
      · have empty : extent data t = 0 := by simp [extent, count?, bit]
        simp [bit, ih, empty]
  rw [stop, namedTables, named]

theorem fits_of_mask (header : headerBytes ≤ data.size) (known : mask data < 2 ^ Table.count)
    (counts : tablesStart data ≤ data.size) (tables : stop data ≤ data.size) : Fits data :=
  ⟨header, fun _ beyond => Nat.testBit_lt_two_pow
    (Nat.lt_of_lt_of_le known (Nat.pow_le_pow_right (by decide) beyond)), counts, tables⟩

theorem read_known (header : headerBytes ≤ data.size)
    (known : ∀ bit, Table.count ≤ bit → (mask data).testBit bit = false) :
    read data = (readCounts data (namedTables data) headerBytes).bind fun counts =>
      let widths := Widths.ofRows counts (flag (Bytes.number data 6 1) 0)
        (flag (Bytes.number data 6 1) 1) (flag (Bytes.number data 6 1) 2)
      (place data widths Table.all (tablesStart data)).map fun starts =>
        { laidOut data with widths, starts := starts.toArray } := by
  have short : ¬data.size < headerBytes := Nat.not_lt.2 header
  have within := known_iff.2 known
  have named := tablesOf_mask data
  have start : headerBytes + 4 * (namedTables data).length = tablesStart data := by
    rw [length_namedTables known, tablesStart]
  rw [mask] at within named
  unfold read
  simp only [short, within, named, start, if_false, Bool.false_eq_true]
  cases readCounts data (namedTables data) headerBytes with
  | error e => rfl
  | ok counts =>
    cases place data (Widths.ofRows counts (flag (Bytes.number data 6 1) 0)
      (flag (Bytes.number data 6 1) 1) (flag (Bytes.number data 6 1) 2)) Table.all
      (tablesStart data) <;> rfl

-- Once the row counts have been read, the rest is finding a place for every table.
theorem read_counted (header : headerBytes ≤ data.size)
    (known : ∀ bit, Table.count ≤ bit → (mask data).testBit bit = false)
    (counts : tablesStart data ≤ data.size) :
    read data = (place data (widthsOf data) Table.all (tablesStart data)).map fun starts =>
      { laidOut data with starts := starts.toArray } := by
  rw [tablesStart, ← length_namedTables known] at counts
  have rowCounts := @readCounts_eq data [] (namedTables data) (nodup_namedTables data) counts
  rw [List.length_nil, Nat.mul_zero, Nat.add_zero, List.nil_append] at rowCounts
  rw [read_known header known, rowCounts]
  simp only [Except.bind, ofRows_named]
  rfl

theorem read_eq (fits : Fits data) : read data = .ok (laidOut data) := by
  have tables := fits.tables
  rw [stop_eq, extent_eq] at tables
  rw [read_counted fits.header fits.known fits.counts, place_eq tables, ← extent_eq]
  rfl

theorem fits_of_read {s : TableStream} (done : read data = .ok s) : Fits data := by
  have header : headerBytes ≤ data.size := by
    by_contra short
    rw [read, if_pos (Nat.lt_of_not_le short)] at done
    cases done
  have known : ∀ bit, Table.count ≤ bit → (mask data).testBit bit = false := by
    rw [← known_iff, ← Bool.not_eq_true]
    intro unknown
    rw [mask] at unknown
    rw [read, if_neg (Nat.not_lt.2 header)] at done
    simp only [unknown, if_true] at done
    cases done
  have counts : tablesStart data ≤ data.size := by
    rw [tablesStart, ← length_namedTables known]
    cases counted : readCounts data (namedTables data) headerBytes with
    | ok counts => exact counts_fit header counted
    | error e =>
      rw [read_known header known, counted] at done
      cases done
  refine ⟨header, known, counts, ?_⟩
  rw [stop_eq, extent_eq]
  cases placed : place data (widthsOf data) Table.all (tablesStart data) with
  | ok starts => exact tables_fit counts placed
  | error e =>
    rw [read_counted header known counts, placed] at done
    cases done

theorem number_of_split {front rest : List Table} {t : Table}
    (whole : Table.all = front ++ t :: rest) : t.number = front.length := by
  apply Table.number_of_ofNumber?
  rw [Table.ofNumber?, whole, List.getElem?_append_right (Nat.le_refl _), Nat.sub_self]
  rfl

theorem start_laidOut (data : ByteArray) {front rest : List Table} {t : Table}
    (whole : Table.all = front ++ t :: rest) :
    (laidOut data).starts.getD t.number 0 = tablesStart data + (front.map (extent data)).sum := by
  have found := startsFrom_at (extent data) front t rest (tablesStart data)
  rw [← whole, ← number_of_split whole] at found
  simp [laidOut, Array.getD_eq_getD_getElem?, found]

@[simp] theorem has_laidOut (data : ByteArray) (t : Table) :
    (laidOut data).has t = ((count? data t).getD 0 != 0) := by
  rw [has, rows, laidOut, rows_widthsOf]

theorem view?_laidOut (data : ByteArray) {t : Table} (filled : (laidOut data).has t = true) :
    ∃ view, (laidOut data).view? t = some view ∧ view.data = data ∧
      view.start = (laidOut data).starts.getD t.number 0 ∧ view.count = (count? data t).getD 0 ∧
      view.widths = widthsOf data ∧ view.bytes = extent data t := by
  have count : (laidOut data).rows t = (count? data t).getD 0 := rows_widthsOf data t
  refine ⟨_, if_pos filled, rfl, rfl, count, rfl, ?_⟩
  rw [TableView.bytes, extent, ← count]
  rfl

theorem tiles_laidOut (data : ByteArray) {front rest : List Table}
    (whole : Table.all = front ++ rest) :
    Tiles (tablesStart data + (front.map (extent data)).sum)
      ((rest.filter (laidOut data).has).filterMap (laidOut data).region?) (stop data) := by
  induction rest generalizing front with
  | nil =>
    rw [stop_eq, whole, List.append_nil]
    rfl
  | cons t rest ih =>
    have further := @ih (front ++ [t]) (by simp [whole])
    rw [List.map_append, List.sum_append, List.map_singleton, List.sum_singleton,
      ← Nat.add_assoc] at further
    by_cases filled : (laidOut data).has t
    · obtain ⟨view, found, _, start, _, _, bytes⟩ := view?_laidOut data filled
      rw [start_laidOut data whole] at start
      have region : (laidOut data).region? t =
          some (tablesStart data + (front.map (extent data)).sum,
            tablesStart data + (front.map (extent data)).sum + extent data t) := by
        rw [region?, found, Option.map_some, TableView.region, start, bytes]
      rw [List.filter_cons_of_pos filled, List.filterMap_cons_some region]
      exact ⟨rfl, Nat.le_add_right _ _, further⟩
    · have empty : extent data t = 0 := by
        rw [has_laidOut, bne_iff_ne, ne_eq, Decidable.not_not] at filled
        rw [extent, filled, Nat.zero_mul]
      rw [List.filter_cons_of_neg filled]
      rwa [empty, Nat.add_zero] at further

theorem region_within (data : ByteArray) {t : Table} {view : TableView t}
    (filled : (laidOut data).has t = true) (found : (laidOut data).view? t = some view) :
    view.start + view.bytes ≤ stop data := by
  obtain ⟨front, rest, whole⟩ := List.append_of_mem (Table.mem_all t)
  obtain ⟨same, found', _, start, _, _, bytes⟩ := view?_laidOut data filled
  cases found.symm.trans found'
  rw [start, start_laidOut data whole, bytes, stop_eq, whole, List.map_append, List.sum_append,
    List.map_cons, List.sum_cons]
  omega

theorem view?_fits (fits : Fits data) {t : Table} {rid : Nat} (first : 0 < rid)
    (last : rid ≤ (laidOut data).rows t) : ∃ view, (laidOut data).view? t = some view ∧
      view.start + view.bytes ≤ view.data.size ∧ rid ≤ view.count := by
  have filled : (laidOut data).has t = true := by
    rw [has, bne_iff_ne]
    omega
  obtain ⟨view, found, own, _, count, _⟩ := view?_laidOut data filled
  refine ⟨view, found, ?_, ?_⟩
  · rw [own]
    exact Nat.le_trans (region_within data filled found) fits.tables
  · rwa [count, ← rows_widthsOf]

end

section
variable {a b : ByteArray} {stop : Nat} (same : a.extract 0 stop = b.extract 0 stop)

include same

theorem size_agree (inside : stop ≤ a.size) : stop ≤ b.size := by
  have sizes := congrArg ByteArray.size same
  rw [ByteArray.size_extract, ByteArray.size_extract] at sizes
  omega

theorem number_agree (inside : stop ≤ a.size) {offset width : Nat} (fits : offset + width ≤ stop) :
    Bytes.number a offset width = Bytes.number b offset width := by
  have first := @Bytes.number_extract a 0 stop offset width (by omega) inside
  have second := @Bytes.number_extract b 0 stop offset width (by omega) (size_agree same inside)
  rw [Nat.zero_add] at first second
  rw [← first, same, second]

theorem extract_agree {i j : Nat} (fits : j ≤ stop) : a.extract i j = b.extract i j := by
  have inner := congrArg (·.extract i j) same
  simp only [ByteArray.extract_extract, Nat.zero_add, Nat.min_eq_left fits] at inner
  exact inner

end

theorem get?_agree {t : Table} (view : TableView t) {other : ByteArray} {stop : Nat}
    (same : view.data.extract 0 stop = other.extract 0 stop) (inside : stop ≤ view.data.size)
    (within : view.start + view.bytes ≤ stop) (rid : Nat) :
    ({ view with data := other } : TableView t).get? rid = view.get? rid := by
  by_cases outside : rid = 0 ∨ view.count < rid
  · rw [TableView.get?_eq, TableView.get?_eq, if_pos outside, if_pos outside]
  · have first : 0 < rid := by omega
    have last : rid ≤ view.count := by omega
    have row := Nat.le_trans (TableView.row_within first last) within
    have moved := @TableView.get?_window t { view with data := other } rid
      (Nat.le_trans within (size_agree same inside)) first last
    rw [moved, TableView.get?_window (Nat.le_trans within inside) first last, TableView.window,
      TableView.window, extract_agree same row]
    rfl

section
variable {data other : ByteArray} (fits : Fits data)
  (same : data.extract 0 (stop data) = other.extract 0 (stop data))

include fits same

theorem header_agree {offset width : Nat} (header : offset + width ≤ tablesStart data) :
    Bytes.number other offset width = Bytes.number data offset width :=
  (number_agree same fits.tables (Nat.le_trans header (Nat.le_add_right _ _))).symm

theorem mask_agree : mask other = mask data :=
  header_agree fits same (by rw [tablesStart, headerBytes]; omega)

theorem count?_agree : count? other = count? data := by
  have named : namedTables other = namedTables data := by
    simp only [namedTables, mask_agree fits same]
  funext t
  rw [count?, count?, named, mask_agree fits same]
  by_cases bit : (mask data).testBit t.number
  · have member : t ∈ namedTables data := by simp [namedTables, Table.mem_all, bit]
    have position := List.idxOf_lt_length_of_mem member
    rw [length_namedTables fits.known] at position
    have header : headerBytes + 4 * (namedTables data).idxOf t + 4 ≤ tablesStart data := by
      rw [tablesStart]
      omega
    rw [if_pos bit, if_pos bit, header_agree fits same header]
  · rw [if_neg bit, if_neg bit]

theorem widthsOf_agree : widthsOf other = widthsOf data := by
  have sizes : Bytes.number other 6 1 = Bytes.number data 6 1 :=
    header_agree fits same (by rw [tablesStart, headerBytes]; omega)
  rw [widthsOf, widthsOf, count?_agree fits same, sizes]

theorem extent_agree : extent other = extent data := by
  funext t
  rw [extent, extent, count?_agree fits same, widthsOf_agree fits same]

theorem tablesStart_agree : tablesStart other = tablesStart data := by
  rw [tablesStart, tablesStart, mask_agree fits same]

theorem laidOut_agree : laidOut other = { laidOut data with data := other } := by
  have field {offset width : Nat} (inside : offset + width ≤ headerBytes) :
      Bytes.number other offset width = Bytes.number data offset width :=
    header_agree fits same (Nat.le_trans inside (Nat.le_add_right _ _))
  rw [laidOut, laidOut, mask_agree fits same, widthsOf_agree fits same, extent_agree fits same,
    tablesStart_agree fits same, field (by decide), field (by decide), field (by decide),
    field (by decide)]

theorem fits_agree : Fits other := by
  have size := size_agree same fits.tables
  have start := tablesStart_agree fits same
  have stops : stop other = stop data := by
    rw [stop_eq, stop_eq, start, extent_agree fits same]
  have before : tablesStart data ≤ stop data := Nat.le_add_right _ _
  have header : headerBytes ≤ tablesStart data := Nat.le_add_right _ _
  refine ⟨by omega, ?_, by omega, by omega⟩
  rw [mask_agree fits same]
  exact fits.known

theorem view?_agree (t : Table) (rid : Nat) :
    (({ laidOut data with data := other } : TableStream).view? t).map (·.get? rid) =
      ((laidOut data).view? t).map (·.get? rid) := by
  by_cases filled : (laidOut data).has t
  · obtain ⟨view, found, own, _⟩ := view?_laidOut data filled
    have within := region_within data filled found
    have moved : ({ laidOut data with data := other } : TableStream).view? t =
        some { view with data := other } := by
      unfold view? at found ⊢
      rw [if_pos filled] at found
      cases found
      exact if_pos filled
    subst own
    rw [moved, found, Option.map_some, Option.map_some, get?_agree view same fits.tables within]
  · unfold view?
    rw [if_neg filled, if_neg (show ¬({ laidOut data with data := other } : TableStream).has t from
      filled)]

end

theorem laidOut_of_fits {data : ByteArray} (fits : Fits data) : LaidOut data (laidOut data) where
  bytes := rfl
  widths := rfl
  counts := rows_widthsOf data
  ascending := by
    have all : Table.all.Pairwise fun t u => t.number < u.number := by decide
    exact all.filter _
  tiles := @tiles_laidOut data [] Table.all rfl
  beyond other same := by
    rw [← laidOut_agree fits same.symm]
    exact ⟨read_eq (fits_agree fits same.symm), fun t rid => by
      rw [laidOut_agree fits same.symm]
      exact view?_agree fits same.symm t rid⟩
  rows t rid first last := by
    obtain ⟨view, found, within, last⟩ := view?_fits fits first last
    exact ⟨view, found, TableView.readsWindow within first last⟩

/-- A stream can be read exactly if the data hold what its header promises, and then the tables lie
where the header says. -/
theorem read_layout (data : ByteArray) :
    ((∃ s, read data = .ok s) ↔ Fits data) ∧ ∀ s, read data = .ok s → LaidOut data s := by
  refine ⟨⟨fun ⟨s, done⟩ => fits_of_read done, fun fits => ⟨_, read_eq fits⟩⟩, ?_⟩
  intro s done
  have fits := fits_of_read done
  rw [read_eq fits] at done
  cases done
  exact laidOut_of_fits fits

def twoTables : ByteArray :=
  ⟨#[0, 0, 0, 0, 2, 0, 0, 1, 1, 0, 0, 4, 0, 0, 0, 0, 0, 0, 0, 0, 0, 0, 0, 0,
    1, 0, 0, 0, 2, 0, 0, 0, 0, 0, 1, 0, 1, 0, 0, 0, 0, 0, 9, 0, 14, 0, 255]⟩

theorem read_layout_twoTables : ∃ s, read twoTables = .ok s ∧
    LaidOut twoTables s ∧ s.regions = [(32, 42), (42, 46)] ∧ stop twoTables = 46 := by
  have fits : Fits twoTables := by
    refine ⟨by decide, fun bit beyond => ?_, by decide, by decide⟩
    have small : mask twoTables < 2 ^ Table.count := by decide
    exact Nat.testBit_lt_two_pow
      (Nat.lt_of_lt_of_le small (Nat.pow_le_pow_right (by decide) beyond))
  obtain ⟨readable, places⟩ := read_layout twoTables
  obtain ⟨s, done⟩ := readable.2 fits
  refine ⟨s, done, places s done, ?_, by decide⟩
  rw [read_eq fits] at done
  cases done
  decide +kernel

end TableStream

end CliMetadata
