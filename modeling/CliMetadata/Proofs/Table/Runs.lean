import CliMetadata.Proofs.Table.Bisection
import CliMetadata.Proofs.Table.Layout
import CliMetadata.Table.Children

set_option autoImplicit false

namespace CliMetadata

theorem mapM_runs {ε σ α β : Type} {f : α → EStateM ε σ β} {R : α → β → Prop} {values : List α}
    (each : ∀ value ∈ values, ∀ s, ∃ result s', f value s = .ok result s' ∧ R value result)
    (s : σ) : ∃ results s', values.mapM f s = .ok results s' ∧ List.Forall₂ R values results := by
  induction values generalizing s with
  | nil => exact ⟨[], s, rfl, .nil⟩
  | cons value rest ih =>
    obtain ⟨result, between, ran, related⟩ := each value List.mem_cons_self s
    obtain ⟨results, s', further, others⟩ := ih (fun v member => each v (.tail _ member)) between
    refine ⟨result :: results, s', ?_, .cons related others⟩
    rw [List.mapM_cons, bind_after_ok ran, bind_after_ok further]
    rfl

namespace TableStream

/-- The starts rise from one on, and none lies beyond the position behind the last row. -/
structure InOrder (starts : List Nat) (rows : Nat) : Prop where
  ascending : starts.Pairwise (· ≤ ·)
  first : ∀ start ∈ starts.head?, 1 ≤ start
  last : ∀ start ∈ starts.getLast?, start ≤ rows + 1

def stopAfter (starts : List Nat) (rows i : Nat) : Nat := starts[i + 1]?.getD (rows + 1)

section
variable {starts : List Nat} {rows : Nat}

theorem stopAfter_next {i : Nat} (more : i + 1 < starts.length) :
    stopAfter starts rows i = starts[i + 1] := by
  simp [stopAfter, more]

theorem stopAfter_last {i : Nat} (last : starts.length ≤ i + 1) :
    stopAfter starts rows i = rows + 1 := by
  simp [stopAfter, last]

theorem InOrder.le (ordered : InOrder starts rows) {i j : Nat} (le : i ≤ j)
    (inside : j < starts.length) : starts[i] ≤ starts[j] := by
  rcases Nat.eq_or_lt_of_le le with rfl | less
  · exact Nat.le_refl _
  · exact List.pairwise_iff_getElem.1 ordered.ascending i j (by omega) inside less

theorem InOrder.pos (ordered : InOrder starts rows) {i : Nat} (inside : i < starts.length) :
    0 < starts[i] := by
  have some : 0 < starts.length := by omega
  have first := ordered.first starts[0] (by simp [List.head?_eq_getElem?, some])
  exact Nat.lt_of_lt_of_le first (ordered.le (Nat.zero_le i) inside)

theorem InOrder.le_behind (ordered : InOrder starts rows) {i : Nat} (inside : i < starts.length) :
    starts[i] ≤ rows + 1 := by
  have end' : starts.length - 1 < starts.length := by omega
  have last := ordered.last starts[starts.length - 1] (by simp [List.getLast?_eq_getElem?, end'])
  exact Nat.le_trans (ordered.le (by omega) end') last

theorem InOrder.le_stopAfter (ordered : InOrder starts rows) {i : Nat}
    (inside : i < starts.length) :
    starts[i] ≤ stopAfter starts rows i ∧ stopAfter starts rows i ≤ rows + 1 := by
  by_cases more : i + 1 < starts.length
  · rw [stopAfter_next more]
    exact ⟨ordered.le (Nat.le_succ i) more, ordered.le_behind more⟩
  · rw [stopAfter_last (by omega)]
    exact ⟨ordered.le_behind inside, Nat.le_refl _⟩

theorem inOrder_of_runs (runs : ∀ i (inside : i < starts.length), starts[i] ≠ 0 ∧
    starts[i] ≤ stopAfter starts rows i ∧ stopAfter starts rows i ≤ rows + 1) :
    InOrder starts rows where
  ascending := by
    refine List.isChain_iff_pairwise.1 (List.isChain_iff_getElem.2 fun i more => ?_)
    rw [← @stopAfter_next starts rows i more]
    exact (runs i (by omega)).2.1
  first start member := by
    rw [List.head?_eq_getElem?, Option.mem_def] at member
    obtain ⟨inside, rfl⟩ := List.getElem?_eq_some_iff.1 member
    exact Nat.one_le_iff_ne_zero.2 (runs 0 inside).1
  last start member := by
    rw [List.getLast?_eq_getElem?, Option.mem_def] at member
    obtain ⟨inside, rfl⟩ := List.getElem?_eq_some_iff.1 member
    obtain ⟨_, low, high⟩ := runs _ inside
    exact Nat.le_trans low high

theorem covered {i position : Nat} (inside : i < starts.length) (before : starts[i] ≤ position)
    (behind : position ≤ rows) : ∃ (j : Nat) (within : j < starts.length),
      starts[j] ≤ position ∧ position < stopAfter starts rows j := by
  induction left : starts.length - i generalizing i with
  | zero => omega
  | succ left ih =>
    by_cases here : position < stopAfter starts rows i
    · exact ⟨i, inside, before, here⟩
    · by_cases more : i + 1 < starts.length
      · rw [stopAfter_next more] at here
        exact ih more (Nat.le_of_not_lt here) (by omega)
      · rw [stopAfter_last (by omega)] at here
        omega

theorem InOrder.apart (ordered : InOrder starts rows) {i j : Nat} (less : i < j)
    (inside : j < starts.length) : stopAfter starts rows i ≤ starts[j] := by
  rw [stopAfter_next (by omega)]
  exact ordered.le less inside

theorem InOrder.unique (ordered : InOrder starts rows) {i j position : Nat}
    (first : i < starts.length) (second : j < starts.length) (inFirst : starts[i] ≤ position)
    (stopsFirst : position < stopAfter starts rows i) (inSecond : starts[j] ≤ position)
    (stopsSecond : position < stopAfter starts rows j) : i = j := by
  rcases Nat.lt_trichotomy i j with less | same | more
  · have := ordered.apart less second
    omega
  · exact same
  · have := ordered.apart more first
    omega

end

def storedStart (list : ChildList) (row : Row list.parent) : Nat :=
  numberIn list.parent.columns row.fields list.startColumn

def run (s : TableStream) (list : ChildList) (parent : Nat) : Except Error (Nat × Nat) :=
  (s.childRange list parent).result

/-- What stands at a position of a run: the row that the pointer table has there, or, where there
is none, the row with this number. -/
def ChildAt (s : TableStream) (list : ChildList) (position child : Nat) : Prop :=
  if s.has list.pointer then
    ∃ view row, s.view? list.pointer = some view ∧ view.get? position = .ok row ∧
      child = numberIn list.pointer.columns row.fields 0
  else child = position

structure Divided (s : TableStream) (list : ChildList) : Prop where
  within : ∀ parent start stop, s.run list parent = .ok (start, stop) →
    1 ≤ start ∧ start ≤ stop ∧ stop ≤ s.runRows list + 1
  abut : ∀ parent, 0 < parent → parent < s.rows list.parent → ∃ start middle stop,
    s.run list parent = .ok (start, middle) ∧ s.run list (parent + 1) = .ok (middle, stop)
  last : ∃ start, s.run list (s.rows list.parent) = .ok (start, s.runRows list + 1)
  once : ∀ first stop position, s.run list 1 = .ok (first, stop) → first ≤ position →
    position ≤ s.runRows list → ∃! parent, ∃ start stop, s.run list parent = .ok (start, stop) ∧
      start ≤ position ∧ position < stop

/-- The parent rows with these starts have runs exactly if the starts are in order, and then the
runs divide the positions; the children of a parent are what stands in its run. -/
structure Partition (s : TableStream) (list : ChildList) (starts : List Nat) : Prop where
  runs : (∀ parent, 0 < parent → parent ≤ s.rows list.parent → ∃ run, s.run list parent = .ok run) ↔
    InOrder starts (s.runRows list)
  divided : InOrder starts (s.runRows list) → s.Divided list
  children : ∀ parent start stop, s.run list parent = .ok (start, stop) → ∃ children,
    (s.children list parent).result = .ok children ∧
      List.Forall₂ (s.ChildAt list) (List.range' start (stop - start)) children

section
variable {s : TableStream} {list : ChildList}

theorem known_of_run {parent : Nat} {span : Nat × Nat} (ran : s.run list parent = .ok span) :
    0 < parent ∧ parent ≤ s.rows list.parent := by
  by_contra unknown
  have outside : parent = 0 ∨ s.rows list.parent < parent := by omega
  rw [run, Scan.result_eq, childRange] at ran
  simp only [outside, if_true] at ran
  cases ran

structure Stores (s : TableStream) (list : ChildList) (starts : List Nat) : Prop where
  count : starts.length = s.rows list.parent
  reads : ∀ (i : Nat) (inside : i < starts.length) (n : Nat),
    s.runStart list (i + 1) n = .ok starts[i] (n + 1)

theorem rows_ne_zero_of_view? {t : Table} {view : TableView t} (found : s.view? t = some view) :
    s.rows t ≠ 0 := by
  unfold view? at found
  split at found
  next filled => simpa [has] using filled
  next => cases found

theorem stores_of_rows {view : TableView list.parent} {parents : List (Row list.parent)}
    (found : s.view? list.parent = some view) (read : view.rows = .ok parents) :
    s.Stores list (parents.map (storedStart list)) := by
  have lists := TableView.lists_of_rows read
  constructor
  · have counted : view.count = s.rows list.parent := by
      unfold view? at found
      split at found <;> cases found
      rfl
    rw [List.length_map, lists.length, counted]
  · intro i inside n
    have within : i < parents.length := by simpa using inside
    unfold runStart
    simp only [found, List.getElem_map]
    exact bind_after_ok (lists.get within n) _

section
variable {starts : List Nat} (stores : s.Stores list starts)

include stores

theorem Stores.run {i : Nat} (inside : i < starts.length) :
    s.run list (i + 1) =
      if starts[i] = 0 ∨ stopAfter starts (s.runRows list) i < starts[i] ∨
          s.runRows list + 1 < stopAfter starts (s.runRows list) i then
        .error (.malformed (.childSpan list (i + 1) starts[i]
          (stopAfter starts (s.runRows list) i) (s.runRows list)))
      else .ok (starts[i], stopAfter starts (s.runRows list) i) := by
  have count := stores.count
  have known : ¬(i + 1 = 0 ∨ s.rows list.parent < i + 1) := by omega
  rw [TableStream.run, Scan.result_eq, childRange]
  simp only [known, if_false]
  rw [outcome_congr (bind_after_ok (stores.reads i inside 0) _)]
  by_cases more : i + 1 < s.rows list.parent
  · simp only [more, if_true]
    rw [stopAfter_next (by omega),
      outcome_congr (bind_after_ok (stores.reads (i + 1) (by omega) 1) _)]
    split <;> rfl
  · simp only [more, if_false]
    rw [stopAfter_last (by omega), pure_bind]
    split <;> rfl

theorem Stores.run_ok_iff {i : Nat} (inside : i < starts.length) {span : Nat × Nat} :
    s.run list (i + 1) = .ok span ↔
      (starts[i] ≠ 0 ∧ starts[i] ≤ stopAfter starts (s.runRows list) i ∧
        stopAfter starts (s.runRows list) i ≤ s.runRows list + 1) ∧
      span = (starts[i], stopAfter starts (s.runRows list) i) := by
  rw [stores.run inside]
  split
  next wrong =>
    have never : ¬(starts[i] ≠ 0 ∧ starts[i] ≤ stopAfter starts (s.runRows list) i ∧
        stopAfter starts (s.runRows list) i ≤ s.runRows list + 1) := by omega
    simp [never]
  next right =>
    have proper : starts[i] ≠ 0 ∧ starts[i] ≤ stopAfter starts (s.runRows list) i ∧
        stopAfter starts (s.runRows list) i ≤ s.runRows list + 1 := by omega
    simp [proper, eq_comm]

theorem Stores.of_run {parent : Nat} {span : Nat × Nat} (ran : s.run list parent = .ok span) :
    ∃ (i : Nat) (inside : i < starts.length), parent = i + 1 ∧
      (starts[i] ≠ 0 ∧ starts[i] ≤ stopAfter starts (s.runRows list) i ∧
        stopAfter starts (s.runRows list) i ≤ s.runRows list + 1) ∧
      span = (starts[i], stopAfter starts (s.runRows list) i) := by
  obtain ⟨first, last⟩ := known_of_run ran
  rw [← stores.count] at last
  obtain ⟨i, rfl⟩ : ∃ i, parent = i + 1 := ⟨parent - 1, by omega⟩
  exact ⟨i, last, rfl, (stores.run_ok_iff last).1 ran⟩

theorem Stores.runs_iff :
    (∀ parent, 0 < parent → parent ≤ s.rows list.parent → ∃ span, s.run list parent = .ok span) ↔
      InOrder starts (s.runRows list) := by
  constructor
  · intro all
    refine inOrder_of_runs fun i inside => ?_
    have known : i + 1 ≤ s.rows list.parent := by rw [← stores.count]; exact inside
    obtain ⟨span, ran⟩ := all (i + 1) (Nat.succ_pos i) known
    exact ((stores.run_ok_iff inside).1 ran).1
  · intro ordered parent first last
    rw [← stores.count] at last
    obtain ⟨i, rfl⟩ : ∃ i, parent = i + 1 := ⟨parent - 1, by omega⟩
    exact ⟨_, (stores.run_ok_iff last).2
      ⟨⟨Nat.ne_of_gt (ordered.pos last), ordered.le_stopAfter last⟩, rfl⟩⟩

theorem Stores.run_ordered (ordered : InOrder starts (s.runRows list)) {i : Nat}
    (inside : i < starts.length) :
    s.run list (i + 1) = .ok (starts[i], stopAfter starts (s.runRows list) i) :=
  (stores.run_ok_iff inside).2
    ⟨⟨Nat.ne_of_gt (ordered.pos inside), ordered.le_stopAfter inside⟩, rfl⟩

theorem Stores.divided (ordered : InOrder starts (s.runRows list)) (some : starts ≠ []) :
    s.Divided list := by
  have positive := List.length_pos_iff.2 some
  constructor
  · intro parent start stop ran
    obtain ⟨i, inside, rfl, proper, same⟩ := stores.of_run ran
    cases same
    exact ⟨Nat.one_le_iff_ne_zero.2 proper.1, proper.2⟩
  · intro parent first more
    rw [← stores.count] at more
    obtain ⟨i, rfl⟩ : ∃ i, parent = i + 1 := ⟨parent - 1, by omega⟩
    have before := stores.run_ordered ordered (i := i) (by omega)
    rw [stopAfter_next more] at before
    exact ⟨_, _, _, before, stores.run_ordered ordered more⟩
  · have last := stores.run_ordered ordered (i := starts.length - 1) (by omega)
    rw [stopAfter_last (by omega), Nat.sub_add_cancel positive] at last
    rw [← stores.count]
    exact ⟨_, last⟩
  · intro first stop position ran low high
    rw [stores.run_ordered ordered positive] at ran
    cases ran
    obtain ⟨i, inside, here, before⟩ := covered positive low high
    refine ⟨i + 1, ⟨_, _, stores.run_ordered ordered inside, here, before⟩, ?_⟩
    rintro parent ⟨start, stop, ran, there, further⟩
    obtain ⟨j, within, rfl, _, same⟩ := stores.of_run ran
    cases same
    rw [ordered.unique inside within here before there further]

end
end

theorem pointer_plain (list : ChildList) : ∀ c ∈ list.pointer.columns, c.kind.isCoded = false := by
  cases list <;> decide

theorem pointed_runs {data : ByteArray} (fits : Fits data) {list : ChildList}
    (pointers : (laidOut data).has list.pointer = true) {position : Nat} (first : 0 < position)
    (last : position ≤ (laidOut data).rows list.pointer) (n : Nat) :
    ∃ child n', (laidOut data).pointed list position n = .ok child n' ∧
      (laidOut data).ChildAt list position child := by
  obtain ⟨view, found, within, last⟩ := view?_fits fits first last
  obtain ⟨row, got⟩ := TableView.get?_plain within first last (pointer_plain list)
  refine ⟨numberIn list.pointer.columns row.fields 0, n + 1, ?_, ?_⟩
  · unfold pointed
    simp only [found]
    exact bind_after_ok (TableView.get_of_get? got n) _
  · rw [ChildAt, if_pos pointers]
    exact ⟨view, row, found, got, rfl⟩

theorem children_of_run {data : ByteArray} (fits : Fits data) {list : ChildList}
    {parent start stop : Nat} (ran : (laidOut data).run list parent = .ok (start, stop))
    (low : 1 ≤ start) (high : stop ≤ (laidOut data).runRows list + 1) :
    ∃ children, ((laidOut data).children list parent).result = .ok children ∧
      List.Forall₂ ((laidOut data).ChildAt list) (List.range' start (stop - start)) children := by
  rw [run, Scan.result_eq] at ran
  cases ranged : (laidOut data).childRange list parent 0 with
  | error e n =>
    rw [outcome_error ranged] at ran
    cases ran
  | ok span n =>
    rw [outcome_ok ranged] at ran
    cases ran
    rw [Scan.result_eq, children, outcome_congr (bind_after_ok ranged _)]
    by_cases pointers : (laidOut data).has list.pointer = true
    · have rows : (laidOut data).runRows list = (laidOut data).rows list.pointer := if_pos pointers
      have each : ∀ position ∈ List.range' start (stop - start), ∀ n, ∃ child n',
          (laidOut data).pointed list position n = .ok child n' ∧
            (laidOut data).ChildAt list position child := by
        intro position member n
        rw [List.mem_range'_1] at member
        exact pointed_runs fits pointers (by omega) (by omega) n
      obtain ⟨children, n', mapped, related⟩ := mapM_runs each n
      simp only [pointers, if_true]
      exact ⟨children, outcome_ok mapped, related⟩
    · have direct (positions : List Nat) :
          List.Forall₂ ((laidOut data).ChildAt list) positions positions := by
        refine List.forall₂_same.2 fun position _ => ?_
        rw [ChildAt, if_neg pointers]
      simp only [pointers]
      exact ⟨_, rfl, direct _⟩

/-- Where all parent rows can be read, their runs divide the rows that they index, if the starts
that they store are in order, and not all of them have one otherwise. -/
theorem runs_partition {data : ByteArray} {s : TableStream} (done : read data = .ok s)
    {list : ChildList} {view : TableView list.parent} (found : s.view? list.parent = some view)
    {parents : List (Row list.parent)} (decoded : view.rows = .ok parents) :
    s.Partition list (parents.map (storedStart list)) := by
  have fits := fits_of_read done
  rw [read_eq fits] at done
  cases done
  have stores := stores_of_rows found decoded
  constructor
  · exact stores.runs_iff
  · refine fun ordered => stores.divided ordered fun none => ?_
    have filled := rows_ne_zero_of_view? found
    rw [← stores.count, none] at filled
    exact filled rfl
  · intro parent start stop ran
    obtain ⟨i, inside, rfl, proper, same⟩ := stores.of_run ran
    cases same
    exact children_of_run fits ran (Nat.one_le_iff_ne_zero.2 proper.1) proper.2.2

/-- A stream with two types of one field each, whose fields stand the other way round in the
pointer table. -/
def crossed : ByteArray :=
  ⟨#[0, 0, 0, 0, 2, 0, 0, 1, 0x1C, 0, 0, 0, 0, 0, 0, 0, 0, 0, 0, 0, 0, 0, 0, 0,
    2, 0, 0, 0, 2, 0, 0, 0, 2, 0, 0, 0,
    0, 0, 0, 0, 0, 0, 0, 0, 0, 0, 1, 0, 1, 0, 0, 0, 0, 0, 0, 0, 0, 0, 0, 0, 2, 0, 1, 0,
    2, 0, 1, 0, 0, 0, 0, 0, 0, 0, 0, 0, 0, 0, 0, 0]⟩

def crossedType (rid fieldList : Nat) : Row .typeDef where
  rid := rid
  offset := (rid - 1) * 14
  fields := ((0 : Nat), (0 : Nat), (0 : Nat), ⟨.typeDef, 0⟩, fieldList, (1 : Nat), ())

section
set_option maxRecDepth 2048

theorem runs_partition_crossed : ∃ s view, read crossed = .ok s ∧
    s.view? ChildList.fields.parent = some view ∧
    view.rows = .ok [crossedType 1 1, crossedType 2 2] ∧
    InOrder [1, 2] (s.runRows .fields) ∧ s.Partition .fields [1, 2] ∧
    (s.children .fields 1).result = .ok [2] ∧ (s.children .fields 2).result = .ok [1] := by
  have fits : Fits crossed :=
    fits_of_mask (by decide) (by decide) (by decide) (by decide +kernel)
  have done : read crossed = .ok (laidOut crossed) := read_eq fits
  obtain ⟨view, found⟩ : ∃ view, (laidOut crossed).view? ChildList.fields.parent = some view :=
    ⟨_, rfl⟩
  have decoded : view.rows = .ok [crossedType 1 1, crossedType 2 2] := by
    cases found
    rfl
  have ordered : InOrder [1, 2] ((laidOut crossed).runRows .fields) :=
    ⟨by decide, by simp, by decide +kernel⟩
  have partition := runs_partition done found decoded
  exact ⟨laidOut crossed, view, done, found, decoded, ordered, partition, rfl, rfl⟩

end

end TableStream

end CliMetadata
