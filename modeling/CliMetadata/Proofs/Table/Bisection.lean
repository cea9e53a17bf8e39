import CliMetadata.Proofs.Table.Rows
import CliMetadata.Proofs.Table.SortKey
import Mathlib.Data.List.Forall2

set_option autoImplicit false

namespace CliMetadata

theorem mapM_ok {ε α β : Type} {f : α → Except ε β} {values : List α} {results : List β}
    (ran : values.mapM f = .ok results) : List.Forall₂ (fun v r => f v = .ok r) values results := by
  induction values generalizing results with
  | nil =>
    cases ran
    exact .nil
  | cons value rest ih =>
    rw [List.mapM_cons] at ran
    obtain ⟨result, first, ran⟩ := except_bind_ok.1 ran
    obtain ⟨others, further, same⟩ := except_bind_ok.1 ran
    cases same
    exact .cons first (ih further)

namespace TableView

variable {t : Table}

structure Lists (view : TableView t) (rows : List (Row t)) : Prop where
  length : rows.length = view.count
  decode : ∀ (i : Nat) (inside : i < rows.length), view.decode (i + 1) = .ok rows[i]

section
variable {view : TableView t} {rows : List (Row t)}

theorem Lists.get (lists : view.Lists rows) {i : Nat} (inside : i < rows.length) (n : Nat) :
    view.get (i + 1) n = .ok rows[i] (n + 1) := by
  have within : ¬(i + 1 = 0 ∨ view.count < i + 1) := by
    have := lists.length
    omega
  rw [get_eq, if_neg within, lists.decode i inside]

theorem lists_of_rows (read : view.rows = .ok rows) : view.Lists rows := by
  have each := List.forall₂_iff_get.1 (mapM_ok read)
  have length : rows.length = view.count := by simpa using each.1.symm
  refine ⟨length, fun i inside => ?_⟩
  have got := each.2 i (by simpa [← length] using inside) inside
  have within : ¬(i + 1 = 0 ∨ view.count < i + 1) := by omega
  simpa only [List.get_eq_getElem, List.getElem_range, get?_eq, if_neg within] using got

def ReadsFrom (view : TableView t) : Nat → List (Row t) → Prop
  | _, [] => True
  | rid, row :: rest => (∀ n, view.get rid n = .ok row (n + 1)) ∧ view.ReadsFrom (rid + 1) rest

theorem Lists.readsFrom (lists : view.Lists rows) (start : Nat) :
    view.ReadsFrom (start + 1) (rows.drop start) := by
  generalize rest : rows.drop start = further
  induction further generalizing start with
  | nil => trivial
  | cons row further ih =>
    have inside : start < rows.length := by
      have := congrArg List.length rest
      simp only [List.length_drop, List.length_cons] at this
      omega
    obtain ⟨rfl, later⟩ := List.cons.inj ((List.drop_eq_getElem_cons inside).symm.trans rest)
    exact ⟨lists.get inside, ih (start + 1) later⟩

theorem allFrom_eq (key : Token) {rid : Nat} {rest : List (Row t)}
    (reads : view.ReadsFrom rid rest) (n : Nat) :
    view.allFrom key rest.length rid n =
      .ok (rest.filter (·.key? = some key)) (n + rest.length) := by
  induction rest generalizing rid n with
  | nil => rfl
  | cons row rest ih =>
    rw [List.length_cons, allFrom, bind_after_ok (reads.1 n), bind_after_ok (ih reads.2 (n + 1)),
      Nat.add_right_comm]
    by_cases found : row.key? = some key <;> simp [found, pure, EStateM.pure, Nat.add_assoc]

theorem runFrom_eq (key : Token) {rid : Nat} {rest : List (Row t)}
    (reads : view.ReadsFrom rid rest) (n : Nat) :
    outcome (view.runFrom key rest.length rid) n = .ok (rest.takeWhile (·.key? = some key)) := by
  induction rest generalizing rid n with
  | nil => rfl
  | cons row rest ih =>
    rw [List.length_cons, runFrom, outcome_congr (bind_after_ok (reads.1 n) _)]
    by_cases found : row.key? = some key
    · simp only [found, if_true, decide_true, List.takeWhile_cons_of_pos]
      rw [outcome_bind_pure, ih reads.2]
      rfl
    · simp only [found, if_false, decide_false, List.takeWhile_cons]
      rfl

theorem firstFrom_eq (key : Token) {rid : Nat} {rest : List (Row t)}
    (reads : view.ReadsFrom rid rest) (n : Nat) :
    outcome (view.firstFrom key rest.length rid) n = .ok (rest.find? (·.key? = some key)) := by
  induction rest generalizing rid n with
  | nil => rfl
  | cons row rest ih =>
    rw [List.length_cons, firstFrom, outcome_congr (bind_after_ok (reads.1 n) _)]
    by_cases found : row.key? = some key
    · simp only [found, if_true, decide_true, List.find?_cons_of_pos]
      rfl
    · simpa [found] using ih reads.2 (n + 1)

theorem le_of_ordered {keys : List Nat} (ordered : keys.Pairwise (· ≤ ·)) {i : Nat}
    (inside : i < keys.length) :
    (∀ k ∈ keys.take (i + 1), k ≤ keys[i]) ∧ ∀ k ∈ keys.drop i, keys[i] ≤ k := by
  have rising {a b : Nat} (first : a < keys.length) (second : b < keys.length) (le : a ≤ b) :
      keys[a] ≤ keys[b] := by
    rcases Nat.eq_or_lt_of_le le with rfl | lt
    · exact Nat.le_refl _
    · exact List.pairwise_iff_getElem.1 ordered a b first second lt
  constructor
  · intro k member
    obtain ⟨j, within, rfl⟩ := List.mem_take_iff_getElem.1 member
    exact rising _ _ (by omega)
  · intro k member
    obtain ⟨j, within, rfl⟩ := List.mem_drop_iff_getElem.1 member
    exact rising _ _ (by omega)

theorem lowerBound_step {target low high : Nat} (more : low < high) {row : Row t} {k : Nat}
    (got : ∀ n, view.get (low + (high - low) / 2) n = .ok row (n + 1))
    (keyed : row.sortKey? = some k) (n : Nat) :
    view.lowerBound target low high n =
      if k < target then view.lowerBound target (low + (high - low) / 2 + 1) high (n + 1)
      else view.lowerBound target low (low + (high - low) / 2) (n + 1) := by
  have key : row.key?.bind (TableView.sortKey? t) = some k := keyed
  rw [lowerBound, dif_pos more]
  change (view.get _ >>= _) n = _
  rw [bind_after_ok (got n), key]
  by_cases less : k < target <;> simp [less]

theorem Lists.lowerBound (lists : view.Lists rows) {keys : List Nat}
    (keyed : rows.map Row.sortKey? = keys.map some) (ordered : keys.Pairwise (· ≤ ·))
    (target : Nat) {low high : Nat} (start : 0 < low) (span : low ≤ high)
    (stop : high ≤ view.count + 1) (below : ∀ k ∈ keys.take (low - 1), k < target)
    (above : ∀ k ∈ keys.drop (high - 1), target ≤ k) (n : Nat) :
    ∃ first n', view.lowerBound target low high n = .ok (first + 1) n' ∧ first ≤ view.count ∧
      Splits keys target first := by
  induction low, high using lowerBound.induct generalizing n with
  | case1 low high more mid right left =>
    have rowCount := lists.length
    have keyCount : rows.length = keys.length := by simpa using congrArg List.length keyed
    obtain ⟨i, middle⟩ : ∃ i, mid = i + 1 := ⟨mid - 1, by omega⟩
    have inside : i < rows.length := by omega
    have found := List.getElem_of_eq keyed (by simpa using inside)
    rw [List.getElem_map, List.getElem_map] at found
    obtain ⟨least, greatest⟩ := le_of_ordered ordered (i := i) (by omega)
    have got (n : Nat) : view.get mid n = .ok rows[i] (n + 1) := by
      rw [middle]
      exact lists.get inside n
    rw [lowerBound_step more got found]
    by_cases less : keys[i] < target
    · rw [if_pos less]
      refine right (by omega) (by omega) stop (fun k member => ?_) above (n + 1)
      have := least k (by rwa [middle] at member)
      omega
    · rw [if_neg less]
      refine left start (by omega) (by omega) below (fun k member => ?_) (n + 1)
      have := greatest k (by rwa [middle] at member)
      omega
  | case2 low high done =>
    refine ⟨low - 1, n, ?_, by omega, below, by rwa [show low = high by omega]⟩
    rw [TableView.lowerBound, dif_neg done, Nat.sub_add_cancel start]
    rfl

theorem Lists.bisect (lists : view.Lists rows) (ordered : InKeyOrder rows) {key : Token}
    {target : Nat} (known : TableView.sortKey? t key = some target) (n : Nat) :
    ∃ first n', view.lowerBound target 1 (view.count + 1) n = .ok (first + 1) n' ∧
      first ≤ view.count ∧
      rows.filter (·.key? = some key) = (rows.drop first).takeWhile (·.key? = some key) := by
  obtain ⟨keys, keyed, rising⟩ := ordered
  have keyCount : rows.length = keys.length := by simpa using congrArg List.length keyed
  have rowCount := lists.length
  have nothing : keys.drop view.count = [] := List.drop_eq_nil_of_le (by omega)
  obtain ⟨first, n', ran, inside, splits⟩ :=
    lists.lowerBound keyed rising target Nat.one_pos (by omega) (Nat.le_refl _)
      (by simp) (by simp [nothing]) n
  exact ⟨first, n', ran, inside, filter_of_splits known keyed rising splits⟩

theorem Lists.findAll (lists : view.Lists rows) (ordered : InKeyOrder rows) (key : Token) :
    outcome (view.findAll key) 0 = .ok (rows.filter (·.key? = some key)) := by
  unfold TableView.findAll
  split
  next =>
    split
    next unsortable =>
      rw [filter_unsortable unsortable ordered]
      rfl
    next target known =>
      obtain ⟨first, n', ran, inside, found⟩ := lists.bisect ordered known 0
      have length : view.count + 1 - (first + 1) = (rows.drop first).length := by
        rw [List.length_drop, lists.length]
        omega
      rw [outcome_congr (bind_after_ok ran _), length, runFrom_eq key (lists.readsFrom first), found]
  next =>
    have all := allFrom_eq key (lists.readsFrom 0) 0
    rw [List.drop_zero, lists.length] at all
    exact outcome_ok all

theorem Lists.findAny (lists : view.Lists rows) (ordered : InKeyOrder rows) (key : Token) :
    outcome (view.findAny key) 0 = .ok (rows.filter (·.key? = some key)).head? := by
  unfold TableView.findAny
  split
  next =>
    split
    next unsortable =>
      rw [filter_unsortable unsortable ordered]
      rfl
    next target known =>
      obtain ⟨first, n', ran, inside, found⟩ := lists.bisect ordered known 0
      rw [outcome_congr (bind_after_ok ran _), found, List.head?_takeWhile, List.head?_drop]
      by_cases more : first < rows.length
      · have within : first + 1 ≤ view.count := by rwa [← lists.length]
        simp only [within, if_true, List.getElem?_eq_getElem more]
        rw [outcome_congr (bind_after_ok (lists.get more n') _)]
        by_cases same : rows[first].key? = some key <;> simp [same, Option.filter] <;> rfl
      · have beyond : ¬first + 1 ≤ view.count := by
          rw [← lists.length]
          omega
        simp only [beyond, if_false, List.getElem?_eq_none (Nat.le_of_not_lt more)]
        rfl
  next =>
    have all := firstFrom_eq key (lists.readsFrom 0) 0
    rw [List.drop_zero, lists.length] at all
    rw [all, List.head?_filter]

end

/-- The same rows, marked as sorted or not. -/
def marked (view : TableView t) (sorted : Bool) : TableView t := { view with sorted }

/-- Where the rows are in order, the mark makes no difference: a look-up finds the rows with the
key, in the order in which they stand, or the first of them. -/
theorem find_marked (view : TableView t) {rows : List (Row t)} (read : view.rows = .ok rows)
    (ordered : InKeyOrder rows) (key : Token) (sorted : Bool) :
    ((view.marked sorted).findAll key).result = .ok (rows.filter (·.key? = some key)) ∧
      ((view.marked sorted).findAny key).result =
        .ok (rows.filter (·.key? = some key)).head? := by
  have lists : (view.marked sorted).Lists rows :=
    ⟨(lists_of_rows read).length, (lists_of_rows read).decode⟩
  rw [Scan.result_eq, Scan.result_eq]
  exact ⟨lists.findAll ordered key, lists.findAny ordered key⟩

def attributeRow (rid : Nat) (parent : CodedIndex) (value : Nat) : Row .customAttribute where
  rid := rid
  offset := (rid - 1) * 6
  fields := (parent, ⟨.methodDef, 1⟩, value, ())

def attributes : TableView .customAttribute where
  data := ⟨#[32, 0, 10, 0, 0, 0, 35, 0, 10, 0, 1, 0, 35, 0, 10, 0, 2, 0, 35, 0, 10, 0, 3, 0,
    96, 0, 10, 0, 0, 0]⟩
  start := 0
  count := 5
  sorted := false
  widths := .ofRows [(.typeDef, 5), (.methodDef, 3)] false false false

section
set_option maxRecDepth 2048

theorem find_marked_run :
    let rows := [attributeRow 1 ⟨.methodDef, 1⟩ 0, attributeRow 2 ⟨.typeDef, 1⟩ 1,
      attributeRow 3 ⟨.typeDef, 1⟩ 2, attributeRow 4 ⟨.typeDef, 1⟩ 3, attributeRow 5 ⟨.methodDef, 3⟩ 0]
    attributes.rows = .ok rows ∧ InKeyOrder rows ∧
      ∀ sorted,
        ((attributes.marked sorted).findAll ⟨0x02000001⟩).result = .ok ((rows.drop 1).take 3) ∧
        ((attributes.marked sorted).findAny ⟨0x02000001⟩).result = .ok rows[1]? := by
  intro rows
  have read : attributes.rows = .ok rows := rfl
  have ordered : InKeyOrder rows := ⟨[32, 35, 35, 35, 96], rfl, by decide⟩
  exact ⟨read, ordered, find_marked attributes read ordered ⟨0x02000001⟩⟩

end

end TableView

end CliMetadata
