import CliMetadata.Assembly
import CliMetadata.Proofs.Assembly
import CliMetadata.Proofs.Naming
import CliMetadata.Proofs.Table.Layout
import Mathlib.Data.List.Sort

set_option autoImplicit false

namespace CliMetadata

namespace Nesting

variable {n n' : Nesting} {rows : List NestedClassRow} {row : NestedClassRow}

@[simp] theorem lookup_cons {β : Type} (rid key : Nat) (value : β) (rest : List (Nat × β)) :
    ((key, value) :: rest).lookup rid = if rid = key then some value else rest.lookup rid := by
  rw [List.lookup_cons]
  by_cases same : rid = key
  next => rw [if_pos same, same, beq_self_eq_true]
  next => rw [if_neg same, beq_false_of_ne same]

@[simp] theorem enclosing?_insert (rid : Nat) : (n.insert row).enclosing? rid =
    if rid = row.nested then some row.enclosing else n.enclosing? rid :=
  lookup_cons rid row.nested row.enclosing n.outer

@[simp] theorem nested_insert (rid : Nat) : (n.insert row).nested rid =
    if rid = row.enclosing then n.nested rid ++ [row.nested] else n.nested rid := by
  by_cases same : rid = row.enclosing <;> simp [nested, insert, same]

@[simp] theorem nested_sorted (rid : Nat) : n.sorted.nested rid = (n.nested rid).mergeSort := by
  unfold nested sorted
  induction n.inner with
  | nil => simp
  | cons entry rest ih =>
    obtain ⟨key, inside⟩ := entry
    by_cases same : rid = key
    next => simp [same]
    next => simpa [same] using ih

structure Records (n : Nesting) (rows : List NestedClassRow) : Prop where
  enclosing : ∀ inner outer, n.enclosing? inner = some outer ↔ ⟨inner, outer⟩ ∈ rows
  nested : ∀ outer, n.nested outer = (rows.filter (·.enclosing = outer)).map (·.nested)

theorem records_nil : ({} : Nesting).Records [] :=
  ⟨fun _ _ => by simp [enclosing?], fun _ => by simp [Nesting.nested]⟩

namespace Records

variable (records : n.Records rows)
include records

theorem isSome_enclosing? (rid : Nat) :
    (n.enclosing? rid).isSome ↔ rid ∈ rows.map (·.nested) := by
  rw [Option.isSome_iff_exists, List.mem_map]
  constructor
  · rintro ⟨outer, found⟩
    exact ⟨⟨rid, outer⟩, (records.enclosing rid outer).1 found, rfl⟩
  · rintro ⟨row, member, rfl⟩
    exact ⟨row.enclosing, (records.enclosing _ _).2 member⟩

theorem add_twice (twice : row.nested ∈ rows.map (·.nested)) :
    n.add row = .error (.malformed (.nestedTwice row.nested)) := by
  rw [add, if_pos ((records.isSome_enclosing? _).2 twice)]

theorem insert (fresh : row.nested ∉ rows.map (·.nested)) :
    (n.insert row).Records (rows ++ [row]) := by
  refine ⟨fun inner outer => ?_, fun outer => ?_⟩
  · rw [enclosing?_insert, List.mem_append, List.mem_singleton, ← records.enclosing]
    split
    next same =>
      have absent := mt (records.isSome_enclosing? row.nested).1 fresh
      rw [Option.not_isSome_iff_eq_none] at absent
      subst same
      obtain ⟨_, _⟩ := row
      simp [absent, eq_comm]
    next differs =>
      obtain ⟨_, _⟩ := row
      simp_all
  · rw [nested_insert, records.nested, List.filter_append, List.map_append]
    by_cases same : outer = row.enclosing
    next => simp [same]
    next => simp [same, eq_comm]

theorem add (fresh : row.nested ∉ rows.map (·.nested)) : n.add row = .ok (n.insert row) := by
  rw [Nesting.add, if_neg (mt (records.isSome_enclosing? _).1 fresh)]

end Records

variable {before : List NestedClassRow}

theorem foldlM_once (records : n.Records before)
    (once : ((before ++ rows).map (·.nested)).Nodup) :
    ∃ n', rows.foldlM Nesting.add n = .ok n' ∧ n'.Records (before ++ rows) := by
  induction rows generalizing n before with
  | nil => exact ⟨n, rfl, by simpa using records⟩
  | cons row rest ih =>
    have fresh : row.nested ∉ before.map (·.nested) := by
      intro there
      rw [List.map_append, List.map_cons, List.nodup_append] at once
      exact once.2.2 _ there _ List.mem_cons_self rfl
    rw [List.append_cons] at once ⊢
    obtain ⟨n', ran, whole⟩ := ih (records.insert fresh) once
    exact ⟨n', by rw [List.foldlM_cons, records.add fresh]; exact ran, whole⟩

theorem foldlM_twice (records : n.Records before) (distinct : (before.map (·.nested)).Nodup)
    (twice : ¬((before ++ rows).map (·.nested)).Nodup) :
    ∃ rid, 1 < ((before ++ rows).map (·.nested)).count rid ∧
      rows.foldlM Nesting.add n = .error (.malformed (.nestedTwice rid)) := by
  induction rows generalizing n before with
  | nil => exact absurd (by simpa using distinct) twice
  | cons row rest ih =>
    rw [List.foldlM_cons]
    by_cases fresh : row.nested ∈ before.map (·.nested)
    next =>
      refine ⟨row.nested, ?_, by rw [records.add_twice fresh]; rfl⟩
      have earlier := List.count_pos_iff.2 fresh
      simp only [List.map_append, List.map_cons, List.count_append, List.count_cons_self]
      omega
    next =>
      have further : ((before ++ [row]).map (·.nested)).Nodup := by
        rw [List.map_append, List.map_singleton, List.nodup_append]
        refine ⟨distinct, List.nodup_singleton _, fun inner there _ last same => fresh ?_⟩
        exact List.mem_singleton.1 last ▸ same ▸ there
      rw [List.append_cons] at twice ⊢
      obtain ⟨rid, counted, ran⟩ := ih (records.insert fresh) further twice
      exact ⟨rid, counted, by rw [records.add fresh]; exact ran⟩

/-- Both directions of the index say which type lies directly inside which by the rows. -/
structure Inverse (n : Nesting) (rows : List NestedClassRow) : Prop where
  listed : ∀ inner outer, n.enclosing? inner = some outer ↔ inner ∈ n.nested outer
  paired : ∀ inner outer, n.enclosing? inner = some outer ↔ ⟨inner, outer⟩ ∈ rows
  ascending : ∀ outer, (n.nested outer).Pairwise (· < ·)

theorem Records.inverse (records : n.Records rows) (once : (rows.map (·.nested)).Nodup) :
    n.sorted.Inverse rows := by
  have paired inner outer : n.sorted.enclosing? inner = some outer ↔ ⟨inner, outer⟩ ∈ rows :=
    records.enclosing inner outer
  refine ⟨fun inner outer => ?_, paired, fun outer => ?_⟩
  · rw [paired, nested_sorted, List.mem_mergeSort, records.nested, List.mem_map]
    constructor
    · intro member
      exact ⟨⟨inner, outer⟩, by simpa using member, rfl⟩
    · rintro ⟨⟨_, _⟩, member, rfl⟩
      obtain ⟨there, same⟩ := List.mem_filter.1 member
      exact of_decide_eq_true same ▸ there
  · have distinct : (n.nested outer).Nodup := by
      rw [records.nested]
      exact once.sublist (List.filter_sublist.map _)
    rw [nested_sorted]
    have apart := (List.mergeSort_perm (n.nested outer) (· ≤ ·)).nodup_iff.2 distinct
    have rising := List.pairwise_mergeSort' (· ≤ ·) (n.nested outer)
    exact rising.imp₂ (fun a b le ne => Nat.lt_of_le_of_ne le ne) apart

end Nesting

theorem foldlM_read {ε α β γ : Type} {read : β → Except ε γ} {values : List β} {results : List γ}
    (all : values.mapM read = .ok results) (step : α → γ → Except ε α) (start : α) :
    values.foldlM (fun acc v => do step acc (← read v)) start = results.foldlM step start := by
  induction values generalizing results start with
  | nil =>
    cases all
    rfl
  | cons v values ih =>
    rw [List.mapM_cons] at all
    obtain ⟨result, first, all⟩ := except_bind_ok.1 all
    obtain ⟨others, rest, same⟩ := except_bind_ok.1 all
    cases same
    rw [List.foldlM_cons, List.foldlM_cons, first]
    exact bind_congr fun acc => ih rest acc

theorem mapM_of_foldlM {ε α β γ : Type} {read : β → Except ε γ} {values : List β}
    (step : α → γ → Except ε α) {start result : α}
    (ran : values.foldlM (fun acc v => do step acc (← read v)) start = .ok result) :
    ∃ results, values.mapM read = .ok results := by
  refine exists_mapM_ok ?_
  induction values generalizing start with
  | nil => exact fun v => nofun
  | cons v values ih =>
    rw [List.foldlM_cons] at ran
    obtain ⟨next, first, ran⟩ := except_bind_ok.1 ran
    obtain ⟨r, first, -⟩ := except_bind_ok.1 first
    intro other member
    rcases List.mem_cons.1 member with rfl | member
    · exact ⟨r, first⟩
    · exact ih ran other member

namespace Module

variable {m : Module} {rows : List (Row .nestedClass)}

theorem tables_of_read {data : ByteArray} (loaded : Module.read data = .ok m) :
    ∃ bytes, TableStream.read bytes = .ok m.tables := by
  unfold Module.read ofImage at loaded
  obtain ⟨image, -, loaded⟩ := except_bind_ok.1 loaded
  obtain ⟨root, -, loaded⟩ := except_bind_ok.1 loaded
  dsimp only at loaded
  split at loaded
  next bytes _ =>
    obtain ⟨tables, stream, loaded⟩ := except_bind_ok.1 loaded
    obtain ⟨_, -, loaded⟩ := except_bind_ok.1 loaded
    obtain ⟨_, -, loaded⟩ := except_bind_ok.1 loaded
    obtain ⟨_, -, loaded⟩ := except_bind_ok.1 loaded
    obtain ⟨_, -, loaded⟩ := except_bind_ok.1 loaded
    cases loaded
    exact ⟨bytes, stream⟩
  next => cases loaded

-- The rows of a module that was read lie within its bytes, and nothing but coded indices can fail
-- to decode.
theorem exists_allRows {data : ByteArray} (loaded : Module.read data = .ok m) {t : Table}
    (plain : ∀ c ∈ t.columns, c.kind.isCoded = false) : ∃ rows, m.allRows t = .ok rows := by
  obtain ⟨bytes, stream⟩ := tables_of_read loaded
  have fits := TableStream.fits_of_read stream
  have laid : m.tables = TableStream.laidOut bytes :=
    Except.ok.inj (stream.symm.trans (TableStream.read_eq fits))
  unfold allRows
  split
  next => exact ⟨[], rfl⟩
  next view there =>
    refine exists_mapM_ok fun i member => ?_
    have last : i + 1 ≤ m.tables.rows t := by
      rw [← TableStream.count_of_view there]
      exact List.mem_range.1 member
    obtain ⟨_, same, within, inside⟩ :=
      TableStream.view?_fits fits (Nat.succ_pos i) (laid ▸ last)
    rw [← laid] at same
    cases there.symm.trans same
    exact TableView.get?_plain within (Nat.succ_pos i) inside plain

def nestedPairs (rows : List (Row .nestedClass)) : List NestedClassRow :=
  rows.map NestedClassRow.ofRow

def NestedOnce (rows : List (Row .nestedClass)) : Prop :=
  ((nestedPairs rows).map (·.nested)).Nodup

instance (rows : List (Row .nestedClass)) : Decidable (NestedOnce rows) :=
  inferInstanceAs (Decidable (List.Nodup _))

theorem nesting_eq (read : m.allRows .nestedClass = .ok rows) :
    m.nesting = ((nestedPairs rows).foldlM Nesting.add {}).map Nesting.sorted := by
  unfold allRows at read
  unfold nesting
  split at read
  next absent =>
    cases read
    simp only [absent]
    rfl
  next view there =>
    simp only [there]
    have folded := foldlM_read read
      (fun (n : Nesting) row => n.add (NestedClassRow.ofRow row)) {}
    rw [folded, nestedPairs, List.foldlM_map]
    cases rows.foldlM (fun n row => n.add (NestedClassRow.ofRow row)) ({} : Nesting) <;> rfl

theorem nesting_once (read : m.allRows .nestedClass = .ok rows) (once : NestedOnce rows) :
    ∃ n, m.nesting = .ok n ∧ n.Inverse (nestedPairs rows) := by
  obtain ⟨n, ran, records⟩ := Nesting.foldlM_once Nesting.records_nil once
  exact ⟨n.sorted, by rw [nesting_eq read, nestedPairs, ran]; rfl, records.inverse once⟩

theorem nesting_twice (read : m.allRows .nestedClass = .ok rows) (twice : ¬NestedOnce rows) :
    ∃ rid, 1 < ((nestedPairs rows).map (·.nested)).count rid ∧
      m.nesting = .error (.malformed (.nestedTwice rid)) := by
  obtain ⟨rid, counted, ran⟩ := Nesting.foldlM_twice Nesting.records_nil List.nodup_nil twice
  exact ⟨rid, counted, by rw [nesting_eq read, nestedPairs, ran]; rfl⟩

theorem exists_inverse {n : Nesting} (nested : m.nesting = .ok n) :
    ∃ rows, m.allRows .nestedClass = .ok rows ∧ n.Inverse (nestedPairs rows) := by
  have rows : ∃ rows, m.allRows .nestedClass = .ok rows := by
    unfold nesting at nested
    unfold allRows
    split at nested
    next absent => exact ⟨[], by rw [absent]⟩
    next view there =>
      obtain ⟨_, folded, -⟩ := except_bind_ok.1 nested
      obtain ⟨rows, read⟩ := mapM_of_foldlM
        (fun (n : Nesting) row => n.add (NestedClassRow.ofRow row)) folded
      exact ⟨rows, by rw [there]; exact read⟩
  obtain ⟨rows, read⟩ := rows
  by_cases once : NestedOnce rows
  next =>
    obtain ⟨_, same, inverse⟩ := nesting_once read once
    cases nested.symm.trans same
    exact ⟨rows, read, inverse⟩
  next =>
    obtain ⟨_, -, refused⟩ := nesting_twice read once
    cases nested.symm.trans refused

end Module

end CliMetadata
