import CliMetadata.Assembly
import CliMetadata.Proofs.Table.Rows

set_option autoImplicit false

namespace CliMetadata

open FailsBy Error

theorem TableView.failsBy_decode {t : Table} (view : TableView t) (rid : Nat) :
    FailsBy OfFormat (view.decode rid) := by
  rw [decode_eq]
  refine FailsBy.map (fun e failed => ?_) _
  rcases Fields.readAt_error failed with ⟨_, _, _, _, refused⟩ | ⟨rfl, _⟩
  · obtain ⟨defect, rfl⟩ := refused.malformed
    exact .malformed defect
  · exact .outOfBounds

theorem TableView.failsBy_get {t : Table} (view : TableView t) (rid n : Nat) :
    FailsBy OfFormat (outcome (view.get rid) n) := by
  unfold outcome
  rw [TableView.get_eq]
  by_cases outside : rid = 0 ∨ view.count < rid
  · simpa only [outside, if_true] using error (.malformed _)
  · have failing := view.failsBy_decode rid
    simp only [outside, if_false]
    cases decoded : view.decode rid with
    | ok row => exact ok row
    | error e => exact error (failing e decoded)

namespace TableStream

variable {s : TableStream} {t : Table}

theorem rows_of_absent (absent : s.view? t = none) : s.rows t = 0 := by
  unfold view? has at absent
  by_cases empty : s.rows t = 0
  · exact empty
  · simp [empty] at absent

theorem count_of_view {view : TableView t} (there : s.view? t = some view) :
    view.count = s.rows t := by
  unfold view? at there
  split at there
  · cases there
    rfl
  · cases there

end TableStream

namespace Module

variable {m : Module} {t : Table} {rid : Nat} {row : Row t}

theorem row_ok {n n' : Nat} (ran : m.row t rid n = .ok row n') :
    m.rowAt t rid = .ok row ∧ 0 < rid ∧ rid ≤ m.tables.rows t := by
  cases there : m.tables.view? t with
  | none =>
    rw [Module.row, there] at ran
    cases ran
  | some view =>
    have gets : m.row t rid = view.get rid := by rw [Module.row, there]
    rw [gets] at ran
    rw [rowAt, gets, ← TableStream.count_of_view there]
    exact TableView.get?_of_get ran

theorem within_of_rowAt (read : m.rowAt t rid = .ok row) : 0 < rid ∧ rid ≤ m.tables.rows t := by
  rw [rowAt, Scan.result_eq] at read
  exact (row_ok (ok_of_outcome read)).2

theorem rid_of_rowAt (read : m.rowAt t rid = .ok row) : row.rid = rid := by
  unfold rowAt Module.row at read
  split at read
  next view _ =>
    have got : view.get? rid = .ok row := read
    rw [TableView.get?_eq] at got
    split at got
    · cases got
    · rw [TableView.decode_eq] at got
      obtain ⟨_, -, rfl⟩ := except_map_ok.1 got
      rfl
  next => cases read

def allRows (m : Module) (t : Table) : Except Error (List (Row t)) :=
  match m.tables.view? t with
  | none => .ok []
  | some view => view.rows

end Module

theorem StringHeap.failsBy_get (heap : StringHeap) (index : Nat) :
    FailsBy OfFormat (heap.get index) := by
  unfold get
  split
  · split
    next => exact error (.malformed _)
    next bytes _ =>
      cases Utf8.decode bytes with
      | ok text => exact ok text
      | error fault => exact error (.malformed _)
  · exact error .outOfBounds

namespace Reader

theorem failsBy_byte (c : Cursor) : FailsBy OfFormat (outcome byte c) := by
  unfold outcome byte
  cases c.peek? with
  | some b => exact ok b
  | none => exact error .outOfBounds

theorem failsBy_bytes (length : Nat) (c : Cursor) :
    FailsBy OfFormat (outcome (bytes length) c) := by
  unfold outcome bytes
  by_cases fits : length ≤ c.remaining
  · simpa only [fits, if_true] using ok _
  · simpa only [fits, if_false] using error .outOfBounds

theorem failsBy_compressedUint (c : Cursor) : FailsBy OfFormat (outcome compressedUint c) := by
  refine outcome_bind (failsBy_byte c) fun first c => ?_
  split
  · exact ok _
  · split
    · exact outcome_bind (failsBy_byte c) fun second c => ok _
    · split
      · exact outcome_bind (failsBy_bytes 3 c) fun rest c => ok _
      · exact error (.malformed _)

end Reader

theorem BlobHeap.failsBy_get (heap : BlobHeap) (index : Nat) :
    FailsBy OfFormat (heap.get index) := by
  unfold get
  split
  · refine FailsBy.map ?_ _
    have failing := outcome_bind (Reader.failsBy_compressedUint
      { data := heap.data.extract index heap.data.size }) Reader.failsBy_bytes
    unfold entryAt entry EStateM.run
    split
    next => exact ok _
    next e c failed => exact error (failing e (outcome_error failed))
  · exact error .outOfBounds

namespace Module

variable (m : Module)

theorem failsBy_string (index : Nat) : FailsBy OfFormat (m.string index) := by
  unfold string
  split
  · exact ok _
  · split
    next heap _ => exact heap.failsBy_get index
    next => exact error (.malformed _)

theorem failsBy_blob (index : Nat) : FailsBy OfFormat (m.blob index) := by
  unfold blob
  split
  · exact ok _
  · split
    next heap _ => exact heap.failsBy_get index
    next => exact error (.malformed _)

theorem failsBy_assemblyRow : FailsBy OfFormat m.assemblyRow.result := by
  rw [Scan.result_eq, assemblyRow]
  split
  next view _ => exact outcome_bind (view.failsBy_get 1 0) fun row n => ok (some row)
  next => exact ok none

theorem failsBy_name : FailsBy OfFormat m.name.result := by
  have row (n : Nat) : FailsBy OfFormat (outcome (m.row .module 1) n) := by
    unfold Module.row
    split
    next view _ => exact view.failsBy_get 1 n
    next => exact error (.malformed _)
  rw [Scan.result_eq]
  refine outcome_bind (row 0) fun found n => ?_
  have text := m.failsBy_string (ModuleRow.ofRow found).name
  unfold outcome Scan.lift
  cases read : m.string (ModuleRow.ofRow found).name with
  | ok value => exact ok value
  | error e => exact error (text e read)

end Module

theorem KeyToken.failsBy_ofPublicKey (key : List UInt8) (algorithm : Nat) :
    FailsBy OfFormat (ofPublicKey key algorithm) := by
  unfold ofPublicKey
  split
  · exact error (.malformed _)
  · split
    next digest _ => exact ok _
    next => exact error .notSupported

theorem AssemblyIdentity.failsBy_ofAssembly (name culture : String) (version : AssemblyVersion)
    (key : List UInt8) (algorithm : Nat) :
    FailsBy OfFormat (ofAssembly name culture version key algorithm) := by
  unfold ofAssembly
  split
  · exact ok _
  · exact FailsBy.bind (FailsBy.map (KeyToken.failsBy_ofPublicKey key algorithm) some)
      fun keyToken => ok _

namespace Assembly

variable (m : Module)

theorem failsBy_identify : FailsBy OfFormat (identify m) := by
  refine FailsBy.bind m.failsBy_assemblyRow fun found => ?_
  cases found with
  | some row =>
    refine FailsBy.bind (m.failsBy_string _) fun name => ?_
    refine FailsBy.bind (m.failsBy_string _) fun culture => ?_
    refine FailsBy.bind (m.failsBy_blob _) fun key => ?_
    exact FailsBy.bind (AssemblyIdentity.failsBy_ofAssembly _ _ _ _ _) fun identity => ok _
  | none => exact FailsBy.bind m.failsBy_name fun name => ok _

theorem failsBy_ofModule : FailsBy OfFormat (ofModule m) :=
  FailsBy.bind (failsBy_identify m) fun _ => ok _

theorem ofModule_eq {m : Module} {a : Assembly} (made : ofModule m = .ok a) :
    a.module = m ∧ a.nesting = m.nesting ∧ a.names = m.nesting.bind m.typeNames ∧
      a.methodOwners = m.methodOwners := by
  obtain ⟨⟨identity, flags⟩, _, same⟩ := except_bind_ok.1 made
  cases same
  exact ⟨rfl, rfl, rfl, rfl⟩

theorem exists_read (data : ByteArray) (test : Assembly → Bool)
    (reads : (do ofModule (← Module.read data)).toOption.any test = true) :
    ∃ a, Module.read data = .ok a.module ∧ ofModule a.module = .ok a ∧ test a = true := by
  obtain ⟨a, got, passes⟩ := (Option.any_eq_true _ _).1 reads
  obtain ⟨m, loaded, made⟩ := except_bind_ok.1 (except_toOption_some.1 got)
  obtain rfl := (ofModule_eq made).1
  exact ⟨a, loaded, made, passes⟩

end Assembly

end CliMetadata
