import CliMetadata.Proofs.Bytes.Numbers
import CliMetadata.Proofs.Table.SortKey
import Mathlib.Data.Nat.Bitwise

set_option autoImplicit false

namespace CliMetadata

namespace CodedKind

theorem tagOf?_slots {kind : CodedKind} {table : Table} {tag : Nat}
    (slot : kind.slots[tag]? = some (some table)) : kind.tagOf? table = some tag := by
  have apart : ∀ i : Fin kind.slots.length,
      kind.slots[i].all fun t => kind.tagOf? t == some i.val := by
    cases kind <;> decide
  obtain ⟨inside, named⟩ := List.getElem?_eq_some_iff.1 slot
  have tagged := apart ⟨tag, inside⟩
  simp only [Fin.getElem_fin, named, Option.all_some] at tagged
  exact beq_iff_eq.1 tagged

theorem tagged_of_mem {kind : CodedKind} {table : Table} (member : some table ∈ kind.slots) :
    ∃ tag, kind.tagOf? table = some tag := by
  obtain ⟨tag, slot⟩ := List.mem_iff_getElem?.1 member
  exact ⟨tag, tagOf?_slots slot⟩

end CodedKind

namespace Widths

theorem lt_two_pow_rowBits (w : Widths) (t : Table) : w.rows t < 2 ^ w.rowBits t := by
  rw [rows, rowBits]
  cases w.rows? t with
  | none => decide
  | some n =>
    cases n with
    | zero => decide
    | succ n => exact Nat.lt_log2_self

theorem two_pow_rowBits_le {w : Widths} {t : Table} {bits : Nat} (many : bits < w.rowBits t)
    (positive : 0 < bits) : 2 ^ bits ≤ w.rows t := by
  rw [rows]
  rw [rowBits] at many
  cases count : w.rows? t with
  | none => simp [count, bitsFor] at many
  | some n =>
    rw [count] at many
    cases n with
    | zero =>
      have one : bits < 1 := many
      omega
    | succ n =>
      have small : bits ≤ (n + 1).log2 := Nat.lt_succ_iff.1 many
      exact Nat.le_trans (Nat.pow_le_pow_right Nat.two_pos small)
        (Nat.log2_self_le (Nat.succ_ne_zero n))

@[simp] theorem foldl_max_le {bound : Nat} (bits : List Nat) (start : Nat) :
    bits.foldl max start ≤ bound ↔ start ≤ bound ∧ ∀ n ∈ bits, n ≤ bound := by
  induction bits generalizing start with
  | nil => simp
  | cons n bits ih => rw [List.foldl_cons, ih, Nat.max_le, List.forall_mem_cons, and_assoc]

theorem codedBits_le_iff (w : Widths) (kind : CodedKind) :
    w.codedBits kind ≤ 16 ↔
      ∀ t, some t ∈ kind.slots → w.rowBits t + kind.tagBits ≤ 16 := by
  have tag := kind.tagBits_le
  rw [codedBits, ← Nat.le_sub_iff_add_le (by omega), foldl_max_le]
  constructor
  · intro ⟨_, within⟩ t member
    have row := within _ (List.mem_map.2 ⟨some t, member, rfl⟩)
    dsimp only at row
    omega
  · intro within
    refine ⟨Nat.zero_le _, fun n member => ?_⟩
    obtain ⟨slot, there, rfl⟩ := List.mem_map.1 member
    cases slot with
    | none => exact Nat.zero_le _
    | some t =>
      have row := within t there
      dsimp only
      omega

@[simp] theorem codedBytes_eq_two_iff (w : Widths) (kind : CodedKind) :
    w.codedBytes kind = 2 ↔ w.codedBits kind ≤ 16 := by
  rw [codedBytes, bytesFor]
  by_cases wide : 16 < w.codedBits kind
  · simp [wide]
  · simp [wide, Nat.le_of_not_lt wide]

end Widths

section
variable {w : Widths} {kind : CodedKind} {t : Table} {row tag : Nat}

theorem Widths.decode_tagged (tagged : kind.tagOf? t = some tag) (known : row ≤ w.rows t) :
    w.decode kind (row <<< kind.tagBits + tag) = .ok ⟨t, row⟩ := by
  have small : tag < 2 ^ kind.tagBits := Nat.one_shiftLeft kind.tagBits ▸ CodedKind.tagOf?_lt tagged
  have low : (row <<< kind.tagBits + tag) % 1 <<< kind.tagBits = tag := by
    rw [Nat.one_shiftLeft, Nat.shiftLeft_eq, Nat.mul_comm, Nat.mul_add_mod, Nat.mod_eq_of_lt small]
  have high : (row <<< kind.tagBits + tag) >>> kind.tagBits = row := by
    rw [Nat.shiftRight_eq_div_pow, Nat.shiftLeft_eq, Nat.mul_comm,
      Nat.mul_add_div (Nat.two_pow_pos _), Nat.div_eq_of_lt small, Nat.add_zero]
  simp only [decode, low, high, CodedKind.slots_tagOf? tagged, known, if_true]

theorem Widths.of_decode {value : Nat} {c : CodedIndex} (decoded : w.decode kind value = .ok c) :
    ∃ tag, kind.tagOf? c.table = some tag ∧ c.row ≤ w.rows c.table ∧
      value = c.row <<< kind.tagBits + tag := by
  unfold decode at decoded
  dsimp only at decoded
  split at decoded
  next table slot =>
    split at decoded
    next known =>
      cases decoded
      refine ⟨_, CodedKind.tagOf?_slots slot, known, ?_⟩
      rw [Nat.one_shiftLeft, Nat.shiftRight_eq_div_pow, Nat.shiftLeft_eq, Nat.mul_comm,
        Nat.div_add_mod]
    next => cases decoded
  next => cases decoded

theorem CodedIndex.readAt_written {n : Nat} (fits : n < Bytes.span (w.codedBytes kind))
    (before after : List UInt8) :
    readAt w kind (before ++ Bytes.written (w.codedBytes kind) n ++ after).toByteArray
      before.length = (w.decode kind n, before.length + w.codedBytes kind) := by
  rw [readAt, Bytes.readAt_written fits]

theorem CodedIndex.tagged_lt {bits : Nat} (tagged : kind.tagOf? t = some tag)
    (fits : row < 2 ^ bits) : row <<< kind.tagBits + tag < 2 ^ (bits + kind.tagBits) := by
  have small : tag < 2 ^ kind.tagBits := Nat.one_shiftLeft kind.tagBits ▸ CodedKind.tagOf?_lt tagged
  have most := Nat.mul_le_mul_right (2 ^ kind.tagBits) fits
  rw [Nat.succ_mul] at most
  rw [Nat.shiftLeft_eq, Nat.pow_add]
  omega

theorem Widths.rowBits_le_of_fits (fits : w.rows t <<< kind.tagBits + tag < 2 ^ 16) :
    w.rowBits t + kind.tagBits ≤ 16 := by
  have tagBits := kind.tagBits_le
  by_contra narrow
  have wide : 16 - kind.tagBits < w.rowBits t := by omega
  have many := two_pow_rowBits_le wide (by omega)
  have most := Nat.mul_le_mul_right (2 ^ kind.tagBits) many
  rw [← Nat.pow_add, Nat.sub_add_cancel (by omega), ← Nat.shiftLeft_eq] at most
  omega

end

/-- How references of a kind are stored in the columns of a stream. -/
structure Widths.Stores (w : Widths) (kind : CodedKind) : Prop where
  back : ∀ t row, some t ∈ kind.slots → row ≤ w.rows t →
    ∃ n, CodedIndex.encode kind t row = .ok n ∧ w.decode kind n = .ok ⟨t, row⟩ ∧
      n < Bytes.span (w.codedBytes kind) ∧
      ∀ before after : List UInt8,
        CodedIndex.readAt w kind
          (before ++ Bytes.written (w.codedBytes kind) n ++ after).toByteArray before.length =
            (.ok ⟨t, row⟩, before.length + w.codedBytes kind)
  only : ∀ n c, w.decode kind n = .ok c → CodedIndex.encode kind c.table c.row = .ok n
  narrow : w.codedBytes kind = 2 ↔ ∀ t row, some t ∈ kind.slots → row ≤ w.rows t →
    ∃ n, CodedIndex.encode kind t row = .ok n ∧ n < 0x10000

namespace Widths

variable {w : Widths} {kind : CodedKind}

theorem narrow_iff (room : ∀ t, w.rows t < 0x8000000) :
    w.codedBytes kind = 2 ↔ ∀ t row, some t ∈ kind.slots → row ≤ w.rows t →
      ∃ n, CodedIndex.encode kind t row = .ok n ∧ n < 0x10000 := by
  rw [codedBytes_eq_two_iff, codedBits_le_iff]
  constructor
  · intro within t row member known
    obtain ⟨tag, tagged⟩ := CodedKind.tagged_of_mem member
    have own := Nat.lt_of_le_of_lt known (w.lt_two_pow_rowBits t)
    refine ⟨_, CodedIndex.encode_tagged tagged (Nat.lt_of_le_of_lt known (room t)), ?_⟩
    exact Nat.lt_of_lt_of_le (CodedIndex.tagged_lt tagged own)
      (Nat.pow_le_pow_right Nat.two_pos (within t member))
  · intro small t member
    obtain ⟨tag, tagged⟩ := CodedKind.tagged_of_mem member
    obtain ⟨n, encoded, fits⟩ := small t (w.rows t) member (Nat.le_refl _)
    rw [CodedIndex.encode_tagged tagged (room t)] at encoded
    cases encoded
    exact rowBits_le_of_fits fits

theorem lt_span_codedBytes {t : Table} {row n : Nat} (room : ∀ t, w.rows t < 0x8000000)
    (member : some t ∈ kind.slots) (known : row ≤ w.rows t)
    (encoded : CodedIndex.encode kind t row = .ok n) : n < Bytes.span (w.codedBytes kind) := by
  by_cases narrow : w.codedBytes kind = 2
  · obtain ⟨m, same, fits⟩ := (narrow_iff room).1 narrow t row member known
    rw [encoded] at same
    cases same
    rw [narrow]
    exact fits
  · have wide : w.codedBytes kind = 4 := by
      rw [codedBytes, bytesFor] at narrow ⊢
      simpa using narrow
    obtain ⟨tag, tagged⟩ := CodedKind.tagged_of_mem member
    have small : row < 2 ^ 27 := Nat.lt_of_le_of_lt known (room t)
    rw [CodedIndex.encode_tagged tagged small] at encoded
    cases encoded
    rw [wide]
    refine Nat.lt_of_lt_of_le (CodedIndex.tagged_lt tagged small) ?_
    exact Nat.pow_le_pow_right Nat.two_pos (Nat.add_le_add_left kind.tagBits_le 27)

/-- References are stored without loss in the width that the row counts give to their columns. -/
theorem stores_references (w : Widths) (kind : CodedKind) (room : ∀ t, w.rows t < 0x8000000) :
    w.Stores kind where
  back t row member known := by
    obtain ⟨tag, tagged⟩ := CodedKind.tagged_of_mem member
    have encoded := CodedIndex.encode_tagged tagged (Nat.lt_of_le_of_lt known (room t))
    have decoded := decode_tagged tagged known
    have fits := lt_span_codedBytes room member known encoded
    refine ⟨_, encoded, decoded, fits, fun before after => ?_⟩
    rw [CodedIndex.readAt_written fits, decoded]
  only n c decoded := by
    obtain ⟨tag, tagged, known, rfl⟩ := of_decode decoded
    exact CodedIndex.encode_tagged tagged (Nat.lt_of_le_of_lt known (room c.table))
  narrow := narrow_iff room

def filled : Widths := .ofRows [(.typeDef, 0x3FFF), (.methodDef, 0x7FFFFFF)] false false false

theorem stores_references_filled :
    (∀ t, filled.rows t < 0x8000000) ∧ filled.Stores .typeDefOrRef ∧
      filled.codedBytes .typeDefOrRef = 2 ∧ filled.codedBytes .methodDefOrRef = 4 := by
  have room : ∀ t, filled.rows t < 0x8000000 := by
    intro t
    cases t <;> decide
  exact ⟨room, stores_references filled .typeDefOrRef room, by decide, by decide⟩

end Widths

end CliMetadata
