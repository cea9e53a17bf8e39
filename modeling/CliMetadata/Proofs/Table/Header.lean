import CliMetadata.Proofs.Running
import CliMetadata.Proofs.Token
import CliMetadata.Table.Stream
import Mathlib.Data.Nat.Bitwise

set_option autoImplicit false

namespace CliMetadata

namespace TableStream

def mask (data : ByteArray) : Nat := Bytes.number data 8 8

def bitCount (mask : Nat) : Nat := (List.range 64).countP mask.testBit

def namedTables (data : ByteArray) : List Table :=
  Table.all.filter fun t => (mask data).testBit t.number

def count? (data : ByteArray) (t : Table) : Option Nat :=
  if (mask data).testBit t.number then
    some (Bytes.number data (headerBytes + 4 * (namedTables data).idxOf t) 4)
  else none

def widthsOf (data : ByteArray) : Widths where
  rowCounts := (Table.all.map (count? data)).toArray
  largeStrings := (Bytes.number data 6 1).testBit 0
  largeGuids := (Bytes.number data 6 1).testBit 1
  largeBlobs := (Bytes.number data 6 1).testBit 2

end TableStream

namespace Table

@[simp] theorem mask_toNat (t : Table) : t.mask.toNat = 2 ^ t.number := by
  cases t <;> rfl

theorem number_inj {t u : Table} (same : t.number = u.number) : t = u := by
  have found := ofNumber?_number t
  rw [same, ofNumber?_number u] at found
  exact (Option.some.inj found).symm

@[simp] theorem map_number_all : all.map number = List.range count := rfl

theorem nodup_all : all.Nodup := by decide

theorem mem_all (t : Table) : t ∈ all := List.mem_of_getElem? (ofNumber?_number t)

end Table

namespace TableStream

section
variable (data : ByteArray)

theorem mask_lt : mask data < 2 ^ 64 := Bytes.number_lt data 8 8

theorem toNat_mask : (mask data).toUInt64.toNat = mask data :=
  Nat.mod_eq_of_lt (mask_lt data)

@[simp] theorem named_mask (t : Table) :
    named (mask data).toUInt64 t = (mask data).testBit t.number := by
  have bit : ((mask data).toUInt64 &&& t.mask).toNat =
      ((mask data).testBit t.number).toNat * 2 ^ t.number := by
    rw [UInt64.toNat_and, toNat_mask, Table.mask_toNat, Nat.and_two_pow]
  rw [named, bne, Bool.eq_iff_iff, Bool.not_eq_true', beq_eq_false_iff_ne, ne_eq,
    ← UInt64.toNat_inj, bit]
  cases (mask data).testBit t.number <;> simp

theorem tablesOf_mask : tablesOf (mask data).toUInt64 = namedTables data := by
  rw [tablesOf, namedTables]
  exact List.filter_congr fun t _ => named_mask data t

theorem nodup_namedTables : (namedTables data).Nodup := Table.nodup_all.filter _

variable {data}

theorem known_iff : ((mask data).toUInt64 >>> Table.count.toUInt64 != 0) = false ↔
    ∀ bit, Table.count ≤ bit → (mask data).testBit bit = false := by
  have shifted : ((mask data).toUInt64 >>> Table.count.toUInt64).toNat = mask data / 2 ^ 45 := by
    rw [UInt64.toNat_shiftRight, toNat_mask, Nat.shiftRight_eq_div_pow]
    rfl
  have small : ((mask data).toUInt64 >>> Table.count.toUInt64 != 0) = false ↔
      mask data < 2 ^ 45 := by
    rw [bne_eq_false_iff_eq, ← UInt64.toNat_inj, shifted]
    exact Nat.div_eq_zero_iff_lt (Nat.two_pow_pos 45)
  rw [small]
  constructor
  · intro less bit beyond
    exact Nat.testBit_lt_two_pow (Nat.lt_of_lt_of_le less (Nat.pow_le_pow_right (by decide) beyond))
  · exact Nat.lt_pow_two_of_testBit _

theorem length_namedTables (known : ∀ bit, Table.count ≤ bit → (mask data).testBit bit = false) :
    (namedTables data).length = bitCount (mask data) := by
  have rest : ((List.range 19).map (Table.count + ·)).countP (mask data).testBit = 0 := by
    rw [List.countP_eq_zero]
    intro bit member
    obtain ⟨i, _, rfl⟩ := List.mem_map.1 member
    simp [known (Table.count + i) (by omega)]
  have all : List.range 64 = List.range Table.count ++ (List.range 19).map (Table.count + ·) := by
    decide
  rw [bitCount, all, List.countP_append, rest, ← Table.map_number_all, List.countP_map,
    List.countP_eq_length_filter]
  rfl

end

section
variable {data : ByteArray}

theorem readCounts_cons (t : Table) (rest : List Table) (offset : Nat) :
    readCounts data (t :: rest) offset =
      if offset + 4 ≤ data.size then
        (readCounts data rest (offset + 4)).map ((t, Bytes.number data offset 4) :: ·)
      else .error .outOfBounds := by
  rw [readCounts, Bytes.readAt]
  by_cases fits : offset + 4 ≤ data.size
  · simp only [fits, if_true]
    cases further : readCounts data rest (offset + 4) <;> simp [further, bind, Except.bind] <;> rfl
  · simp only [fits, if_false]
    rfl

theorem readCounts_eq {front rest : List Table} (distinct : (front ++ rest).Nodup)
    (fits : headerBytes + 4 * (front ++ rest).length ≤ data.size) :
    readCounts data rest (headerBytes + 4 * front.length) = .ok (rest.map fun t =>
      (t, Bytes.number data (headerBytes + 4 * (front ++ rest).idxOf t) 4)) := by
  induction rest generalizing front with
  | nil => rfl
  | cons t rest ih =>
    have further := @ih (front ++ [t]) (by simpa using distinct) (by simpa using fits)
    rw [List.length_append, List.length_singleton, Nat.mul_add, ← Nat.add_assoc,
      List.append_assoc, List.singleton_append] at further
    have here : headerBytes + 4 * front.length + 4 ≤ data.size := by
      simp only [List.length_append, List.length_cons] at fits
      omega
    have new : t ∉ front := fun member =>
      (List.nodup_append.1 distinct).2.2 t member t List.mem_cons_self rfl
    rw [readCounts_cons, if_pos here, further, List.map_cons, List.idxOf_append, if_neg new,
      List.idxOf_cons_self, Nat.zero_add]
    rfl

theorem counts_fit {tables : List Table} {offset : Nat} {counts : List (Table × Nat)}
    (inside : offset ≤ data.size) (read : readCounts data tables offset = .ok counts) :
    offset + 4 * tables.length ≤ data.size := by
  induction tables generalizing offset counts with
  | nil => simpa using inside
  | cons t rest ih =>
    rw [readCounts_cons] at read
    split at read
    next fits =>
      obtain ⟨others, further, _⟩ := except_map_ok.1 read
      have := ih fits further
      rw [List.length_cons]
      omega
    next => cases read

end

theorem getElem?_rowCounts (f : Table → Nat) (tables : List Table) (counts : Array (Option Nat))
    (u : Table) (inside : u.number < counts.size) :
    ((tables.map fun t => (t, f t)).foldl (fun counts (t, n) => counts.set! t.number (some n))
      counts)[u.number]? = if u ∈ tables then some (some (f u)) else counts[u.number]? := by
  induction tables generalizing counts with
  | nil => rfl
  | cons t rest ih =>
    rw [List.map_cons, List.foldl_cons, ih _ (by simpa using inside)]
    by_cases same : u = t
    · subst same
      simp [inside]
    · have apart : t.number ≠ u.number := fun number => same (Table.number_inj number).symm
      simp [same, apart]

@[simp] theorem size_rowCounts (pairs : List (Table × Nat)) (counts : Array (Option Nat)) :
    (pairs.foldl (fun counts (t, n) => counts.set! t.number (some n)) counts).size =
      counts.size := by
  induction pairs generalizing counts with
  | nil => rfl
  | cons first rest ih =>
    rw [List.foldl_cons, ih]
    simp

theorem ofRows_named (data : ByteArray) :
    Widths.ofRows ((namedTables data).map fun t =>
        (t, Bytes.number data (headerBytes + 4 * (namedTables data).idxOf t) 4))
      (flag (Bytes.number data 6 1) 0) (flag (Bytes.number data 6 1) 1)
      (flag (Bytes.number data 6 1) 2) = widthsOf data := by
  unfold Widths.ofRows widthsOf
  congr 1
  apply Array.ext_getElem?
  intro i
  by_cases table : i < Table.count
  · obtain ⟨t, rfl⟩ : ∃ t : Table, t.number = i :=
      ⟨Table.all[i], Table.number_of_ofNumber? (List.getElem?_eq_getElem table)⟩
    have header : (Table.all.map (count? data)).toArray[t.number]? = some (count? data t) := by
      have found : Table.all[t.number]? = some t := Table.ofNumber?_number t
      rw [List.getElem?_toArray, List.getElem?_map, found, Option.map_some]
    have member : t ∈ namedTables data ↔ (mask data).testBit t.number = true := by
      simp [namedTables, Table.mem_all]
    rw [getElem?_rowCounts _ _ _ t (by simpa using table), header, count?]
    by_cases bit : (mask data).testBit t.number
    · rw [if_pos (member.2 bit), if_pos bit]
    · rw [if_neg (mt member.1 bit), if_neg bit]
      simp [table]
  · have size : (Table.all.map (count? data)).toArray.size = Table.count := by simp [Table.count]
    rw [Array.getElem?_eq_none (by rw [size_rowCounts]; simpa using Nat.le_of_not_lt table),
      Array.getElem?_eq_none (by rw [size]; exact Nat.le_of_not_lt table)]

@[simp] theorem rows?_widthsOf (data : ByteArray) (t : Table) :
    (widthsOf data).rows? t = count? data t := by
  have found : Table.all[t.number]? = some t := Table.ofNumber?_number t
  rw [Widths.rows?, widthsOf]
  simp [Array.getD_eq_getD_getElem?, found]

end TableStream

end CliMetadata
