import CliMetadata.Proofs.Bytes.Reading

set_option autoImplicit false

namespace CliMetadata

namespace Bytes

def spelled : List UInt8 → Nat
  | [] => 0
  | b :: rest => b.toNat + 256 * spelled rest

def written : (width : Nat) → Nat → List UInt8
  | 0, _ => []
  | width + 1, n => n.toUInt8 :: written width (n / 256)

@[simp] theorem length_written (width n : Nat) : (written width n).length = width := by
  induction width generalizing n with
  | zero => rfl
  | succ width ih => simp [written, ih]

theorem span_succ (width : Nat) : span (width + 1) = 256 * span width := by
  rw [span, span, Nat.shiftLeft_eq, Nat.shiftLeft_eq, Nat.one_mul, Nat.one_mul, Nat.mul_succ,
    Nat.pow_add, Nat.mul_comm]

theorem spelled_written {width n : Nat} (fits : n < span width) :
    spelled (written width n) = n := by
  induction width generalizing n with
  | zero =>
    have zero : n = 0 := Nat.lt_one_iff.1 fits
    simp [written, spelled, zero]
  | succ width ih =>
    rw [span_succ] at fits
    have low : n.toUInt8.toNat = n % 256 := UInt8.toNat_ofNat'
    rw [written, spelled, low, ih (by omega)]
    omega

theorem number_eq (data : ByteArray) (offset width : Nat) :
    number data offset width = spelled ((data.data.toList.drop offset).take width) := by
  induction width generalizing offset with
  | zero => simp [number, spelled]
  | succ width ih =>
    by_cases inside : offset < data.size
    · have within : offset < data.data.toList.length := by simpa using inside
      rw [number, dif_pos inside, ih, List.drop_eq_getElem_cons within, List.take_succ_cons,
        spelled]
      simp [ByteArray.getElem_eq_getElem_data]
    · have beyond : data.data.toList.length ≤ offset := by simpa using inside
      rw [number, dif_neg inside, ih, List.drop_eq_nil_of_le beyond,
        List.drop_eq_nil_of_le (Nat.le_succ_of_le beyond)]
      simp [spelled]

theorem readAt_written {width n : Nat} (fits : n < span width) (before after : List UInt8) :
    readAt (before ++ written width n ++ after).toByteArray before.length width =
      .ok (n, before.length + width) := by
  have size : (before ++ written width n ++ after).toByteArray.size =
      before.length + width + after.length := by
    simp [Nat.add_assoc]
  rw [readAt, if_pos (by omega), number_eq]
  simp [spelled_written fits]

end Bytes

namespace Reader

-- A number without bytes could be read behind the end of the data as well.
theorem takes_number {width : Nat} (wide : 0 < width) : (number width).Takes fun bytes _ n =>
    bytes.length = width ∧ n = Bytes.spelled bytes := by
  intro c value c'
  have there : c.pos + width ≤ c.data.size ↔ width ≤ c.unread.length := by
    simp [Cursor.unread]
    omega
  have read : number width c = if width ≤ c.unread.length then
      .ok (Bytes.spelled (c.unread.take width)) (c.move width) else .error .outOfBounds c := by
    rw [number, Bytes.readAt]
    by_cases fits : width ≤ c.unread.length
    · rw [if_pos (there.2 fits), if_pos fits, Bytes.number_eq]
      rfl
    · rw [if_neg fun inside => fits (there.1 inside), if_neg fits]
  rw [read]
  constructor
  · intro ran
    split at ran
    next fits =>
      cases ran
      have count := List.length_take_of_le fits
      exact ⟨_, _, (List.take_append_drop width c.unread).symm, ⟨count, rfl⟩, by rw [count]⟩
    next => cases ran
  · rintro ⟨bytes, rest, unread, ⟨rfl, rfl⟩, rfl⟩
    simp [unread]

theorem spells_number {width n : Nat} (wide : 0 < width) (fits : n < Bytes.span width) :
    (number width).Spells (Bytes.written width n) n :=
  (takes_number wide).spells fun _ =>
    ⟨Bytes.length_written width n, (Bytes.spelled_written fits).symm⟩

end Reader

end CliMetadata
