import CliMetadata.Error

set_option autoImplicit false

namespace CliMetadata.Bytes

/-- The number that `width` bytes from an offset spell, low byte first; bytes past the end count
as zero. -/
def number (data : ByteArray) (offset : Nat) : (width : Nat) → Nat
  | 0 => 0
  | width + 1 =>
    (if h : offset < data.size then data[offset].toNat else 0) + 256 * number data (offset + 1) width

theorem number_lt (data : ByteArray) (offset width : Nat) :
    number data offset width < Nat.pow 256 width := by
  induction width generalizing offset with
  | zero => simp [number]
  | succ width ih =>
    have rest := ih (offset + 1)
    have low : (if h : offset < data.size then data[offset].toNat else 0) < 256 := by
      split
      next => exact UInt8.toNat_lt _
      next => decide
    have step : Nat.pow 256 (width + 1) = Nat.pow 256 width * 256 := rfl
    rw [number, step]
    omega

def readAt (data : ByteArray) (offset width : Nat) : Except Error (Nat × Nat) :=
  if offset + width ≤ data.size then .ok (number data offset width, offset + width)
  else .error .outOfBounds

theorem readAt_ok {data : ByteArray} {offset width value next : Nat}
    (h : readAt data offset width = .ok (value, next)) :
    next = offset + width ∧ next ≤ data.size ∧ value = number data offset width := by
  unfold readAt at h
  split at h
  next fits => simp at h; omega
  next => simp at h

def window? (data : ByteArray) (start length : Nat) : Option ByteArray :=
  if start + length ≤ data.size then some (data.extract start (start + length)) else none

def span (width : Nat) : Nat := 1 <<< (8 * width)

def signed (width value : Nat) : Int :=
  if 2 * value < span width then value else (value : Int) - span width

end CliMetadata.Bytes
