import CliMetadata.Proofs.Bytes.Compressed
import CliMetadata.Proofs.Bytes.Numbers
import CliMetadata.Storage.StreamHeader

set_option autoImplicit false

namespace CliMetadata.StreamHeader

def nameBytes (h : StreamHeader) : List UInt8 := h.name.toList.map fun c => c.toNat.toUInt8

def written (h : StreamHeader) : List UInt8 :=
  Bytes.written 4 h.offset ++ (Bytes.written 4 h.size ++
    (h.nameBytes ++ List.replicate (4 - h.name.length % 4) 0))

structure Storable (h : StreamHeader) : Prop where
  offset : h.offset < Bytes.span 4
  size : h.size < Bytes.span 4
  ascii : ∀ c ∈ h.name.toList, c.toNat < 0x80
  plain : '\x00' ∉ h.name.toList
  short : h.name.length ≤ 31

-- The end of a stream has to be a number of four bytes too, also in more data than that.
def InReach (h : StreamHeader) (bytes : Nat) : Prop :=
  h.offset + h.size < 0x100000000 ∧ h.offset + h.size ≤ bytes

@[simp] theorem length_nameBytes (h : StreamHeader) : h.nameBytes.length = h.name.length := by
  simp [nameBytes, String.length_toList]

@[simp] theorem length_written (h : StreamHeader) : h.written.length = h.encodedSize := by
  simp [written, encodedSize]
  omega

namespace Storable

variable {h : StreamHeader} (storable : h.Storable)
include storable

theorem toNat_byte {c : Char} (member : c ∈ h.name.toList) : c.toNat.toUInt8.toNat = c.toNat := by
  have := storable.ascii c member
  simp
  omega

theorem nameBytes_ne_zero : ∀ b ∈ h.nameBytes, (b != 0) = true := by
  intro b member
  obtain ⟨c, inside, rfl⟩ := List.mem_map.1 member
  rw [bne_iff_ne]
  intro zero
  have code := storable.toNat_byte inside
  rw [zero] at code
  have nul : c = '\x00' := Char.ext (UInt32.toNat_inj.1 code.symm)
  exact storable.plain (nul ▸ inside)

theorem nameBytes_ascii : h.nameBytes.all (· < 0x80) = true := by
  rw [List.all_eq_true]
  intro b member
  obtain ⟨c, inside, rfl⟩ := List.mem_map.1 member
  have small := storable.ascii c inside
  rw [decide_eq_true_iff, UInt8.lt_iff_toNat_lt, storable.toNat_byte inside]
  exact small

theorem name_nameBytes :
    String.ofList (h.nameBytes.map fun b => Char.ofNat b.toNat) = h.name := by
  have same : (h.nameBytes.map fun b => Char.ofNat b.toNat) = h.name.toList.map id := by
    rw [nameBytes, List.map_map]
    refine List.map_congr_left fun c member => ?_
    rw [Function.comp_apply, storable.toNat_byte member, Char.ofNat_toNat, id]
  rw [same, List.map_id, String.ofList_toList]

-- The name ends at the first NUL, which stands among the bytes that are searched for it.
theorem takeWhile_area (rest : List UInt8) :
    let area := (h.nameBytes ++ (List.replicate (4 - h.name.length % 4) 0 ++ rest)).take nameLimit
    area.takeWhile (· != 0) = h.nameBytes ∧ h.nameBytes.length < area.length := by
  have short := storable.short
  obtain ⟨more, padding⟩ : ∃ more, 4 - h.name.length % 4 = more + 1 := ⟨3 - h.name.length % 4, by omega⟩
  obtain ⟨room, limit⟩ : ∃ room, nameLimit - h.nameBytes.length = room + 1 :=
    ⟨31 - h.name.length, by simp [nameLimit]; omega⟩
  have fits : h.nameBytes.length ≤ nameLimit := by omega
  rw [padding, List.replicate_succ, List.cons_append, List.take_append, List.take_of_length_le fits,
    limit, List.take_succ_cons]
  refine ⟨?_, by simp⟩
  rw [List.takeWhile_append_of_pos storable.nameBytes_ne_zero]
  simp

theorem readAt_written {c : Cursor} {rest : List UInt8} (unread : c.unread = h.written ++ rest) :
    readAt c.data c.pos = .ok h := by
  have front := storable.offset
  have sized := storable.size
  have length : c.unread.length = h.encodedSize + rest.length := by
    simp [unread]
  have enough : ¬c.data.size < c.pos + 9 := by
    have : c.unread.length = c.data.size - c.pos := by simp [Cursor.unread]
    rw [encodedSize] at length
    omega
  have offset : Bytes.number c.data c.pos 4 = h.offset := by
    rw [Bytes.number_eq]
    change Bytes.spelled (c.unread.take 4) = _
    rw [unread, written, List.append_assoc, List.take_left' (Bytes.length_written 4 _),
      Bytes.spelled_written front]
  have size : Bytes.number c.data (c.pos + 4) 4 = h.size := by
    rw [Bytes.number_eq, ← List.drop_drop]
    change Bytes.spelled ((c.unread.drop 4).take 4) = _
    rw [unread, written, List.append_assoc, List.drop_left' (Bytes.length_written 4 _),
      List.append_assoc, List.take_left' (Bytes.length_written 4 _), Bytes.spelled_written sized]
  have area : (c.data.extract (c.pos + 8) (c.pos + 8 + nameLimit)).toList =
      (h.nameBytes ++ (List.replicate (4 - h.name.length % 4) 0 ++ rest)).take nameLimit := by
    have behind : c.unread.drop 8 =
        h.nameBytes ++ (List.replicate (4 - h.name.length % 4) 0 ++ rest) := by
      rw [unread, written]
      simp [List.drop_append]
    rw [← behind, Reader.toList_eq]
    simp [Cursor.unread, List.take_drop, List.drop_drop, Nat.add_comm]
  obtain ⟨name, shorter⟩ := storable.takeWhile_area rest
  rw [readAt, if_neg enough]
  simp only [area, name]
  rw [if_neg (Nat.ne_of_lt shorter), if_pos storable.nameBytes_ascii, storable.name_nameBytes, offset,
    size]

end Storable

end CliMetadata.StreamHeader
