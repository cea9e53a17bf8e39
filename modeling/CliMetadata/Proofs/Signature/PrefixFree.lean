import CliMetadata.Proofs.Running
import CliMetadata.Proofs.Signature.Format

set_option autoImplicit false

namespace CliMetadata

variable {α : Type}

def PrefixFree (form : List UInt8 → α → Prop) : Prop :=
  ∀ front back a b, form front a → form (front ++ back) b → back = [] ∧ a = b

theorem Reader.Takes.prefixFree {reader : Reader α} {form : List UInt8 → α → Prop}
    (takes : reader.Takes fun bytes _ value => form bytes value) : PrefixFree form := by
  intro front back a b short long
  let c : Cursor := { data := (front ++ back).toByteArray }
  have unread : c.unread = front ++ back := by simp [c]
  have stops := (takes c a _).2 ⟨front, back, unread, short, rfl⟩
  have goesOn := (takes c b _).2 ⟨front ++ back, [], by simpa using unread, long, rfl⟩
  rw [stops] at goesOn
  injection goesOn with same moved
  have length : front.length = (front ++ back).length := by
    simpa [Cursor.move] using congrArg Cursor.pos moved
  refine ⟨List.eq_nil_of_length_eq_zero ?_, same⟩
  rw [List.length_append] at length
  omega

namespace SignatureReader

open Reader

theorem finish_error {c : Cursor} (more : c.unread ≠ []) :
    finish c = .error (.malformed (.signatureTrailing c.remaining c.pos)) c := by
  have run : finish c = (if c.hasMore then
      (do malformed (.signatureTrailing (← remaining) (← pos)) : Reader Unit) else pure ()) c := rfl
  rw [run, if_pos ((Cursor.hasMore_iff c).2 more)]
  rfl

theorem whole_trailing {reader : Nat → Reader α} {form : List UInt8 → α → Prop}
    (takes : (reader levels).Takes fun bytes _ value => form bytes value) {blob extra : ByteArray}
    {value : α} (read : form blob.data.toList value) (some : 0 < extra.size) :
    whole reader (blob ++ extra) = .error (.malformed (.signatureTrailing extra.size blob.size)) := by
  let c : Cursor := { data := blob ++ extra }
  have unread : c.unread = blob.data.toList ++ extra.data.toList := by
    simp [c]
  have ran := (takes c value _).2 ⟨_, _, unread, read, rfl⟩
  have left := Cursor.unread_move_append unread
  have behind : (c.move blob.data.toList.length).remaining = extra.size := by
    rw [Cursor.remaining_eq, left]
    simp
  have stopped : (c.move blob.data.toList.length).pos = blob.size := by simp [c, Cursor.move]
  have more : (c.move blob.data.toList.length).unread ≠ [] := by
    intro nothing
    rw [Cursor.remaining_eq, nothing] at behind
    simp only [List.length_nil] at behind
    omega
  have refused := finish_error more
  rw [behind, stopped] at refused
  refine runOn_error ((bind_after_ok ran _).trans (bind_after_error refused _))

end SignatureReader

namespace SignatureFormat

theorem prefixFree (format : SignatureFormat) :
    PrefixFree (format.Form (TypeForm SignatureReader.levels)) :=
  (format.takes_reader SignatureReader.levels).prefixFree

/-- A blob that is read as a signature is read neither in part nor with anything behind it. -/
theorem read_prefix_free {format : SignatureFormat} {blob : ByteArray} {value : format.Value}
    (read : format.read blob = .ok value) :
    (∀ short rest : ByteArray, blob = short ++ rest → 0 < rest.size →
      ∃ e, format.read short = .error e) ∧
    ∀ extra : ByteArray, 0 < extra.size →
      format.read (blob ++ extra) =
        .error (.malformed (.signatureTrailing extra.size blob.size)) := by
  have form := (format.read_ok blob value).1 read
  constructor
  · rintro short rest rfl some
    cases again : format.read short with
    | error e => exact ⟨e, rfl⟩
    | ok other =>
      rw [read_ok] at again
      rw [ByteArray.data_append, Array.toList_append] at form
      obtain ⟨nothing, _⟩ := format.prefixFree _ _ _ _ again form
      have none : rest.size = 0 := by simpa using congrArg List.length nothing
      omega
  · intro extra some
    rw [read_eq]
    exact SignatureReader.whole_trailing (format.takes_reader _) form some

theorem read_prefix_free_varargs :
    (∃ m, readMethodDef [0x05, 0x02, 0x01, 0x08, 0x41, 0x0E].toByteArray = .ok m) ∧
      (∃ e, readMethodDef [0x05, 0x02, 0x01, 0x08].toByteArray = .error e) ∧
      readMethodDef ([0x05, 0x02, 0x01, 0x08, 0x41, 0x0E].toByteArray ++ [0x08].toByteArray) =
        .error (.malformed (.signatureTrailing 1 6)) := by
  have read : readMethodDef [0x05, 0x02, 0x01, 0x08, 0x41, 0x0E].toByteArray =
      .ok ⟨false, false, 5, 0, ⟨[], false, .primitive .void⟩,
        [⟨[], false, .primitive .i4⟩], [⟨[], false, .primitive .string⟩]⟩ := rfl
  obtain ⟨cut, extended⟩ := @read_prefix_free methodDef _ _ read
  have parts : [0x05, 0x02, 0x01, 0x08, 0x41, 0x0E].toByteArray =
      [0x05, 0x02, 0x01, 0x08].toByteArray ++ [0x41, 0x0E].toByteArray := rfl
  exact ⟨⟨_, read⟩, cut _ _ parts (by decide), extended [0x08].toByteArray (by decide)⟩

end SignatureFormat

end CliMetadata
