import CliMetadata.Proofs.Attribute.Written
import CliMetadata.Proofs.Text.Utf8

set_option autoImplicit false

namespace CliMetadata

theorem UintForm.head_ne {bytes rest : List UInt8} {n : Nat} (form : UintForm bytes n) :
    (bytes ++ rest).head? ≠ some 0xFF := by
  have byte {a : UInt8} (low : a.toNat < 0xE0) : some a ≠ some 0xFF := by
    rintro ⟨rfl⟩
    exact absurd low (by decide)
  cases form with
  | one low => exact byte (by omega)
  | two low high => exact byte (by omega)
  | four low high => exact byte high

inductive TextForm : List UInt8 → Option String → Prop
  | null : TextForm [0xFF] none
  | text {length body : List UInt8} {s : String} (counted : UintForm length body.length)
    (decoded : Utf8.decode body = .ok s) : TextForm (length ++ body) (some s)

theorem TextForm.length_pos {bytes : List UInt8} {text : Option String}
    (form : TextForm bytes text) :
    0 < bytes.length := by
  cases form with
  | null => exact Nat.one_pos
  | text counted decoded =>
    rw [List.length_append]
    exact Nat.add_pos_left counted.length_pos _

namespace Reader

theorem takes_serializedString :
    serializedString.Takes fun bytes _ text => TextForm bytes text := by
  intro c text c'
  constructor
  · intro ran
    obtain ⟨isNull, d, tested, ran⟩ := bind_ok.1 ran
    obtain ⟨_, rest, unread, ⟨rfl, rfl⟩ | ⟨rfl, rfl, _⟩, rfl⟩ := (takes_consumeIf _ _ _ _).1 tested
    · cases ran
      exact ⟨[0xFF], rest, unread, .null, rfl⟩
    · obtain ⟨size, _, counted, ran⟩ := bind_ok.1 ran
      obtain ⟨length, behind, there, form, rfl⟩ := (takes_compressedUint _ _ _).1 counted
      obtain ⟨start, _, ⟨⟩, ran⟩ := bind_ok.1 ran
      obtain ⟨data, _, taken, ran⟩ := bind_ok.1 ran
      obtain ⟨body, after, left, ⟨rfl, rfl⟩, rfl⟩ := (takes_bytes _ _ _ _).1 taken
      rw [Cursor.unread_move_append there] at left
      subst left
      rw [toList_eq] at ran
      cases decoded : Utf8.decode data.data.toList with
      | ok s =>
        rw [decoded] at ran
        cases ran
        exact ⟨length ++ _, after, by rw [List.append_assoc]; exact there, .text form decoded,
          by simp⟩
      | error fault =>
        rw [decoded] at ran
        cases ran
  · rintro ⟨bytes, rest, unread, form, rfl⟩
    cases form with
    | null =>
      exact bind_ok.2 ⟨_, _, (takes_consumeIf 0xFF c true _).2
        ⟨[0xFF], rest, unread, .inl ⟨rfl, rfl⟩, rfl⟩, rfl⟩
    | @text length body s form decoded =>
      rw [List.append_assoc] at unread
      have notNull : consumeIf 0xFF c = .ok false c :=
        (takes_consumeIf 0xFF c false c).2
          ⟨[], c.unread, rfl, .inr ⟨rfl, rfl, unread ▸ form.head_ne⟩, rfl⟩
      have counted := takes_compressedUint.spells (fun _ => form) c _ unread
      have taken : (bytes body.length).Spells body body.toByteArray :=
        (takes_bytes _).spells fun _ => ⟨rfl, by simp⟩
      refine bind_ok.2 ⟨_, c, notNull, bind_ok.2 ⟨_, _, counted, bind_ok.2 ⟨_, _, rfl, ?_⟩⟩⟩
      refine bind_ok.2 ⟨_, _, taken _ rest (Cursor.unread_move_append unread), ?_⟩
      rw [toList_eq, List.data_toByteArray, decoded, Cursor.move_move, List.length_append]
      rfl

theorem spells_text {text : String} (fits : text.utf8ByteSize < 0x20000000) :
    serializedString.Spells (AttributeBlob.textBytes text) (some text) := by
  have size : text.toByteArray.data.toList.length = text.utf8ByteSize := by simp
  have counted : UintForm (Compressed.shortest text.utf8ByteSize)
      text.toByteArray.data.toList.length := by
    rw [size]
    exact Compressed.shortest_form fits
  exact takes_serializedString.spells fun _ => .text counted (Utf8.decode_toByteArray text)

theorem spells_writtenText {text : Option String} (fits : Argument.TextFits text) :
    serializedString.Spells (AttributeBlob.writtenText text) text := by
  cases text with
  | some text => exact spells_text (fits text rfl)
  | none => exact takes_serializedString.spells fun _ => .null

end Reader

open Reader

namespace Scalar

theorem width_pos (value : Scalar) : 0 < value.width := by
  cases value <;> simp [width]

theorem spells_written (value : Scalar) : ∃ reader, reader? value.primitive = some reader ∧
    reader.Spells value.written value := by
  have numbered (f : Nat → Scalar) (back : f value.bits = value) :
      Spells (do return f (← number value.width)) value.written value := by
    have spells := (spells_number value.width_pos value.bits_lt).map f
    rwa [back] at spells
  cases value with
  | boolean value =>
    cases value with
    | false => exact ⟨_, rfl, (spells_byte 0).bind (spells_pure _)⟩
    | true => exact ⟨_, rfl, (spells_byte 1).bind (spells_pure _)⟩
  | char unit => exact ⟨_, rfl, numbered (fun n => .char n.toUInt16) (by simp [bits])⟩
  | i1 value => exact ⟨_, rfl, numbered (fun n => .i1 n.toUInt8.toInt8) (by simp [bits])⟩
  | u1 value => exact ⟨_, rfl, numbered (fun n => .u1 n.toUInt8) (by simp [bits])⟩
  | i2 value => exact ⟨_, rfl, numbered (fun n => .i2 n.toUInt16.toInt16) (by simp [bits])⟩
  | u2 value => exact ⟨_, rfl, numbered (fun n => .u2 n.toUInt16) (by simp [bits])⟩
  | i4 value => exact ⟨_, rfl, numbered (fun n => .i4 n.toUInt32.toInt32) (by simp [bits])⟩
  | u4 value => exact ⟨_, rfl, numbered (fun n => .u4 n.toUInt32) (by simp [bits])⟩
  | i8 value => exact ⟨_, rfl, numbered (fun n => .i8 n.toUInt64.toInt64) (by simp [bits])⟩
  | u8 value => exact ⟨_, rfl, numbered (fun n => .u8 n.toUInt64) (by simp [bits])⟩
  | r4 value => exact ⟨_, rfl, numbered (fun n => .r4 n.toUInt32) (by simp [bits])⟩
  | r8 value => exact ⟨_, rfl, numbered (fun n => .r8 n.toUInt64) (by simp [bits])⟩

end Scalar

namespace AttributeBlob

variable {m : Type → Type} [Monad m] {α β : Type}

def Yields (x : ArgumentReader m α) (bytes : List UInt8) (value : α) : Prop :=
  ∀ c rest, c.unread = bytes ++ rest → x c = pure (value, c.move bytes.length)

theorem yields_pure (a : α) : Yields (pure a : ArgumentReader m α) [] a := fun _ _ _ => rfl

theorem yields_read [MonadExceptOf Error m] {reader : Reader α} {bytes : List UInt8} {value : α}
    (spells : reader.Spells bytes value) :
    Yields (read reader : ArgumentReader m α) bytes value := by
  intro c rest unread
  rw [read, spells c rest unread]

section
variable [LawfulMonad m]

theorem Yields.bind {x : ArgumentReader m α} {f : α → ArgumentReader m β}
    {front back : List UInt8} {a : α} {b : β} (first : Yields x front a)
    (next : Yields (f a) back b) : Yields (x >>= f) (front ++ back) b := by
  intro c rest unread
  rw [List.append_assoc] at unread
  change (x c >>= fun r => f r.1 r.2) = _
  rw [first c _ unread, pure_bind, next _ rest (Cursor.unread_move_append unread),
    Cursor.move_move, List.length_append]

theorem Yields.map {x : ArgumentReader m α} {bytes : List UInt8} {a : α} (yields : Yields x bytes a)
    (f : α → β) : Yields (do return f (← x)) bytes (f a) := by
  simpa using yields.bind (f := fun a => pure (f a)) (yields_pure (f a))

def Ends (x : ArgumentReader m α) (bytes : List UInt8) (value : α) : Prop :=
  ∀ c, c.unread = bytes → ∃ c', x c = pure (value, c')

theorem Yields.ends {x : ArgumentReader m α} {f : α → ArgumentReader m β}
    {front back : List UInt8} {a : α} {b : β} (first : Yields x front a)
    (next : Ends (f a) back b) : Ends (x >>= f) (front ++ back) b := by
  intro c unread
  obtain ⟨c', ran⟩ := next _ (Cursor.unread_move_append unread)
  refine ⟨c', ?_⟩
  change (x c >>= fun r => f r.1 r.2) = _
  rw [first c back unread, pure_bind, ran]

theorem yields_lift {x : m α} {a : α} (found : x = pure a) :
    Yields (liftM x : ArgumentReader m α) [] a := by
  intro c rest unread
  rw [found]
  exact pure_bind a _

theorem yields_times {γ : Type} {x : ArgumentReader m α} {write : γ → List UInt8} {value : γ → α}
    {items : List γ} (each : ∀ item ∈ items, Yields x (write item) (value item)) :
    Yields (times x items.length) (items.flatMap write) (items.map value) := by
  induction items with
  | nil => exact yields_pure _
  | cons item items ih =>
    have first := each item List.mem_cons_self
    have others := ih fun other member => each other (List.mem_cons_of_mem _ member)
    exact first.bind (others.map _)

end

end AttributeBlob

end CliMetadata
