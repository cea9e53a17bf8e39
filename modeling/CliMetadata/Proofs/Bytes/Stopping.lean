import CliMetadata.Proofs.Bytes.Compressed

set_option autoImplicit false

namespace CliMetadata

inductive UintFault : List UInt8 → List UInt8 → Prop
  | nothing : UintFault [] []
  | two {a : UInt8} (low : 0x80 ≤ a.toNat) (high : a.toNat < 0xC0) : UintFault [a] []
  | four {a : UInt8} {rest : List UInt8} (low : 0xC0 ≤ a.toNat) (high : a.toNat < 0xE0)
    (few : rest.length < 3) : UintFault [a] rest
  | reserved {a : UInt8} {rest : List UInt8} (low : 0xE0 ≤ a.toNat) : UintFault [a] rest

inductive TokenFault : List UInt8 → List UInt8 → Prop
  | number {bytes rest : List UInt8} (fault : UintFault bytes rest) : TokenFault bytes rest
  | untagged {bytes rest : List UInt8} {raw : Nat} (spelled : UintForm bytes raw)
    (tag : Reader.tokenTable? (raw % 4) = none) : TokenFault bytes rest

/-- A text that is cut short has been read up to the end of its length, and one that does not decode
as a whole. -/
inductive TextFault : List UInt8 → List UInt8 → Prop
  | length {bytes rest : List UInt8} (fault : UintFault bytes rest) : TextFault bytes rest
  | short {bytes rest : List UInt8} {n : Nat} (counted : UintForm bytes n) (few : rest.length < n) :
    TextFault bytes rest
  | undecoded {length body rest : List UInt8} {fault : Utf8.Fault}
    (counted : UintForm length body.length) (refused : Utf8.decode body = .error fault) :
    TextFault (length ++ body) rest

theorem UintForm.ne_nil {bytes : List UInt8} {n : Nat} (form : UintForm bytes n) : bytes ≠ [] :=
  List.ne_nil_of_length_pos form.length_pos

theorem UintFault.rest_eq_nil {bytes rest : List UInt8} (fault : UintFault bytes rest)
    (nothing : bytes = []) : rest = [] := by
  cases fault with
  | nothing => rfl
  | two | four | reserved => cases nothing

theorem TokenFault.rest_eq_nil {bytes rest : List UInt8} (fault : TokenFault bytes rest)
    (nothing : bytes = []) : rest = [] := by
  cases fault with
  | number fault => exact fault.rest_eq_nil nothing
  | untagged spelled => exact absurd nothing spelled.ne_nil

theorem TextFault.rest_eq_nil {bytes rest : List UInt8} (fault : TextFault bytes rest)
    (nothing : bytes = []) : rest = [] := by
  cases fault with
  | length fault => exact fault.rest_eq_nil nothing
  | short counted => exact absurd nothing counted.ne_nil
  | undecoded counted => exact absurd (List.append_eq_nil_iff.1 nothing).1 counted.ne_nil

namespace Reader

variable {α β : Type}

/-- Where the reader fails, it stands behind bytes that `R` ties to those that are left. -/
def Stops (reader : Reader α) (R : List UInt8 → List UInt8 → Prop) : Prop :=
  ∀ c e c', reader c = .error e c' →
    ∃ bytes rest, c.unread = bytes ++ rest ∧ R bytes rest ∧ c' = c.move bytes.length

def Stays (reader : Reader α) : Prop := ∀ c e c', reader c = .error e c' → c' = c

theorem Stays.stops {reader : Reader α} (stays : reader.Stays) :
    reader.Stops fun bytes _ => bytes = [] := by
  intro c e c' failed
  exact ⟨[], c.unread, rfl, rfl, stays c e c' failed⟩

theorem Stops.weaken {reader : Reader α} {R S : List UInt8 → List UInt8 → Prop}
    (stops : reader.Stops R) (implies : ∀ bytes rest, R bytes rest → S bytes rest) :
    reader.Stops S := by
  intro c e c' failed
  obtain ⟨bytes, rest, unread, holds, moved⟩ := stops c e c' failed
  exact ⟨bytes, rest, unread, implies bytes rest holds, moved⟩

theorem stops_pure {R : List UInt8 → List UInt8 → Prop} (a : α) : Stops (pure a) R := by
  intro c e c' failed
  cases failed

theorem Stops.ite {p : Prop} [Decidable p] {x y : Reader α} {R : List UInt8 → List UInt8 → Prop}
    (yes : p → x.Stops R) (no : ¬p → y.Stops R) : Stops (if p then x else y) R := by
  by_cases holds : p
  · rw [if_pos holds]
    exact yes holds
  · rw [if_neg holds]
    exact no holds

theorem Stops.bind {x : Reader α} {f : α → Reader β} {R : List UInt8 → List UInt8 → α → Prop}
    {S : List UInt8 → List UInt8 → Prop} (takes : x.Takes R) (first : x.Stops S)
    (next : ∀ front a, (f a).Stops fun back rest =>
      R front (back ++ rest) a → S (front ++ back) rest) :
    (x >>= f).Stops S := by
  intro c e c' failed
  obtain failed | ⟨a, middle, ran, failed⟩ := bind_error.1 failed
  · exact first c e c' failed
  · obtain ⟨front, behind, unread, taken, rfl⟩ := (takes c a middle).1 ran
    obtain ⟨back, rest, left, holds, rfl⟩ := next front a _ e c' failed
    rw [Cursor.unread_move_append unread] at left
    subst left
    refine ⟨front ++ back, rest, ?_, holds taken, ?_⟩
    · rw [unread, List.append_assoc]
    · rw [Cursor.move_move, List.length_append]

theorem stays_malformed (defect : Defect) : (malformed defect : Reader α).Stays := by
  intro c e c' failed
  cases failed
  rfl

theorem stays_peek : peek.Stays := by
  intro c e c' failed
  unfold peek at failed
  split at failed <;> cases failed
  rfl

theorem stays_seek (target : Nat) : (seek target).Stays := by
  intro c e c' failed
  unfold seek at failed
  split at failed <;> cases failed
  rfl

theorem stays_advanceBy (step : Nat) : (advanceBy step).Stays := by
  intro c e c' failed
  unfold advanceBy at failed
  split at failed <;> cases failed
  rfl

theorem stays_number (width : Nat) : (number width).Stays := by
  intro c e c' failed
  unfold number at failed
  split at failed <;> cases failed
  rfl

theorem stops_byte : byte.Stops fun bytes rest => bytes = [] ∧ rest = [] := by
  intro c e c' failed
  unfold byte at failed
  rw [Cursor.peek?_eq] at failed
  cases unread : c.unread with
  | nil =>
    rw [unread] at failed
    cases failed
    exact ⟨[], [], rfl, ⟨rfl, rfl⟩, rfl⟩
  | cons first rest =>
    rw [unread] at failed
    cases failed

theorem stops_bytes (length : Nat) :
    (bytes length).Stops fun bytes rest => bytes = [] ∧ rest.length < length := by
  intro c e c' failed
  unfold Reader.bytes at failed
  split at failed
  next => cases failed
  next many =>
    cases failed
    rw [Cursor.remaining_eq, Nat.not_le] at many
    exact ⟨[], c.unread, rfl, ⟨rfl, many⟩, rfl⟩

theorem stops_consumeIf {R : List UInt8 → List UInt8 → Prop} (expected : UInt8) :
    (consumeIf expected).Stops R := by
  intro c e c' failed
  unfold consumeIf at failed
  split at failed <;> cases failed

theorem stops_compressedUint : compressedUint.Stops UintFault := by
  have low : (0x80 : UInt8).toNat = 0x80 := rfl
  have middle : (0xC0 : UInt8).toNat = 0xC0 := rfl
  have high : (0xE0 : UInt8).toNat = 0xE0 := rfl
  refine Stops.bind takes_byte (stops_byte.weaken ?_) fun front first => ?_
  · rintro _ _ ⟨rfl, rfl⟩
    exact .nothing
  simp only [UInt8.lt_iff_toNat_lt, low, middle, high]
  refine Stops.ite (fun _ => stops_pure _) fun notOne => ?_
  refine Stops.ite (fun two => ?_) fun notTwo => ?_
  · refine Stops.bind takes_byte (stops_byte.weaken ?_) fun _ _ => stops_pure _
    rintro _ _ ⟨rfl, rfl⟩ rfl
    exact .two (by omega) two
  refine Stops.ite (fun four => ?_) fun notFour => ?_
  · refine Stops.bind (takes_bytes 3) ((stops_bytes 3).weaken ?_) fun _ _ => stops_pure _
    rintro _ _ ⟨rfl, few⟩ rfl
    exact .four (by omega) four few
  · let refused : Reader Nat := do malformed (.compressedUint ((← pos) - 1) first)
    have stays : refused.Stays := fun c => stays_malformed (.compressedUint (c.pos - 1) first) c
    refine stays.stops.weaken ?_
    rintro _ _ rfl rfl
    exact .reserved (by omega)

theorem stops_compressedInt : compressedInt.Stops UintFault := by
  intro c e c' failed
  obtain ⟨⟨⟩⟩ | ⟨_, _, ⟨⟩, failed⟩ := bind_error.1 failed
  obtain failed | ⟨raw, _, read, failed⟩ := bind_error.1 failed
  · exact stops_compressedUint c e c' failed
  · obtain ⟨⟨⟩⟩ | ⟨_, _, ⟨⟩, ⟨⟩⟩ := bind_error.1 failed

theorem stops_tokenOf (raw : Nat) :
    (tokenOf raw).Stops fun bytes _ => bytes = [] ∧ tokenTable? (raw % 4) = none := by
  unfold tokenOf
  cases tokenTable? (raw % 4) with
  | some table => exact stops_pure _
  | none => exact (stays_malformed _).stops.weaken fun _ _ nothing => ⟨nothing, rfl⟩

theorem stops_compressedToken : compressedToken.Stops TokenFault := by
  refine Stops.bind takes_compressedUint (stops_compressedUint.weaken fun _ _ => .number) ?_
  intro front raw
  refine (stops_tokenOf raw).weaken ?_
  rintro _ _ ⟨rfl, untagged⟩ form
  rw [List.append_nil]
  exact .untagged form untagged

theorem stops_serializedString : serializedString.Stops TextFault := by
  intro c e c' failed
  obtain failed | ⟨isNull, _, tested, failed⟩ := bind_error.1 failed
  · exact stops_consumeIf 0xFF c e c' failed
  obtain ⟨_, _, _, ⟨rfl, rfl⟩ | ⟨rfl, rfl, _⟩, rfl⟩ := (takes_consumeIf _ _ _ _).1 tested
  · cases failed
  obtain failed | ⟨n, _, counted, failed⟩ := bind_error.1 failed
  · exact stops_compressedUint.weaken (fun _ _ => .length) c e c' failed
  obtain ⟨length, behind, unread, form, rfl⟩ := (takes_compressedUint c n _).1 counted
  obtain ⟨⟨⟩⟩ | ⟨start, _, ⟨⟩, failed⟩ := bind_error.1 failed
  obtain failed | ⟨data, _, taken, failed⟩ := bind_error.1 failed
  · obtain ⟨_, rest, left, ⟨rfl, few⟩, rfl⟩ := stops_bytes n _ e c' failed
    rw [Cursor.unread_move_append unread] at left
    subst left
    exact ⟨length, behind, unread, .short form few, rfl⟩
  obtain ⟨body, rest, left, ⟨rfl, held⟩, rfl⟩ := (takes_bytes n _ data _).1 taken
  rw [Cursor.unread_move_append unread] at left
  subst left
  rw [toList_eq, held] at failed
  cases decoded : Utf8.decode body with
  | ok text =>
    rw [decoded] at failed
    cases failed
  | error fault =>
    rw [decoded] at failed
    cases failed
    refine ⟨length ++ body, rest, by rw [unread, List.append_assoc], .undecoded form decoded, ?_⟩
    rw [Cursor.move_move, List.length_append]

end Reader

namespace Cursor

/-- What can be asked of a cursor and may fail. To step over the next byte is `advanceBy 1`. -/
inductive Operation
  | byte
  | number (width : Nat)
  | bytes (length : Nat)
  | peek
  | seek (target : Nat)
  | advanceBy (step : Nat)
  | compressedUint
  | compressedInt
  | compressedToken
  | serializedString

namespace Operation

def Answer : Operation → Type
  | .byte | .peek => UInt8
  | .number _ | .compressedUint => Nat
  | .bytes _ => ByteArray
  | .seek _ | .advanceBy _ => Unit
  | .compressedInt => Int
  | .compressedToken => Token
  | .serializedString => Option String

def run : (operation : Operation) → Reader operation.Answer
  | .byte => Reader.byte
  | .number width => Reader.number width
  | .bytes length => Reader.bytes length
  | .peek => Reader.peek
  | .seek target => Reader.seek target
  | .advanceBy step => Reader.advanceBy step
  | .compressedUint => Reader.compressedUint
  | .compressedInt => Reader.compressedInt
  | .compressedToken => Reader.compressedToken
  | .serializedString => Reader.serializedString

def Composed : Operation → Prop
  | .compressedUint | .compressedInt | .compressedToken | .serializedString => True
  | _ => False

/-- What the operation has read where it fails, in front of what is left. -/
def Fault : Operation → List UInt8 → List UInt8 → Prop
  | .compressedUint | .compressedInt => UintFault
  | .compressedToken => TokenFault
  | .serializedString => TextFault
  | _ => fun bytes _ => bytes = []

theorem stops (operation : Operation) : operation.run.Stops operation.Fault := by
  cases operation with
  | byte => exact Reader.stops_byte.weaken fun _ _ => And.left
  | number width => exact (Reader.stays_number width).stops
  | bytes length => exact (Reader.stops_bytes length).weaken fun _ _ => And.left
  | peek => exact Reader.stays_peek.stops
  | seek target => exact (Reader.stays_seek target).stops
  | advanceBy step => exact (Reader.stays_advanceBy step).stops
  | compressedUint => exact Reader.stops_compressedUint
  | compressedInt => exact Reader.stops_compressedInt
  | compressedToken => exact Reader.stops_compressedToken
  | serializedString => exact Reader.stops_serializedString

theorem Fault.eq_nil {operation : Operation} {bytes rest : List UInt8}
    (fault : operation.Fault bytes rest) (elementary : ¬operation.Composed) : bytes = [] := by
  cases operation with
  | compressedUint | compressedInt | compressedToken | serializedString =>
    exact absurd trivial elementary
  | _ => exact fault

-- A composed operation that has read nothing has found nothing to read.
theorem Fault.rest_eq_nil {operation : Operation} {bytes rest : List UInt8}
    (fault : operation.Fault bytes rest) (composed : operation.Composed) (nothing : bytes = []) :
    rest = [] := by
  cases operation with
  | compressedUint | compressedInt => exact UintFault.rest_eq_nil fault nothing
  | compressedToken => exact TokenFault.rest_eq_nil fault nothing
  | serializedString => exact TextFault.rest_eq_nil fault nothing
  | _ => exact composed.elim

/-- The cursor stands behind what was read, so that the position is kept by elementary operations
and where there was nothing to read. -/
theorem failed_position (operation : Operation) {c c' : Cursor} {e : Error}
    (failed : operation.run c = .error e c') :
    (∃ bytes rest, c.unread = bytes ++ rest ∧ operation.Fault bytes rest ∧
      c' = c.move bytes.length) ∧
    (c'.pos = c.pos ↔ ¬operation.Composed ∨ c.unread = []) := by
  obtain ⟨bytes, rest, unread, fault, rfl⟩ := operation.stops c e c' failed
  refine ⟨⟨bytes, rest, unread, fault, rfl⟩, ?_⟩
  have stayed : (c.move bytes.length).pos = c.pos ↔ bytes = [] := by simp [move]
  rw [stayed]
  constructor
  · intro nothing
    by_cases composed : operation.Composed
    · refine .inr ?_
      rw [unread, nothing, fault.rest_eq_nil composed nothing]
      rfl
    · exact .inl composed
  · rintro (elementary | none)
    · exact fault.eq_nil elementary
    · exact (List.append_eq_nil_iff.1 (unread.symm.trans none)).1

def cutText : ByteArray := [0x03, 0x61, 0x62].toByteArray

theorem failed_position_cutText :
    serializedString.run ⟨cutText, 0⟩ = .error .outOfBounds ⟨cutText, 1⟩ ∧
    (∃ bytes rest, Cursor.unread ⟨cutText, 0⟩ = bytes ++ rest ∧ TextFault bytes rest ∧
      (⟨cutText, 1⟩ : Cursor) = Cursor.move ⟨cutText, 0⟩ bytes.length) ∧
    (1 = 0 ↔ ¬serializedString.Composed ∨ Cursor.unread ⟨cutText, 0⟩ = []) := by
  have failed : serializedString.run ⟨cutText, 0⟩ = .error .outOfBounds ⟨cutText, 1⟩ := rfl
  exact ⟨failed, failed_position serializedString failed⟩

def cutNumber : ByteArray := [0x80].toByteArray

/-- A failed operation does not always leave the position as it was. -/
theorem cutNumber_moved :
    compressedUint.run ⟨cutNumber, 0⟩ = .error .outOfBounds ⟨cutNumber, 1⟩ ∧
    ¬∀ (operation : Operation) (c c' : Cursor) (e : Error),
      operation.run c = .error e c' → c'.pos = c.pos := by
  have failed : compressedUint.run ⟨cutNumber, 0⟩ = .error .outOfBounds ⟨cutNumber, 1⟩ := rfl
  refine ⟨failed, fun law => ?_⟩
  have stayed : 1 = 0 := law compressedUint ⟨cutNumber, 0⟩ ⟨cutNumber, 1⟩ .outOfBounds failed
  cases stayed

end Operation

end Cursor

end CliMetadata
