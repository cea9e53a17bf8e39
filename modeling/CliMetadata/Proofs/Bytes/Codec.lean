import CliMetadata.Proofs.Bytes.Compressed

set_option autoImplicit false

namespace CliMetadata

variable {α : Type}

namespace Writer

theorem appends_compressedUint (n : Nat) : (compressedUint n).Appends :=
  (puts_byte _).appends.ite <| (puts_bytes _).appends.ite <| (puts_bytes _).appends.ite
    (appends_malformed _)

theorem appends_count (length : Nat) : (count length).Appends :=
  (appends_compressedUint _).ite (appends_malformed _)

theorem appends_compressedToken (t : Token) : (compressedToken t).Appends := by
  unfold compressedToken
  split
  next => exact appends_compressedUint _
  next => exact appends_malformed _

theorem appends_compressedInt (value : Int) : (compressedInt value).Appends :=
  (puts_byte _).appends.ite <| (puts_bytes _).appends.ite <| (puts_bytes _).appends.ite
    (appends_malformed _)

end Writer

/-- Each value that fits has a spelling that no shorter one is read like, and the writer puts it
behind every buffer; any other value is refused before anything is written. -/
structure Codec (write : α → Writer Unit) (read : Reader α) (fits : α → Prop) : Prop where
  writes (value : α) : fits value → ∃ bytes : List UInt8,
    (∀ buffer, write value buffer = .ok () (buffer ++ bytes)) ∧
    (∀ before after : List UInt8,
      read { data := (before ++ bytes ++ after).toByteArray, pos := before.length } =
        .ok value
          { data := (before ++ bytes ++ after).toByteArray, pos := before.length + bytes.length }) ∧
    ∀ c c', read c = .ok value c' → c.pos + bytes.length ≤ c'.pos
  refuses (value : α) : ¬fits value → ∀ buffer, ∃ e, write value buffer = .error e buffer

structure EncodesShortest (encode : α → Except Error (List UInt8)) (form : List UInt8 → α → Prop)
    (fits : α → Prop) : Prop where
  encoded (value : α) : fits value → ∃ bytes, encode value = .ok bytes ∧ form bytes value
  least (value : α) (bytes other : List UInt8) : encode value = .ok bytes → form other value →
    bytes.length ≤ other.length
  refused (value : α) : ¬fits value → ∃ e, encode value = .error e

theorem EncodesShortest.codec {write : α → Writer Unit} {read : Reader α}
    {form : List UInt8 → α → Prop} {fits : α → Prop}
    (shortest : EncodesShortest (fun value => (write value).written) form fits)
    (appends : ∀ value, (write value).Appends)
    (takes : read.Takes fun bytes _ value => form bytes value) : Codec write read fits where
  writes value fit := by
    obtain ⟨bytes, encoded, spelled⟩ := shortest.encoded value fit
    refine ⟨bytes, fun buffer => by rw [appends, encoded], fun before after => ?_, ?_⟩
    · let c : Cursor := { data := (before ++ bytes ++ after).toByteArray, pos := before.length }
      have unread : c.unread = bytes ++ after := by simp [c, Cursor.unread]
      exact (takes c value _).2 ⟨bytes, after, unread, spelled, rfl⟩
    · intro c c' ran
      obtain ⟨other, _, _, otherForm, rfl⟩ := (takes c value c').1 ran
      have le := shortest.least value bytes other encoded otherForm
      simpa [Cursor.move] using le
  refuses value unfit buffer := by
    obtain ⟨e, refused⟩ := shortest.refused value unfit
    exact ⟨e, by rw [appends, refused]⟩

theorem EncodesShortest.noLongerThan {write : α → Writer Unit} {form : List UInt8 → α → Prop}
    {fits : α → Prop}
    (shortest : EncodesShortest (fun value => (write value).written) form fits)
    (appends : ∀ value, (write value).Appends) {value : α} (fit : fits value) {bytes : List UInt8}
    (spelled : form bytes value) : (write value).NoLongerThan bytes := by
  obtain ⟨written, encoded, _⟩ := shortest.encoded value fit
  exact ((appends value).puts encoded).noLongerThan
    (shortest.least value written bytes encoded spelled)

theorem UintForm.width {bytes : List UInt8} {n : Nat} (form : UintForm bytes n) :
    bytes.length = 1 ∧ n < 0x80 ∨ bytes.length = 2 ∧ n < 0x4000 ∨ bytes.length = 4 := by
  cases form with
  | one low => exact .inl ⟨rfl, low⟩
  | @two a b low high =>
    have := b.toNat_lt
    exact .inr (.inl ⟨rfl, by omega⟩)
  | four => exact .inr (.inr rfl)

theorem UintForm.length_le {bytes : List UInt8} {n : Nat} (form : UintForm bytes n) :
    bytes.length ≤ 4 := by
  rcases form.width with ⟨wide, _⟩ | ⟨wide, _⟩ | wide <;> omega

theorem IntForm.width {bytes : List UInt8} {value : Int} (form : IntForm bytes value) :
    bytes.length = 1 ∧ -0x40 ≤ value ∧ value < 0x40 ∨
      bytes.length = 2 ∧ -0x2000 ≤ value ∧ value < 0x2000 ∨ bytes.length = 4 := by
  obtain ⟨raw, form, rfl⟩ := form
  rcases form.width with ⟨one, small⟩ | ⟨two, small⟩ | four
  · have half : Reader.signedHalf bytes.length = 0x40 := by rw [one]; rfl
    exact .inl ⟨one, by split <;> omega⟩
  · have half : Reader.signedHalf bytes.length = 0x2000 := by rw [two]; rfl
    exact .inr (.inl ⟨two, by split <;> omega⟩)
  · exact .inr (.inr four)

namespace Compressed

theorem length_le_of_width {one two four : Prop} [Decidable one] [Decidable two] [Decidable four]
    {b : UInt8} {m n : Nat} {defect : Defect} {bytes other : List UInt8}
    (encoded : (if one then .ok [b] else if two then .ok (twoBytes m)
      else if four then .ok (fourBytes n) else .error (.malformed defect) :
        Except Error (List UInt8)) = .ok bytes)
    (width : other.length = 1 ∧ one ∨ other.length = 2 ∧ two ∨ other.length = 4) :
    bytes.length ≤ other.length := by
  split at encoded
  next =>
    cases encoded
    rcases width with ⟨wide, _⟩ | ⟨wide, _⟩ | wide <;> simp [wide]
  next notOne =>
    split at encoded
    next =>
      cases encoded
      rcases width with ⟨_, single⟩ | ⟨wide, _⟩ | wide
      · exact absurd single notOne
      · simp [twoBytes, wide]
      · simp [twoBytes, wide]
    next notTwo =>
      split at encoded
      next =>
        cases encoded
        rcases width with ⟨_, single⟩ | ⟨_, double⟩ | wide
        · exact absurd single notOne
        · exact absurd double notTwo
        · simp [fourBytes, wide]
      next => cases encoded

theorem encodesShortest_uint : EncodesShortest uint UintForm (· < 0x20000000) where
  encoded _ fits := uint_form fits
  least n bytes other encoded form := by
    rw [uint_eq] at encoded
    exact length_le_of_width encoded form.width
  refused n large := by
    refine ⟨.malformed (.uintRange n), ?_⟩
    rw [uint_eq, if_neg (by omega), if_neg (by omega), if_neg large]

theorem encodesShortest_int :
    EncodesShortest int IntForm fun value => -0x10000000 ≤ value ∧ value < 0x10000000 where
  encoded _ fits := int_form fits.1 fits.2
  least value bytes other encoded form := by
    rw [int_eq] at encoded
    exact length_le_of_width encoded form.width
  refused value large := by
    refine ⟨.malformed (.intRange value), ?_⟩
    rw [int_eq, if_neg (by omega), if_neg (by omega), if_neg large]

/-- Unsigned numbers have twenty-nine bits, and signed ones as many with their sign. -/
theorem compressed_codecs :
    Codec Writer.compressedUint Reader.compressedUint (· < 0x20000000) ∧
      Codec Writer.compressedInt Reader.compressedInt
        fun value => -0x10000000 ≤ value ∧ value < 0x10000000 :=
  ⟨encodesShortest_uint.codec Writer.appends_compressedUint Reader.takes_compressedUint,
    encodesShortest_int.codec Writer.appends_compressedInt Reader.takes_compressedInt⟩

end Compressed

end CliMetadata
