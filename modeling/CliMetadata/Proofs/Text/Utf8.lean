import CliMetadata.Text.Unicode

set_option autoImplicit false

namespace CliMetadata.Utf8

theorem toNat_tail (n : Nat) : (UInt8.ofNat (n % 64 + 128)).toNat = n % 64 + 128 := by
  rw [UInt8.toNat_ofNat']
  omega

theorem continued_tail (taken value left n : Nat) (rest : List UInt8) :
    continued taken value (left + 1) (UInt8.ofNat (n % 64 + 128) :: rest) =
      continued (taken + 1) (value * 64 + n % 64) left rest := by
  have tail := toNat_tail n
  have continues : isContinuation (UInt8.ofNat (n % 64 + 128)) = true := by
    simp only [isContinuation, UInt8.le_iff_toNat_le, Bool.and_eq_true, decide_eq_true_eq, tail,
      UInt8.reduceToNat]
    omega
  have bits : payload (UInt8.ofNat (n % 64 + 128)) = n % 64 := by
    rw [payload, tail]
    omega
  rw [continued, continues, bits, if_pos rfl]

-- The second byte is bounded where a shorter form, a surrogate or too great a value would start.
theorem mem_secondRange {b c : UInt8} (least : 0x80 ≤ c.toNat) (greatest : c.toNat ≤ 0xBF)
    (long3 : b.toNat = 0xE0 → 0xA0 ≤ c.toNat) (low : b.toNat = 0xED → c.toNat ≤ 0x9F)
    (long4 : b.toNat = 0xF0 → 0x90 ≤ c.toNat) (high : b.toNat = 0xF4 → c.toNat ≤ 0x8F) :
    (secondRange b).1 ≤ c ∧ c ≤ (secondRange b).2 := by
  simp only [secondRange, beq_iff_eq, ← UInt8.toNat_inj, UInt8.reduceToNat, UInt8.le_iff_toNat_le]
  split
  · exact ⟨long3 ‹_›, greatest⟩
  split
  · exact ⟨least, low ‹_›⟩
  split
  · exact ⟨long4 ‹_›, greatest⟩
  split
  · exact ⟨least, high ‹_›⟩
  · exact ⟨least, greatest⟩

theorem first_one {b : UInt8} (rest : List UInt8) (ascii : b.toNat < 0x80) :
    first b rest = .char (Char.ofNat b.toNat) 0 :=
  if_pos (UInt8.lt_iff_toNat_lt.2 ascii)

theorem first_two {b : UInt8} (rest : List UInt8) (least : 0xC2 ≤ b.toNat)
    (greatest : b.toNat ≤ 0xDF) : first b rest = continued 1 (b.toNat % 32) 1 rest := by
  simp only [first, UInt8.lt_iff_toNat_lt, UInt8.le_iff_toNat_le, UInt8.reduceToNat,
    Bool.and_eq_true, decide_eq_true_eq]
  rw [if_neg (by omega), if_pos ⟨least, greatest⟩]

theorem first_more {b c : UInt8} (rest : List UInt8) (least : 0xE0 ≤ b.toNat)
    (greatest : b.toNat ≤ 0xF4) (second : (secondRange b).1 ≤ c ∧ c ≤ (secondRange b).2) :
    first b (c :: rest) = if b.toNat < 0xF0 then
      continued 2 (b.toNat % 16 * 64 + payload c) 1 rest
    else continued 2 (b.toNat % 8 * 64 + payload c) 2 rest := by
  have notAscii : ¬b < 0x80 := by
    simp only [UInt8.lt_iff_toNat_lt, UInt8.reduceToNat]
    omega
  have notTwo : ¬(decide (0xC2 ≤ b) && decide (b ≤ 0xDF)) = true := by
    simp only [UInt8.le_iff_toNat_le, Bool.and_eq_true, decide_eq_true_eq, UInt8.reduceToNat]
    omega
  have more : (decide (0xE0 ≤ b) && decide (b ≤ 0xF4)) = true := by
    simp only [UInt8.le_iff_toNat_le, Bool.and_eq_true, decide_eq_true_eq, UInt8.reduceToNat]
    omega
  have fits : (decide ((secondRange b).1 ≤ c) && decide (c ≤ (secondRange b).2)) = true := by
    simpa using second
  rw [first, if_neg notAscii, if_neg notTwo, if_pos more]
  simp only [fits, UInt8.lt_iff_toNat_lt, UInt8.reduceToNat, if_true]

theorem first_encoded (c : Char) (rest : List UInt8) : ∃ b more,
    String.utf8EncodeChar c = b :: more ∧ first b (more ++ rest) = .char c more.length := by
  have valid : c.val.toNat < 0xD800 ∨ 0xDFFF < c.val.toNat ∧ c.val.toNat < 0x110000 := c.valid
  have back : Char.ofNat c.val.toNat = c := Char.ofNat_toNat c
  rw [String.utf8EncodeChar.eq_1]
  generalize c.val.toNat = v at valid back ⊢
  have second := toNat_tail (v / 64)
  have third := toNat_tail (v / 4096)
  have lead (n : Nat) (small : n < 256) : (UInt8.ofNat n).toNat = n := by
    rw [UInt8.toNat_ofNat']
    omega
  by_cases one : v ≤ 127
  · refine ⟨_, [], if_pos one, ?_⟩
    have byte := lead v (by omega)
    rw [first_one _ (by omega), byte, back]
    rfl
  by_cases two : v ≤ 2047
  · refine ⟨_, [_], by rw [if_neg one, if_pos two], ?_⟩
    have byte := lead (v / 64 % 32 + 192) (by omega)
    rw [first_two _ (by omega) (by omega), byte, List.singleton_append, continued_tail, continued,
      show (v / 64 % 32 + 192) % 32 * 64 + v % 64 = v by omega, back]
    rfl
  by_cases three : v ≤ 65535
  · refine ⟨_, [_, _], by rw [if_neg one, if_neg two, if_pos three], ?_⟩
    have byte := lead (v / 4096 % 16 + 224) (by omega)
    have inRange : (secondRange (UInt8.ofNat (v / 4096 % 16 + 224))).1 ≤
        UInt8.ofNat (v / 64 % 64 + 128) ∧ UInt8.ofNat (v / 64 % 64 + 128) ≤
        (secondRange (UInt8.ofNat (v / 4096 % 16 + 224))).2 := by
      apply mem_secondRange <;> omega
    rw [List.cons_append, List.singleton_append, first_more _ (by omega) (by omega) inRange,
      if_pos (by omega), byte, continued_tail, continued, payload, second,
      show ((v / 4096 % 16 + 224) % 16 * 64 + (v / 64 % 64 + 128) % 64) * 64 + v % 64 = v by omega,
      back]
    rfl
  · refine ⟨_, [_, _, _], by rw [if_neg one, if_neg two, if_neg three], ?_⟩
    have byte := lead (v / 262144 % 8 + 240) (by omega)
    have inRange : (secondRange (UInt8.ofNat (v / 262144 % 8 + 240))).1 ≤
        UInt8.ofNat (v / 4096 % 64 + 128) ∧ UInt8.ofNat (v / 4096 % 64 + 128) ≤
        (secondRange (UInt8.ofNat (v / 262144 % 8 + 240))).2 := by
      apply mem_secondRange <;> omega
    rw [List.cons_append, List.cons_append, List.singleton_append,
      first_more _ (by omega) (by omega) inRange, if_neg (by omega), byte, continued_tail,
      continued_tail, continued, payload, third,
      show (((v / 262144 % 8 + 240) % 8 * 64 + (v / 4096 % 64 + 128) % 64) * 64 +
        v / 64 % 64) * 64 + v % 64 = v by omega, back]
    rfl

theorem decodeFrom_encoded (text read : List Char) (position : Nat) :
    decodeFrom read position (text.flatMap String.utf8EncodeChar) = .ok (read.reverse ++ text) := by
  induction text generalizing read position with
  | nil => simp [decodeFrom]
  | cons c text ih =>
    obtain ⟨b, more, encoded, spelt⟩ := first_encoded c (text.flatMap String.utf8EncodeChar)
    rw [List.flatMap_cons, encoded, List.cons_append, decodeFrom, spelt]
    simp [ih]

theorem lossyFrom_encoded (text read : List Char) :
    lossyFrom read (text.flatMap String.utf8EncodeChar) = read.reverse ++ text := by
  induction text generalizing read with
  | nil => simp [lossyFrom]
  | cons c text ih =>
    obtain ⟨b, more, encoded, spelt⟩ := first_encoded c (text.flatMap String.utf8EncodeChar)
    rw [List.flatMap_cons, encoded, List.cons_append, lossyFrom, spelt]
    simp [ih]

theorem bytes_eq (text : String) :
    text.toByteArray.data.toList = text.toList.flatMap String.utf8EncodeChar := by
  rw [← String.ofList_toList (s := text), String.toByteArray_ofList, List.utf8Encode]
  simp

theorem decode_toByteArray (text : String) :
    decode text.toByteArray.data.toList = .ok text := by
  rw [bytes_eq, decode, decodeFrom_encoded]
  simp [Except.map]

theorem decodeLossy_toByteArray (text : String) :
    decodeLossy text.toByteArray.data.toList = text := by
  rw [bytes_eq, decodeLossy, lossyFrom_encoded]
  simp

theorem zero_not_mem_encodeChar {c : Char} (plain : c ≠ '\x00') :
    0 ∉ String.utf8EncodeChar c := by
  have notZero : c.val.toNat ≠ 0 := fun zero => plain (Char.ext (UInt32.toNat_inj.1 zero))
  have valid : c.val.toNat < 0x110000 := by
    have : c.val.toNat < 0xD800 ∨ 0xDFFF < c.val.toNat ∧ c.val.toNat < 0x110000 := c.valid
    omega
  rw [String.utf8EncodeChar.eq_1]
  generalize c.val.toNat = v at notZero valid
  have byte (n : Nat) (some : n % 256 ≠ 0) : (0 : UInt8) ≠ UInt8.ofNat n := by
    intro same
    have := congrArg UInt8.toNat same
    rw [UInt8.toNat_ofNat'] at this
    exact some this.symm
  split
  · simpa only [List.mem_singleton] using byte v (by omega)
  split
  · simp only [List.mem_cons, List.not_mem_nil, or_false, not_or]
    exact ⟨byte _ (by omega), byte _ (by omega)⟩
  split
  · simp only [List.mem_cons, List.not_mem_nil, or_false, not_or]
    exact ⟨byte _ (by omega), byte _ (by omega), byte _ (by omega)⟩
  · simp only [List.mem_cons, List.not_mem_nil, or_false, not_or]
    exact ⟨byte _ (by omega), byte _ (by omega), byte _ (by omega), byte _ (by omega)⟩

theorem zero_not_mem_bytes {text : String} (plain : '\x00' ∉ text.toList) :
    0 ∉ text.toByteArray.data.toList := by
  rw [bytes_eq, List.mem_flatMap]
  rintro ⟨c, member, zero⟩
  exact zero_not_mem_encodeChar (fun same => plain (same ▸ member)) zero

end CliMetadata.Utf8
