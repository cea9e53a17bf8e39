import CliMetadata.Bytes.Compressed
import CliMetadata.Proofs.Bytes.Reading
import CliMetadata.Proofs.Bytes.Writing
import CliMetadata.Proofs.Token

set_option autoImplicit false

namespace CliMetadata

/-- The bytes spell an unsigned number. Numbers have longer forms beside the shortest one. -/
inductive UintForm : List UInt8 → Nat → Prop
  | one {a : UInt8} (low : a.toNat < 0x80) : UintForm [a] a.toNat
  | two {a b : UInt8} (low : 0x80 ≤ a.toNat) (high : a.toNat < 0xC0) :
    UintForm [a, b] ((a.toNat - 0x80) * 0x100 + b.toNat)
  | four {a b c d : UInt8} (low : 0xC0 ≤ a.toNat) (high : a.toNat < 0xE0) :
    UintForm [a, b, c, d]
      ((a.toNat - 0xC0) * 0x1000000 + ((b.toNat * 256 + c.toNat) * 256 + d.toNat))

def IntForm (bytes : List UInt8) (value : Int) : Prop :=
  ∃ raw, UintForm bytes raw ∧
    value = if raw % 2 = 0 then ((raw / 2 : Nat) : Int)
      else (raw / 2 : Nat) - (Reader.signedHalf bytes.length : Int)

def TokenForm (bytes : List UInt8) (t : Token) : Prop :=
  ∃ raw table, UintForm bytes raw ∧ Reader.tokenTable? (raw % 4) = some table ∧
    t = .ofBits table (raw / 4)

theorem UintForm.lt {bytes : List UInt8} {n : Nat} (form : UintForm bytes n) : n < 0x20000000 := by
  cases form with
  | one low => omega
  | @two a b low high =>
    have := b.toNat_lt
    omega
  | @four a b c d low high =>
    have := b.toNat_lt
    have := c.toNat_lt
    have := d.toNat_lt
    omega

theorem UintForm.length_pos {bytes : List UInt8} {n : Nat} (form : UintForm bytes n) :
    0 < bytes.length := by
  cases form <;> simp

theorem IntForm.length_pos {bytes : List UInt8} {value : Int} (form : IntForm bytes value) :
    0 < bytes.length := by
  obtain ⟨raw, form, _⟩ := form
  exact form.length_pos

theorem IntForm.range {bytes : List UInt8} {value : Int} (form : IntForm bytes value) :
    -0x10000000 ≤ value ∧ value < 0x10000000 := by
  obtain ⟨raw, form, rfl⟩ := form
  have small := form.lt
  have half : Reader.signedHalf bytes.length ≤ 0x10000000 := by
    unfold Reader.signedHalf
    split
    · omega
    · split <;> omega
  split <;> omega

namespace Reader

theorem toList_loop (data : ByteArray) (i : Nat) (front : List UInt8) :
    ByteArray.toList.loop data i front = front.reverse ++ data.data.toList.drop i := by
  fun_induction ByteArray.toList.loop data i front with
  | case1 i front inside ih =>
    have within : i < data.data.toList.length := by simpa using inside
    rw [ih, List.drop_eq_getElem_cons within]
    simp [ByteArray.get!, inside]
  | case2 i front outside =>
    have beyond : data.data.toList.length ≤ i := by simpa using outside
    simp [List.drop_eq_nil_of_le beyond]

@[simp] theorem toList_eq (data : ByteArray) : data.toList = data.data.toList := by
  simp [ByteArray.toList, toList_loop]

theorem takes_compressedUint : compressedUint.Takes fun bytes _ n => UintForm bytes n := by
  have composed := Takes.bind takes_byte fun first =>
    Takes.ite (p := first < 0x80) (takes_pure first.toNat) <|
    Takes.ite (p := first < 0xC0)
      (Takes.bind takes_byte fun second => takes_pure
        ((first.toNat - 0x80) * 0x100 + second.toNat)) <|
    Takes.ite (p := first < 0xE0)
      (Takes.bind (takes_bytes 3) fun rest => takes_pure
        ((first.toNat - 0xC0) * 0x1000000 + (rest.toList.foldl (fun n b => n * 256 + b.toNat) 0)))
      (takes_bind_malformed pos fun p => .compressedUint (p - 1) first)
  refine composed.congr ?_
  intro bytes rest n
  have low : (0x80 : UInt8).toNat = 0x80 := rfl
  have middle : (0xC0 : UInt8).toNat = 0xC0 := rfl
  have high : (0xE0 : UInt8).toNat = 0xE0 := rfl
  simp only [UInt8.lt_iff_toNat_lt, toList_eq, low, middle, high]
  constructor
  · rintro ⟨_, back, first, rfl, rfl, branch⟩
    obtain ⟨one, rfl, rfl⟩ | ⟨notOne, branch⟩ := branch
    · exact .one one
    obtain ⟨two, _, _, second, rfl, rfl, rfl, rfl⟩ | ⟨notTwo, branch⟩ := branch
    · exact .two (by omega) two
    obtain ⟨four, taken, _, data, rfl, ⟨count, rfl⟩, rfl, rfl⟩ | ⟨_, impossible⟩ := branch
    · match listed : data.data.toList, count with
      | [b, c, d], _ => simpa [listed] using UintForm.four (by omega) four
    · exact impossible.elim
  · intro form
    cases form with
    | @one a one => exact ⟨[a], [], a, rfl, rfl, .inl ⟨one, rfl, rfl⟩⟩
    | @two a b notOne two =>
      exact ⟨[a], [b], a, rfl, rfl, .inr ⟨by omega, .inl ⟨two, [b], [], b, rfl, rfl, rfl, rfl⟩⟩⟩
    | @four a b c d notTwo four =>
      refine ⟨[a], [b, c, d], a, rfl, rfl, .inr ⟨by omega, .inr ⟨by omega, .inl ⟨four, ?_⟩⟩⟩⟩
      exact ⟨[b, c, d], [], [b, c, d].toByteArray, rfl, ⟨rfl, by simp⟩, rfl, by simp⟩

theorem takes_compressedInt : compressedInt.Takes fun bytes _ value => IntForm bytes value := by
  intro c value c'
  have width (n : Nat) : (c.move n).pos - c.pos = n := by simp [Cursor.move]
  constructor
  · intro ran
    obtain ⟨_, _, ⟨⟩, ran⟩ := bind_ok.1 ran
    obtain ⟨raw, _, read, ran⟩ := bind_ok.1 ran
    obtain ⟨bytes, rest, unread, form, rfl⟩ := (takes_compressedUint _ _ _).1 read
    obtain ⟨_, _, ⟨⟩, ran⟩ := bind_ok.1 ran
    rw [width] at ran
    cases ran
    exact ⟨bytes, rest, unread, ⟨raw, form, rfl⟩, rfl⟩
  · rintro ⟨bytes, rest, unread, ⟨raw, form, rfl⟩, rfl⟩
    refine bind_ok.2 ⟨c.pos, c, rfl, bind_ok.2 ⟨raw, c.move bytes.length, ?_, ?_⟩⟩
    · exact (takes_compressedUint _ _ _).2 ⟨bytes, rest, unread, form, rfl⟩
    · refine bind_ok.2 ⟨(c.move bytes.length).pos, c.move bytes.length, rfl, ?_⟩
      rw [width]
      rfl

theorem takes_tokenOf (raw : Nat) : (tokenOf raw).Takes fun bytes _ t => bytes = [] ∧
    ∃ table, tokenTable? (raw % 4) = some table ∧ t = Token.ofBits table (raw / 4) := by
  unfold tokenOf
  cases tokenTable? (raw % 4) with
  | none => simpa using takes_malformed (α := Token) (.compressedToken raw)
  | some table => simpa using takes_pure (Token.ofBits table (raw / 4))

theorem takes_compressedToken : compressedToken.Takes fun bytes _ t => TokenForm bytes t := by
  apply (Takes.bind takes_compressedUint takes_tokenOf).congr
  intro bytes rest t
  constructor
  · rintro ⟨_, _, raw, rfl, form, rfl, table, named, rfl⟩
    rw [List.append_nil]
    exact ⟨raw, table, form, named, rfl⟩
  · rintro ⟨raw, table, form, named, rfl⟩
    exact ⟨bytes, [], raw, by simp, form, rfl, table, named, rfl⟩

end Reader

namespace Compressed

theorem uint_eq (n : Nat) : uint n =
    if n < 0x80 then .ok [n.toUInt8]
    else if n < 0x4000 then .ok (twoBytes n)
    else if n < 0x20000000 then .ok (fourBytes n)
    else .error (.malformed (.uintRange n)) := by
  simp only [uint, Writer.compressedUint, apply_ite Writer.written]
  rfl

theorem int_eq (value : Int) : int value =
    if -0x40 ≤ value ∧ value < 0x40 then .ok [(rotated 0x40 value).toUInt8]
    else if -0x2000 ≤ value ∧ value < 0x2000 then .ok (twoBytes (rotated 0x2000 value))
    else if -0x10000000 ≤ value ∧ value < 0x10000000 then
      .ok (fourBytes (rotated 0x10000000 value))
    else .error (.malformed (.intRange value)) := by
  simp only [int, Writer.compressedInt, apply_ite Writer.written]
  rfl

@[simp] theorem toNat_toUInt8 (n : Nat) : n.toUInt8.toNat = n % 256 := UInt8.toNat_ofNat'

theorem oneByte_form {n : Nat} (fits : n < 0x80) : UintForm [n.toUInt8] n := by
  have low := toNat_toUInt8 n
  have form := UintForm.one (a := n.toUInt8) (by omega)
  rwa [show n.toUInt8.toNat = n by omega] at form

theorem twoBytes_form {n : Nat} (fits : n < 0x4000) : UintForm (twoBytes n) n := by
  have high := toNat_toUInt8 (0x80 + n / 0x100)
  have low := toNat_toUInt8 n
  have form := UintForm.two (a := (0x80 + n / 0x100).toUInt8) (b := n.toUInt8)
    (by omega) (by omega)
  rwa [show ((0x80 + n / 0x100).toUInt8.toNat - 0x80) * 0x100 + n.toUInt8.toNat = n by omega]
    at form

theorem fourBytes_form {n : Nat} (fits : n < 0x20000000) : UintForm (fourBytes n) n := by
  have top := toNat_toUInt8 (0xC0 + n / 0x1000000)
  have high := toNat_toUInt8 (n / 0x10000)
  have middle := toNat_toUInt8 (n / 0x100)
  have low := toNat_toUInt8 n
  have form := UintForm.four (a := (0xC0 + n / 0x1000000).toUInt8) (b := (n / 0x10000).toUInt8)
    (c := (n / 0x100).toUInt8) (d := n.toUInt8) (by omega) (by omega)
  rwa [show ((0xC0 + n / 0x1000000).toUInt8.toNat - 0xC0) * 0x1000000 +
      (((n / 0x10000).toUInt8.toNat * 256 + (n / 0x100).toUInt8.toNat) * 256 + n.toUInt8.toNat) = n
    by omega] at form

theorem uint_form {n : Nat} (fits : n < 0x20000000) :
    ∃ bytes, uint n = .ok bytes ∧ UintForm bytes n := by
  rw [uint_eq]
  by_cases one : n < 0x80
  · exact ⟨_, if_pos one, oneByte_form one⟩
  by_cases two : n < 0x4000
  · exact ⟨_, by rw [if_neg one, if_pos two], twoBytes_form two⟩
  · exact ⟨_, by rw [if_neg one, if_neg two, if_pos fits], fourBytes_form fits⟩

theorem rotated_lt {half : Nat} {value : Int} (low : -half ≤ value) (high : value < half) :
    rotated half value < 2 * half := by
  unfold rotated
  split <;> omega

theorem eq_of_rotated {half : Nat} {value : Int} (low : -half ≤ value) :
    value = if rotated half value % 2 = 0 then ((rotated half value / 2 : Nat) : Int)
      else (rotated half value / 2 : Nat) - (half : Int) := by
  unfold rotated
  split <;> split <;> omega

theorem int_form {value : Int} (low : -0x10000000 ≤ value) (high : value < 0x10000000) :
    ∃ bytes, int value = .ok bytes ∧ IntForm bytes value := by
  rw [int_eq]
  by_cases one : -0x40 ≤ value ∧ value < 0x40
  · have small : rotated 0x40 value < 0x80 := rotated_lt one.1 one.2
    exact ⟨_, if_pos one, _, oneByte_form small, eq_of_rotated one.1⟩
  by_cases two : -0x2000 ≤ value ∧ value < 0x2000
  · have small : rotated 0x2000 value < 0x4000 := rotated_lt two.1 two.2
    exact ⟨_, by rw [if_neg one, if_pos two], _, twoBytes_form small, eq_of_rotated two.1⟩
  · have small : rotated 0x10000000 value < 0x20000000 := rotated_lt low high
    exact ⟨_, by rw [if_neg one, if_neg two, if_pos ⟨low, high⟩], _, fourBytes_form small,
      eq_of_rotated low⟩

theorem token_eq {t : Token} {tag : Nat} (tagged : tokenTag? t.table? = some tag) :
    token t = uint (t.row * 4 + tag) := by
  rw [token, Writer.compressedToken, tagged, uint]

theorem token_form {t : Token} (named : t.NamesType) :
    ∃ bytes, token t = .ok bytes ∧ TokenForm bytes t := by
  have tagged {table : Table} {tag : Nat} (own : t.table? = some table)
      (tags : tokenTag? (some table) = some tag) (back : Reader.tokenTable? tag = some table)
      (small : tag < 4) : ∃ bytes, token t = .ok bytes ∧ TokenForm bytes t := by
    have row := t.row_lt
    obtain ⟨bytes, written, form⟩ := uint_form (n := t.row * 4 + tag) (by omega)
    refine ⟨bytes, by rw [token_eq (own ▸ tags), written], _, table, form, ?_, ?_⟩
    · rw [show (t.row * 4 + tag) % 4 = tag by omega, back]
    · rw [show (t.row * 4 + tag) / 4 = t.row by omega, Token.ofBits_row own]
  rcases named with own | own | own
  · exact tagged own rfl rfl (by decide)
  · exact tagged own rfl rfl (by decide)
  · exact tagged own rfl rfl (by decide)

end Compressed

end CliMetadata
