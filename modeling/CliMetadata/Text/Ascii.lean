set_option autoImplicit false

namespace CliMetadata.Text

def foldCase (s : String) : List Char := s.toList.map Char.toLower

def equalIgnoringCase (a b : String) : Bool := foldCase a == foldCase b

@[simp] theorem equalIgnoringCase_iff {a b : String} :
    equalIgnoringCase a b = true ↔ foldCase a = foldCase b := by
  simp [equalIgnoringCase]

def isBlank (c : Char) : Bool :=
  let n := c.toNat
  (9 ≤ n && n ≤ 13) || n == 0x20 || n == 0x85 || n == 0xA0 || n == 0x1680 ||
    (0x2000 ≤ n && n ≤ 0x200A) || n == 0x2028 || n == 0x2029 || n == 0x202F || n == 0x205F ||
    n == 0x3000

def trimStart (cs : List Char) : List Char := cs.dropWhile isBlank

def trim (cs : List Char) : List Char := (trimStart (trimStart cs).reverse).reverse

end CliMetadata.Text

namespace CliMetadata.Hex

def padded (width : Nat) (digits : List Char) : String :=
  String.ofList (List.replicate (width - digits.length) '0' ++ digits)

def lower (width n : Nat) : String := padded width (Nat.toDigits 16 n)

def upper (width n : Nat) : String := padded width ((Nat.toDigits 16 n).map Char.toUpper)

def ofBytes (bytes : List UInt8) : String :=
  String.join (bytes.map fun b => lower 2 b.toNat)

def digit? (c : Char) : Option Nat :=
  if '0' ≤ c ∧ c ≤ '9' then some (c.toNat - '0'.toNat)
  else if 'a' ≤ c ∧ c ≤ 'f' then some (c.toNat - 'a'.toNat + 10)
  else if 'A' ≤ c ∧ c ≤ 'F' then some (c.toNat - 'A'.toNat + 10)
  else none

def toNat (text : List Char) : Nat :=
  (text.filterMap digit?).foldl (fun n d => n * 16 + d) 0

def bytesFrom (done : Array UInt8) : List Char → Option (Array UInt8)
  | [] => some done
  | [_] => none
  | high :: low :: rest =>
    match digit? high, digit? low with
    | some h, some l => bytesFrom (done.push (h * 16 + l).toUInt8) rest
    | _, _ => none

def toBytes? (text : String) : Option (List UInt8) :=
  (bytesFrom #[] (text.toList.filter fun c => !c.isWhitespace)).map (·.toList)

end CliMetadata.Hex
