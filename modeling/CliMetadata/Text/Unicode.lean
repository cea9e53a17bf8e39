set_option autoImplicit false

namespace CliMetadata.Utf8

structure Fault where
  start : Nat
  length : Option Nat
  deriving DecidableEq, Repr

def Fault.message (f : Fault) : String :=
  match f.length with
  | some n => s!"invalid utf-8 sequence of {n} bytes from index {f.start}"
  | none => s!"incomplete utf-8 byte sequence from index {f.start}"

/-- What a byte and its successors spell: a character with the count of successors it takes,
a sequence of `length` bytes that is ill-formed, or the start of a sequence that the text cuts. -/
inductive Piece
  | char (c : Char) (more : Nat)
  | bad (length : Nat)
  | cut

def isContinuation (b : UInt8) : Bool := 0x80 ≤ b && b ≤ 0xBF

def payload (b : UInt8) : Nat := b.toNat % 64

def secondRange (b : UInt8) : UInt8 × UInt8 :=
  if b == 0xE0 then (0xA0, 0xBF)
  else if b == 0xED then (0x80, 0x9F)
  else if b == 0xF0 then (0x90, 0xBF)
  else if b == 0xF4 then (0x80, 0x8F)
  else (0x80, 0xBF)

def continued (taken : Nat) (value : Nat) : Nat → List UInt8 → Piece
  | 0, _ => .char (Char.ofNat value) (taken - 1)
  | _ + 1, [] => .cut
  | n + 1, b :: rest =>
    if isContinuation b then continued (taken + 1) (value * 64 + payload b) n rest
    else .bad taken

def first (b : UInt8) (rest : List UInt8) : Piece :=
  if b < 0x80 then .char (Char.ofNat b.toNat) 0
  else if 0xC2 ≤ b && b ≤ 0xDF then continued 1 (b.toNat % 32) 1 rest
  else if 0xE0 ≤ b && b ≤ 0xF4 then
    match rest with
    | [] => .cut
    | c :: rest =>
      let (low, high) := secondRange b
      if low ≤ c && c ≤ high then
        if b < 0xF0 then continued 2 (b.toNat % 16 * 64 + payload c) 1 rest
        else continued 2 (b.toNat % 8 * 64 + payload c) 2 rest
      else .bad 1
  else .bad 1

def decodeFrom (read : List Char) (position : Nat) : List UInt8 → Except Fault (List Char)
  | [] => .ok read.reverse
  | b :: rest =>
    match first b rest with
    | .char c more => decodeFrom (c :: read) (position + 1 + more) (rest.drop more)
    | .bad n => .error ⟨position, some n⟩
    | .cut => .error ⟨position, none⟩
termination_by bytes => bytes.length

def decode (bytes : List UInt8) : Except Fault String :=
  (decodeFrom [] 0 bytes).map String.ofList

def lossyFrom (read : List Char) : List UInt8 → List Char
  | [] => read.reverse
  | b :: rest =>
    match first b rest with
    | .char c more => lossyFrom (c :: read) (rest.drop more)
    | .bad n => lossyFrom ('\uFFFD' :: read) (rest.drop (n - 1))
    | .cut => ('\uFFFD' :: read).reverse
termination_by bytes => bytes.length

def decodeLossy (bytes : List UInt8) : String := String.ofList (lossyFrom [] bytes)

end CliMetadata.Utf8

namespace CliMetadata.Utf16

def isHigh (u : UInt16) : Bool := 0xD800 ≤ u && u ≤ 0xDBFF
def isLow (u : UInt16) : Bool := 0xDC00 ≤ u && u ≤ 0xDFFF

def pair (high low : UInt16) : Char :=
  Char.ofNat (0x10000 + (high.toNat - 0xD800) * 0x400 + (low.toNat - 0xDC00))

def lossyChars : List UInt16 → List Char
  | [] => []
  | [u] => if isHigh u || isLow u then ['\uFFFD'] else [Char.ofNat u.toNat]
  | u :: v :: rest =>
    if isHigh u then
      if isLow v then pair u v :: lossyChars rest else '\uFFFD' :: lossyChars (v :: rest)
    else if isLow u then '\uFFFD' :: lossyChars (v :: rest)
    else Char.ofNat u.toNat :: lossyChars (v :: rest)

def decodeLossy (us : List UInt16) : String := String.ofList (lossyChars us)

def units : List UInt8 → List UInt16
  | low :: high :: rest => (low.toUInt16 ||| (high.toUInt16 <<< 8)) :: units rest
  | _ => []

end CliMetadata.Utf16
