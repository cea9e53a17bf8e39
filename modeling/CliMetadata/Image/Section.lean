import CliMetadata.Image.Field

set_option autoImplicit false

namespace CliMetadata

structure Section where
  name : List UInt8
  longName : Option String
  virtualSize : Nat
  virtualAddress : Nat
  rawSize : Nat
  rawPointer : Nat
  relocationPointer : Nat
  lineNumberPointer : Nat
  relocationCount : Nat
  lineNumberCount : Nat
  characteristics : Nat
  deriving DecidableEq, Repr

namespace Section

def headerSize : Nat := 40

def nameSize : Nat := 8

def widths : List Nat := [8, 4, 4, 4, 4, 4, 4, 2, 2, 4]

def digit64? (c : Char) : Option Nat :=
  if 'A' ≤ c ∧ c ≤ 'Z' then some (c.toNat - 'A'.toNat)
  else if 'a' ≤ c ∧ c ≤ 'z' then some (c.toNat - 'a'.toNat + 26)
  else if '0' ≤ c ∧ c ≤ '9' then some (c.toNat - '0'.toNat + 52)
  else if c = '+' then some 62
  else if c = '/' then some 63
  else none

def number64? (digits : String) : Option Nat :=
  digits.toList.foldl (fun n c => do return (← n) * 64 + (← digit64? c)) (some 0)

def number10 (digits : String) : Except ImageFault Nat :=
  let fault (reason : String) := .error (.sectionNameNumber digits reason)
  let unsigned := match digits.toList with
    | '+' :: rest => if rest.isEmpty then ['+'] else rest
    | cs => cs
  if unsigned.isEmpty then fault "cannot parse integer from empty string"
  else if unsigned.all Char.isDigit then
    .ok (unsigned.foldl (fun n c => n * 10 + (c.toNat - '0'.toNat)) 0)
  else fault "invalid digit found in string"

def longNamePlace? (data : ByteArray) (offset : Nat) : Except ImageFault (Option Nat) := do
  if Bytes.number data offset 1 ≠ '/'.toNat then
    return none
  let name := data.extract offset (offset + nameSize)
  if Bytes.number name 1 1 ≠ '/'.toNat then
    return some (← number10 (← ImageField.text name 1 nameSize))
  let digits ← ImageField.text name 2 nameSize
  match number64? digits with
  | some place => return some place
  | none => throw (.sectionNameBase64 digits)

def read (data : ByteArray) (texts offset : Nat) : Except ImageFault Section := do
  ImageField.fieldsFrom data.size 0 offset widths
  let field (place width : Nat) := Bytes.number data (offset + place) width
  let longName ← match ← longNamePlace? data offset with
    | none => pure none
    | some place => some <$> ImageField.text data (texts + place) data.size
  return {
    name := (data.extract offset (offset + nameSize)).toList
    longName
    virtualSize := field 8 4
    virtualAddress := field 12 4
    rawSize := field 16 4
    rawPointer := field 20 4
    relocationPointer := field 24 4
    lineNumberPointer := field 28 4
    relocationCount := field 32 2
    lineNumberCount := field 34 2
    characteristics := field 36 4 }

def pages (size : Nat) : Nat := (size + 0xFFF) / 0x1000 * 0x1000

def readSize (s : Section) (fileAlignment : Nat) : Nat :=
  if s.rawSize = 0 then 0
  else
    let stop := (s.rawPointer + s.rawSize + fileAlignment - 1) / fileAlignment * fileAlignment
    let read := min (stop - s.rawPointer / 0x200 * 0x200) (pages s.rawSize)
    if s.virtualSize = 0 then read else min read (pages s.virtualSize)

def loaded? (s : Section) (fileAlignment rva : Nat) : Option Nat :=
  if s.virtualAddress ≤ rva ∧ rva < s.virtualAddress + s.readSize fileAlignment then
    some (s.rawPointer + (rva - s.virtualAddress))
  else none

/-- An address mapped over sections; the alignment has to be a power of two. -/
def mapped? (sections : List Section) (fileAlignment rva : Nat) : Option Nat :=
  if fileAlignment = 0 ∨ Nat.pow 2 (Nat.log2 fileAlignment) ≠ fileAlignment then none
  else sections.findSome? (·.loaded? fileAlignment rva)

def display (s : Section) : String :=
  Text.record "SectionTable"
    [("name", "[" ++ ", ".intercalate (s.name.map fun b => toString b.toNat) ++ "]"),
      ("real_name", Text.optional (s.longName.map Text.quoted)),
      ("virtual_size", toString s.virtualSize),
      ("virtual_address", toString s.virtualAddress),
      ("size_of_raw_data", toString s.rawSize),
      ("pointer_to_raw_data", toString s.rawPointer),
      ("pointer_to_relocations", toString s.relocationPointer),
      ("pointer_to_linenumbers", toString s.lineNumberPointer),
      ("number_of_relocations", toString s.relocationCount),
      ("number_of_linenumbers", toString s.lineNumberCount),
      ("characteristics", toString s.characteristics)]

end Section

end CliMetadata
