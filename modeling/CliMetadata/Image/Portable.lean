import CliMetadata.Image.Section
import CliMetadata.Image.Stamp

set_option autoImplicit false

namespace CliMetadata

structure DataDirectory where
  rva : Nat
  size : Nat
  deriving DecidableEq, Repr

structure OptionalHeader where
  wide : Bool
  imageBase : Nat
  fileAlignment : Nat
  directories : List (Option DataDirectory)
  deriving Repr

structure Portable where
  machine : Nat
  optional : Option OptionalHeader
  sections : List Section
  deriving Repr

namespace OptionalHeader

def maxDirectories : Nat := 16

def directory? (h : OptionalHeader) (place : Nat) : Option DataDirectory :=
  (h.directories[place]?).join

def clr? (h : OptionalHeader) : Option DataDirectory := h.directory? 14

def standardWidths (wide : Bool) : List Nat :=
  [2, 1, 1, 4, 4, 4, 4, 4] ++ if wide then [] else [4]

def systemWidths (wide : Bool) : List Nat :=
  let address := if wide then 8 else 4
  [address, 4, 4, 2, 2, 2, 2, 2, 2, 4, 4, 4, 4, 2, 2, address, address, address, address, 4, 4]

def directory (data : ByteArray) (start place : Nat) : Except ImageFault (Option DataDirectory) := do
  let offset := start + place
  ImageField.record data.size offset place [4, 4]
  let rva := Bytes.number data offset 4
  let size := Bytes.number data (offset + 4) 4
  return if rva = 0 ∧ size = 0 then none else some ⟨rva, size⟩

def read (data : ByteArray) (start : Nat) : Except ImageFault OptionalHeader := do
  ImageField.record data.size start start [2]
  let magic := Bytes.number data start 2
  if magic ≠ 0x10B ∧ magic ≠ 0x20B then
    throw (.optionalMagic magic)
  let wide := magic = 0x20B
  ImageField.record data.size start 0 (standardWidths wide)
  let standardSize := if wide then 24 else 28
  ImageField.record data.size (start + standardSize) standardSize (systemWidths wide)
  let first := if wide then 112 else 96
  let count := Bytes.number data (start + first - 4) 4
  if maxDirectories < count then
    throw (.directoryCount count maxDirectories)
  let directories ← (List.range count).mapM fun i => directory data start (first + 8 * i)
  return {
    wide
    imageBase := Bytes.number data (start + standardSize) (if wide then 8 else 4)
    fileAlignment := Bytes.number data (start + 36) 4
    directories }

end OptionalHeader

namespace Portable

def dosPlaces : List Nat := [2, 4, 6, 8, 10, 12, 14, 16, 18, 20, 22, 24, 26, 36, 38]

def headerOffset (data : ByteArray) : Except ImageFault Nat := do
  if data.size < 2 then
    throw .noDosSignature
  let dosSignature := Bytes.number data 0 2
  if dosSignature ≠ 0x5A4D then
    throw (.dosSignature dosSignature)
  for place in dosPlaces do
    ImageField.within data.size place 2
  if data.size < 0x40 then
    throw .noHeaderPointer
  let pointer := Bytes.number data 0x3C 4
  if data.size < pointer + 4 then
    throw (.noSignature pointer)
  let signature := Bytes.number data pointer 4
  if signature ≠ 0x4550 then
    throw (.signature signature)
  Stamp.check data pointer
  return pointer + 4

def fileHeaderWidths : List Nat := [2, 2, 4, 4, 4, 2, 2]

def symbolSize : Nat := 18

def read (data : ByteArray) : Except ImageFault Portable := do
  let start ← headerOffset data
  ImageField.record data.size start start fileHeaderWidths
  let sectionCount := Bytes.number data (start + 2) 2
  let symbols := Bytes.number data (start + 8) 4
  let symbolCount := Bytes.number data (start + 12) 4
  let optionalSize := Bytes.number data (start + 16) 2
  let optionalStart := start + 20
  let optional ←
    if optionalSize = 0 then pure none else some <$> OptionalHeader.read data optionalStart
  if data.size / Section.headerSize < sectionCount then
    throw (.sectionCount sectionCount)
  let table := optionalStart + optionalSize
  let sections ← (List.range sectionCount).mapM fun i =>
    Section.read data (symbols + symbolSize * symbolCount) (table + Section.headerSize * i)
  return { machine := Bytes.number data start 2, optional, sections }

end Portable

end CliMetadata
