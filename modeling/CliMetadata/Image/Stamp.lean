import CliMetadata.Image.Field

set_option autoImplicit false

namespace CliMetadata.Stamp

def stubStart : Nat := 0x40

def closing : Nat := 0x68636952

def opening : Nat := 0x536E6144

def wordPlaces (place limit width : Nat) : List Nat :=
  (List.range (limit + 1 - place - width)).map (place + ·)

def check (data : ByteArray) (header : Nat) : Except ImageFault Unit := do
  if header < stubStart then
    throw (.stubRange stubStart header)
  let word (place : Nat) := Bytes.number data place 4
  match (wordPlaces stubStart header 8).find? (word · = closing) with
  | none => return
  | some close =>
    let key := word (close + 4)
    match (wordPlaces stubStart header 4).find? fun place => Nat.xor (word place) key = opening with
    | none => throw .stampUnopened
    | some start =>
      let first := start + 4
      if close ≤ first then
        throw (.stampOpening (first - stubStart) (close - stubStart))
      if (close - first) % 4 ≠ 0 then
        throw (.tooBig 4 ((close - first) % 4))

end CliMetadata.Stamp
