import CliMetadata.Bytes.Basic

set_option autoImplicit false

namespace CliMetadata.ImageField

def shortfall (limit offset width : Nat) : ImageFault :=
  if limit ≤ offset then .pastEnd offset else .tooBig width (limit - offset)

def within (limit offset width : Nat) : Except ImageFault Unit :=
  if offset < limit ∧ offset + width ≤ limit then .ok () else .error (shortfall limit offset width)

def number (data : ByteArray) (offset width : Nat) : Except ImageFault Nat := do
  within data.size offset width
  return Bytes.number data offset width

def fieldsFrom (limit start place : Nat) : List Nat → Except ImageFault Unit
  | [] => .ok ()
  | width :: rest => do
    within (limit - start) place width
    fieldsFrom limit start (place + width) rest

def record (limit start place : Nat) (widths : List Nat) : Except ImageFault Unit :=
  if limit ≤ start then .error (.pastEnd place) else fieldsFrom limit start 0 widths

def textEnd (data : ByteArray) (limit position : Nat) : Nat :=
  if h : position < limit ∧ position < data.size then
    if data[position] = 0 then position else textEnd data limit (position + 1)
  else limit
termination_by limit - position

def textOf (data : ByteArray) (start stop limit : Nat) : Except ImageFault String :=
  (Utf8.decode (data.extract start stop).toList).mapError fun _ => .notText (limit - start)

def text (data : ByteArray) (start limit : Nat) : Except ImageFault String :=
  if limit ≤ start then .error (.pastEnd start)
  else textOf data start (textEnd data limit start) limit

def visitTable (data : ByteArray) (width : Nat) (visit : Nat → Except ImageFault Unit)
    (offset : Nat) : Except ImageFault Unit :=
  if _fits : 0 < width ∧ offset + width ≤ data.size then
    let value := Bytes.number data offset width
    if value = 0 then .ok ()
    else
      match visit value with
      | .ok () => visitTable data width visit (offset + width)
      | .error fault => .error fault
  else .error (shortfall data.size offset width)
termination_by data.size - offset

end CliMetadata.ImageField
