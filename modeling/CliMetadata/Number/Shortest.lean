/-!
The shortest decimal text of a binary floating-point number. A number is taken apart into the
integer `mantissa` at a power of two, together with the distances to the ends of the interval of
reals that read back as it. `shortest` takes the decimal grid with the fewest digits that has a
point in this interval, and of two such points the nearer. The text is positional and never has an
exponent.
-/

set_option autoImplicit false

namespace CliMetadata.Shortest

/-- A positive number `mantissa * 2 ^ exponent` and its interval: `below` and `above` count in the
same unit, and the ends belong to the interval if `closed`. -/
structure Interval where
  mantissa : Nat
  below : Nat
  above : Nat
  exponent : Int
  closed : Bool

structure Format where
  fractionBits : Nat
  exponentBits : Nat

def single : Format := ⟨23, 8⟩
def double : Format := ⟨52, 11⟩

inductive Class
  | nan
  | infinite (negative : Bool)
  | zero (negative : Bool)
  | finite (negative : Bool) (interval : Interval)

/-- The number that a bit pattern stands for. Next to a power of two the lower neighbour is nearer,
which the unit of a quarter allows for. -/
def Format.classify (f : Format) (bits : Nat) : Class :=
  let fraction := bits % (1 <<< f.fractionBits)
  let biased := (bits >>> f.fractionBits) % (1 <<< f.exponentBits)
  let negative := bits.testBit (f.fractionBits + f.exponentBits)
  let bias := (1 <<< (f.exponentBits - 1)) - 1 + f.fractionBits
  if biased == (1 <<< f.exponentBits) - 1 then
    if fraction == 0 then .infinite negative else .nan
  else if biased == 0 then
    if fraction == 0 then .zero negative
    else .finite negative ⟨fraction * 2, 1, 1, -bias, true⟩
  else
    let mantissa := fraction + (1 <<< f.fractionBits)
    let exponent : Int := (biased : Int) - bias
    if fraction == 0 then .finite negative ⟨mantissa * 4, 1, 2, exponent - 2, true⟩
    else .finite negative ⟨mantissa * 2, 1, 1, exponent - 1, mantissa % 2 == 0⟩

def scaled (units : Nat) (exponent : Int) : Nat × Nat :=
  if 0 ≤ exponent then (units <<< exponent.toNat, 1) else (units, 1 <<< (-exponent).toNat)

def tenPower (n : Nat) : Nat := Nat.pow 10 n

def magnitude (num den : Nat) : Int :=
  let guess : Int := (Nat.toDigits 10 num).length - (Nat.toDigits 10 den).length
  let reaches (k : Int) : Bool :=
    if 0 ≤ k then num < den * tenPower k.toNat else num * tenPower (-k).toNat < den
  if reaches guess then (if reaches (guess - 1) then guess - 1 else guess) else guess + 1

structure Decimal where
  digits : Nat
  exponent : Int

def Decimal.over (d : Decimal) (den : Nat) : Nat × Nat :=
  if 0 ≤ d.exponent then (d.digits * tenPower d.exponent.toNat * den, 1)
  else (d.digits * den, tenPower (-d.exponent).toNat)

def Interval.contains (i : Interval) (d : Decimal) : Bool :=
  let (low, den) := scaled (i.mantissa - i.below) i.exponent
  let (high, _) := scaled (i.mantissa + i.above) i.exponent
  let (value, unit) := d.over den
  if i.closed then low * unit ≤ value && value ≤ high * unit
  else low * unit < value && value < high * unit

def Interval.point? (i : Interval) (count : Nat) : Option Decimal :=
  let (num, den) := scaled i.mantissa i.exponent
  let exponent := magnitude num den - count
  let (gridNum, gridDen) :=
    if 0 ≤ exponent then (num, den * tenPower exponent.toNat)
    else (num * tenPower (-exponent).toNat, den)
  let lower : Decimal := ⟨gridNum / gridDen, exponent⟩
  let upper : Decimal := ⟨gridNum / gridDen + 1, exponent⟩
  match i.contains lower, i.contains upper with
  | true, true => some (if 2 * (gridNum % gridDen) < gridDen then lower else upper)
  | true, false => some lower
  | false, true => some upper
  | false, false => none

def maxDigits : Nat := 17

def Interval.shortest (i : Interval) : Decimal :=
  ((List.range maxDigits).findSome? fun n => i.point? (n + 1)).getD ⟨0, 0⟩

def Decimal.positional (d : Decimal) : String :=
  let written := Nat.toDigits 10 d.digits
  if 0 ≤ d.exponent then
    String.ofList (written ++ List.replicate d.exponent.toNat '0')
  else
    let places := (-d.exponent).toNat
    let filled := List.replicate (places + 1 - written.length) '0' ++ written
    let whole := filled.take (filled.length - places)
    let part := ((filled.drop (filled.length - places)).reverse.dropWhile (· == '0')).reverse
    if part.isEmpty then String.ofList whole
    else String.ofList whole ++ "." ++ String.ofList part

def Format.text (f : Format) (bits : Nat) : String :=
  match f.classify bits with
  | .nan => "NaN"
  | .infinite negative => if negative then "-inf" else "inf"
  | .zero negative => if negative then "-0" else "0"
  | .finite negative interval =>
    (if negative then "-" else "") ++ interval.shortest.positional

end CliMetadata.Shortest
