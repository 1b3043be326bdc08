import RemoteAutomaton.Decimal.Shortest

/-!
# Numbers in documents

A number in a document is an integer of 64 bits, signed or unsigned, or else a floating-point
number. `Number.text` writes it in decimal, never with an exponent: an integer as it is, a
floating-point number with the fewest digits that read back and without a fraction where it is
whole. `nearest?` reads digits with a power of ten. Where the power alone decides that the number is
too large or too small to be anything but infinity or zero, the digits are not looked at.
-/

namespace RemoteAutomaton.Decimal

/-- A number as documents hold it. -/
inductive Number where
  | integer (n : Int)
  | real (x : Float)

/-- `digits * 10 ^ power` with a decimal point where it falls and without an exponent. -/
def Scaled.positional (s : Scaled) : List Char :=
  let ds := Nat.toDigits 10 s.digits
  if 0 ≤ s.power then
    if s.digits = 0 then ds else ds ++ List.replicate s.power.toNat '0'
  else
    let places := (-s.power).toNat
    let padded := List.replicate (places + 1 - ds.length) '0' ++ ds
    padded.take (padded.length - places) ++ '.' :: padded.drop (padded.length - places)

/-- The sign bit of the 64 bits of a floating-point number. -/
def signBit (bits : Nat) : Bool := (bits >>> 63) % 2 == 1

/-- The exponent field of the 64 bits of a floating-point number. -/
def exponentField (bits : Nat) : Nat := (bits >>> 52) % 0x800

/-- The fraction field of the 64 bits of a floating-point number. -/
def fractionField (bits : Nat) : Nat := bits % 0x10000000000000

/-- The absolute value of a finite floating-point number other than zero. -/
def magnitudeOf (bits : Nat) : Binary :=
  if exponentField bits = 0 then ⟨fractionField bits, -1074, false⟩
  else
    ⟨0x10000000000000 + fractionField bits, exponentField bits - 1075,
      fractionField bits == 0 && 1 < exponentField bits⟩

/-- The text of a floating-point number with these 64 bits. -/
def realText (bits : Nat) : List Char :=
  let sign := if signBit bits then ['-'] else []
  if exponentField bits = 2047 then
    if fractionField bits = 0 then sign ++ ['i', 'n', 'f'] else ['N', 'a', 'N']
  else if exponentField bits = 0 ∧ fractionField bits = 0 then sign ++ ['0']
  else sign ++ (shortest (magnitudeOf bits)).positional

def Number.text : Number → String
  | integer n => toString n
  | real x => String.ofList (realText x.toBits.toNat)

def infinity : Float := 1.0 / 0.0

/-- The positive value that is no number. -/
def notANumber : Float := Float.ofBits 0x7FF8000000000000

/-- The floating-point number nearest to `m * 10 ^ e`, if it is finite. -/
def nearest? (m : Nat) (e : Int) : Option Float :=
  let size := (Nat.toDigits 10 m).length + e
  if m = 0 ∨ size < -330 then some 0.0
  else if 320 < size then none
  else
    let x :=
      if 0 ≤ e then Float.ofScientific m false e.toNat
      else Float.ofScientific m true (-e).toNat
    if x.isInf then none else some x

end RemoteAutomaton.Decimal
