import RemoteAutomaton.Decimal.Number
import RemoteAutomaton.Document.Source
import RemoteAutomaton.Text.Integer

/-!
# What plain scalars stand for

A plain scalar is a missing value, a truth value, a number or else a text. An integer may be written
in decimal, or after `0x`, `0o` or `0b` in base 16, 8 or 2, and has at most 128 bits; digits after a
needless zero are a text. `Scalar.ofPlain` decides.
-/

namespace RemoteAutomaton.Yaml

open Document (Scalar)
open Decimal (Number)
open Text (readBase? readDigits?)

/-- Whether digits begin with a needless zero. -/
def isPadded (s : List Char) : Bool :=
  match s with
  | '0' :: c :: r => (c :: r).all Char.isDigit
  | _ => false

/-- A sign, if there is one, and what follows it. -/
def splitSign : List Char → Option Bool × List Char
  | '-' :: r => (some true, r)
  | '+' :: r => (some false, r)
  | s => (none, s)

/-- Reads an integer without a sign. -/
def magnitude? : List Char → Option Nat
  | '0' :: 'x' :: r => readBase? 16 r
  | '0' :: 'o' :: r => readBase? 8 r
  | '0' :: 'b' :: r => readBase? 2 r
  | s => if isPadded s then none else readDigits? s

/-- Reads an integer of at most 128 bits. -/
def integer? (s : List Char) : Option Int :=
  let (sign, digits) := splitSign s
  (magnitude? digits).bind fun n =>
    if sign == some true then
      if n ≤ 0x80000000000000000000000000000000 then some (-(n : Int)) else none
    else if n < 0x100000000000000000000000000000000 then some (n : Int)
    else none

/-- Reads the digits of a decimal number: the significand and the number of digits after the point.
There is at least one digit. -/
def readPointed? (s : List Char) : Option (Nat × Nat) :=
  let whole := s.takeWhile Char.isDigit
  match s.dropWhile Char.isDigit with
  | [] => (readDigits? whole).map (·, 0)
  | '.' :: fraction => (readDigits? (whole ++ fraction)).map (·, fraction.length)
  | _ => none

/-- Reads a decimal number with a point or an exponent, without a sign: the significand and the
power of ten. -/
def readReal? (s : List Char) : Option (Nat × Int) :=
  let isExponentSign := fun c : Char => c == 'e' || c == 'E'
  match s.dropWhile (!isExponentSign ·) with
  | [] => (readPointed? s).map fun (m, places) => (m, -(places : Int))
  | _ :: exponent =>
    match readPointed? (s.takeWhile (!isExponentSign ·)), Text.readSigned? exponent with
    | some (m, places), some e => some (m, e - places)
    | _, _ => none

def real? (s : List Char) : Option Float :=
  let (sign, r) := splitSign s
  let negate := fun x : Float => if sign == some true then -x else x
  if [".inf", ".Inf", ".INF"].contains (String.ofList r) then some (negate Decimal.infinity)
  else if [".nan", ".NaN", ".NAN"].contains (String.ofList s) then some Decimal.notANumber
  else if isPadded r then none
  else (readReal? r).bind fun (m, e) => (Decimal.nearest? m e).map negate

/-- The value of a plain scalar. -/
def Scalar.ofPlain (s : String) : Scalar :=
  if ["", "null", "Null", "NULL", "~"].contains s then .null
  else if ["true", "True", "TRUE"].contains s then .truth true
  else if ["false", "False", "FALSE"].contains s then .truth false
  else
    match integer? s.toList, real? s.toList with
    | some n, _ => .number (.integer n)
    | none, some x => .number (.real x)
    | none, none => .text s

end RemoteAutomaton.Yaml
