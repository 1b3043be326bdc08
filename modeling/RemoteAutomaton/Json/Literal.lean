import RemoteAutomaton.Decimal.Number

/-!
# Strings and numbers as they are written

A string literal is a list of pieces: characters, and 16-bit codes written as `\u` escapes. A
number literal is its digits. What they mean is decided only when someone wants the value: two
codes of a surrogate pair make one character and a surrogate that stands alone is a fault, and a
number may be too large. A literal that is passed over has neither fault. `Fault` says in which
ways a whole text can be wrong.
-/

namespace RemoteAutomaton.Json

open Decimal (Number)

/-- The three ways in which a text fails to be the wanted JSON. -/
inductive Fault where
  /-- The text is not JSON. -/
  | malformed
  /-- The text ends before its value does. -/
  | unfinished
  /-- The text is JSON of another shape. -/
  | unfit
  deriving DecidableEq, Repr

def Fault.word : Fault → String
  | malformed => "syntax"
  | unfinished => "eof"
  | unfit => "data"

/-- A part of a string literal. -/
inductive Piece where
  | char (c : Char)
  | code (n : Nat)
  deriving DecidableEq, Repr

/-- A string literal. `cut` is the fault that ended it, if it has no closing quote. -/
structure Quoted where
  pieces : List Piece
  cut : Option Fault
  deriving DecidableEq, Repr

/-- The codes that begin a surrogate pair. -/
def isLead (n : Nat) : Bool := 0xD800 ≤ n && n ≤ 0xDBFF

/-- The codes that end a surrogate pair. -/
def isTrail (n : Nat) : Bool := 0xDC00 ≤ n && n ≤ 0xDFFF

/-- The character of a surrogate pair. -/
def pairChar (lead trail : Nat) : Char :=
  Char.ofNat (0x10000 + (lead - 0xD800) * 0x400 + (trail - 0xDC00))

/-- The characters that pieces stand for, after those of `done`, which are kept last first. -/
def decodePieces (cut : Option Fault) (done : List Char) : List Piece → Except Fault (List Char)
  | [] =>
    match cut with
    | none => .ok done.reverse
    | some f => .error f
  | .char c :: r => decodePieces cut (c :: done) r
  | .code n :: r =>
    if isTrail n then .error .malformed
    else if isLead n then
      match r with
      | [] => .error (cut.getD .malformed)
      | .char _ :: _ => .error .malformed
      | .code m :: r' =>
        if isTrail m then decodePieces cut (pairChar n m :: done) r' else .error .malformed
    else decodePieces cut (Char.ofNat n :: done) r

def Quoted.decode (q : Quoted) : Except Fault String :=
  (decodePieces q.cut [] q.pieces).map String.ofList

/-- A number literal: digits from the highest, and the exponent's sign and digits. -/
structure Numeral where
  negative : Bool
  whole : List Nat
  fraction : List Nat
  exponent : Option (Bool × List Nat)
  deriving DecidableEq, Repr

/-- A significand of 64 bits, and the power of ten that it is to be taken by. -/
structure Significand where
  digits : Nat
  power : Int
  deriving DecidableEq, Repr

/-- Whether one more digit fits into 64 bits. -/
def fits (n d : Nat) : Bool := n * 10 + d < 0x10000000000000000

/-- Reads digits before the point. After the first digit that does not fit, digits only count. -/
def takeWhole (s : Significand) : List Nat → Significand
  | [] => s
  | d :: r =>
    if s.power = 0 ∧ fits s.digits d then takeWhole ⟨s.digits * 10 + d, 0⟩ r
    else takeWhole ⟨s.digits, s.power + 1⟩ r

/-- Reads digits after the point, up to the first that does not fit. -/
def takeFraction (s : Significand) : List Nat → Significand
  | [] => s
  | d :: r => if fits s.digits d then takeFraction ⟨s.digits * 10 + d, s.power - 1⟩ r else s

/-- The value of exponent digits, if it is below `2 ^ 31`. -/
def exponentValue? (n : Nat) : List Nat → Option Nat
  | [] => some n
  | d :: r => if n * 10 + d < 0x80000000 then exponentValue? (n * 10 + d) r else none

/-- Keeps an exponent in 32 bits. -/
def clampExponent (e : Int) : Int := max (-0x80000000) (min e (0x80000000 - 1))

/-- A power of ten, rounded to a floating-point number. -/
def tenTo (n : Nat) : Float := Float.ofScientific 1 false n

/-- Takes a floating-point number by a power of ten, in steps of at most `10 ^ 308`. `none` stands
for a result that is too large. -/
def scaleReal (f : Float) (power : Int) : Option Float :=
  if power ≤ -309 then
    if f == 0 then some f else scaleReal (f / tenTo 308) (power + 308)
  else if power < 0 then some (f / tenTo (-power).toNat)
  else if power ≤ 308 then
    let g := f * tenTo power.toNat
    if g.isInf then none else some g
  else if f == 0 then some f
  else none
termination_by (-power).toNat
decreasing_by omega

/-- The floating-point number of a significand. -/
def Significand.real (s : Significand) (negative : Bool) : Except Fault Number :=
  match scaleReal s.digits.toUInt64.toFloat s.power with
  | some f => .ok (.real (if negative then -f else f))
  | none => .error .malformed

/-- The number of a literal without point and exponent: an integer if 64 bits hold it, signed when
negative. Minus zero is no integer. -/
def Significand.integral (s : Significand) (negative : Bool) : Except Fault Number :=
  if s.power ≠ 0 then s.real negative
  else if negative then
    if s.digits = 0 ∨ 0x8000000000000000 < s.digits then .ok (.real (-s.digits.toUInt64.toFloat))
    else .ok (.integer (-(s.digits : Int)))
  else .ok (.integer s.digits)

def Numeral.value (n : Numeral) : Except Fault Number :=
  let s := takeFraction (takeWhole ⟨0, 0⟩ n.whole) n.fraction
  match n.exponent with
  | none => if n.fraction.isEmpty then s.integral n.negative else s.real n.negative
  | some (down, digits) =>
    match exponentValue? 0 digits with
    | some e =>
      let power := clampExponent (if down then s.power - e else s.power + e)
      Significand.real ⟨s.digits, power⟩ n.negative
    | none =>
      if s.digits ≠ 0 ∧ ¬ down then .error .malformed
      else .ok (.real (if n.negative then -0.0 else 0.0))

def Numeral.ofNat (n : Nat) : Numeral :=
  ⟨false, (Nat.toDigits 10 n).map fun c => c.toNat - '0'.toNat, [], none⟩

end RemoteAutomaton.Json
