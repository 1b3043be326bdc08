/-!
# The shortest decimal that reads back

A binary floating-point number stands for all the reals that round to it. `shortest` gives the
decimal with the fewest digits among them, and of those the one nearest to the number itself.

A positive number is `mantissa * 2 ^ exponent`. The test of a decimal against the interval of reals
is exact, in natural numbers: the interval's ends and the decimal are brought to one denominator.
-/

namespace RemoteAutomaton.Decimal

/-- A positive number `mantissa * 2 ^ exponent`. `narrow` says that the next smaller number is half
as far away as the next larger one. -/
structure Binary where
  mantissa : Nat
  exponent : Int
  narrow : Bool
  deriving DecidableEq, Repr

/-- The number `digits * 10 ^ power`. -/
structure Scaled where
  digits : Nat
  power : Int
  deriving DecidableEq, Repr

namespace Binary

/-- The number and the ends of its interval as fractions over one denominator. -/
structure Interval where
  low : Nat
  value : Nat
  high : Nat
  denominator : Nat
  closed : Bool
  deriving DecidableEq, Repr

/-- The reals that round to a number: half way to its neighbours, ends included iff the mantissa is
even. -/
def interval (b : Binary) : Interval :=
  let e := b.exponent - 2
  let up := Nat.pow 2 e.toNat
  let down := Nat.pow 2 (-e).toNat
  let m := 4 * b.mantissa
  ⟨(if b.narrow then m - 1 else m - 2) * up, m * up, (m + 2) * up, down, b.mantissa % 2 == 0⟩

end Binary

namespace Binary.Interval

/-- The interval with its fractions over a unit of `10 ^ power`. -/
def inUnits (i : Interval) (power : Int) : Interval :=
  let s := Nat.pow 10 (-power).toNat
  ⟨i.low * s, i.value * s, i.high * s, i.denominator * Nat.pow 10 power.toNat, i.closed⟩

/-- Whether `n` units lie in the interval. -/
def holds (i : Interval) (n : Nat) : Bool :=
  let x := n * i.denominator
  if i.closed then i.low ≤ x && x ≤ i.high else i.low < x && x < i.high

/-- The whole number of units in the interval nearest to its value: one of the value's two
neighbours, the upper one when they are equally near. -/
def nearest? (i : Interval) : Option Nat :=
  let n := i.value / i.denominator
  let r := i.value % i.denominator
  match i.holds n, i.holds (n + 1) with
  | true, true => some (if 2 * r < i.denominator then n else n + 1)
  | true, false => some n
  | false, true => some (n + 1)
  | false, false => none

end Binary.Interval

/-- The least `k` with `value < 10 ^ k`, for a positive fraction. -/
def magnitude (value denominator : Nat) : Int :=
  if denominator ≤ value then
    ((Nat.toDigits 10 (value / denominator)).length : Int)
  else go value 400 0
where
  /-- Multiplies by ten until the fraction reaches one. -/
  go (v : Nat) : Nat → Int → Int
    | 0, k => k
    | n + 1, k => if denominator ≤ v * 10 then k else go (v * 10) n (k - 1)

/-- Moves at most `n` zeros at the end of the digits into the power. -/
def Scaled.normalize (s : Scaled) : Nat → Scaled
  | 0 => s
  | n + 1 =>
    if s.digits ≠ 0 ∧ s.digits % 10 = 0 then Scaled.normalize ⟨s.digits / 10, s.power + 1⟩ n
    else s

/-- Tries grids of `n` digits, `n + 1` digits and so on. -/
def search (i : Binary.Interval) (top : Int) : List Nat → Option Scaled
  | [] => none
  | n :: rest =>
    let power := top - n
    match (i.inUnits power).nearest? with
    | some d => some (Scaled.normalize ⟨d, power⟩ n)
    | none => search i top rest

/-- Seventeen digits are enough for every number of 64 bits. -/
def digitCounts : List Nat := (List.range 17).map (· + 1)

/-- The shortest decimal that rounds to a positive number. -/
def shortest (b : Binary) : Scaled :=
  let i := b.interval
  match search i (magnitude i.value i.denominator) digitCounts with
  | some s => s
  | none => ⟨0, 0⟩

end RemoteAutomaton.Decimal
