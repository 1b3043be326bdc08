/-!
# Digits and integers

An integer is written as an optional sign and one or more ASCII digits, with nothing around it.
`readSigned?` and `readUnsigned?` read that form; `readInt64?` and `readBelow?` also refuse what
does not fit. The digits of a base of at most 16 are the ASCII digits and, above 10, letters of
either case; `readBase?` reads a number of one or more of them.
-/

namespace RemoteAutomaton.Text

/-- The value of an ASCII digit. -/
def digit? (c : Char) : Option Nat :=
  if '0' ≤ c ∧ c ≤ '9' then some (c.toNat - '0'.toNat) else none

/-- Reads digits after a leading part of value `n`. -/
def readDigitsFrom? (n : Nat) : List Char → Option Nat
  | [] => some n
  | c :: r => (digit? c).bind fun d => readDigitsFrom? (n * 10 + d) r

/-- Reads one or more digits. -/
def readDigits? : List Char → Option Nat
  | [] => none
  | s => readDigitsFrom? 0 s

/-- Reads digits after an optional plus sign. -/
def readUnsigned? : List Char → Option Nat
  | '+' :: r => readDigits? r
  | s => readDigits? s

/-- Reads digits after an optional sign. -/
def readSigned? : List Char → Option Int
  | '-' :: r => (readDigits? r).map fun n => -(n : Int)
  | '+' :: r => (readDigits? r).map fun n => (n : Int)
  | s => (readDigits? s).map fun n => (n : Int)

/-- The integers of 64 bits in two's complement. -/
def IsInt64 (n : Int) : Prop := -0x8000000000000000 ≤ n ∧ n < 0x8000000000000000

instance (n : Int) : Decidable (IsInt64 n) := inferInstanceAs (Decidable (_ ∧ _))

/-- Reads an integer of 64 bits. -/
def readInt64? (s : List Char) : Option Int :=
  (readSigned? s).filter fun n => IsInt64 n

/-- Reads a natural number below `bound`. -/
def readBelow? (bound : Nat) (s : List Char) : Option Nat :=
  (readUnsigned? s).filter fun n => n < bound

/-- The value of a hexadecimal digit. -/
def hexDigit? (c : Char) : Option Nat :=
  if '0' ≤ c ∧ c ≤ '9' then some (c.toNat - '0'.toNat)
  else if 'a' ≤ c ∧ c ≤ 'f' then some (c.toNat - 'a'.toNat + 10)
  else if 'A' ≤ c ∧ c ≤ 'F' then some (c.toNat - 'A'.toNat + 10)
  else none

/-- The value of a digit in a base of at most 16. -/
def baseDigit? (base : Nat) (c : Char) : Option Nat := (hexDigit? c).filter (· < base)

/-- Reads digits in a base after a leading part of value `n`. -/
def readBaseFrom? (base n : Nat) : List Char → Option Nat
  | [] => some n
  | c :: r => (baseDigit? base c).bind fun d => readBaseFrom? base (n * base + d) r

/-- Reads one or more digits in a base. -/
def readBase? (base : Nat) : List Char → Option Nat
  | [] => none
  | s => readBaseFrom? base 0 s

end RemoteAutomaton.Text
