import RemoteAutomaton.Json.Literal
import RemoteAutomaton.Text.Integer

/-!
# The words of a JSON text

`tokens` splits a text into brackets, separators, literals and names. It is a machine that takes
one character at a time: `step` says which tokens a character completes, `finish` which token is
left at the end. A character that no token can hold ends the list with a broken token.
-/

namespace RemoteAutomaton.Json

inductive Token where
  | openList
  | closeList
  | openObject
  | closeObject
  | comma
  | colon
  | null
  | truth (b : Bool)
  | number (n : Numeral)
  | text (q : Quoted)
  /-- A number literal that the end of the text cut short. -/
  | cutNumber
  /-- No token, for the given reason. -/
  | broken (f : Fault)
  deriving DecidableEq, Repr

/-- What has been read of the token at hand. Lists are kept last element first. -/
inductive Mode where
  | start
  /-- In a name: the letters still to come. -/
  | name (rest : List Char) (token : Token)
  | string (pieces : List Piece)
  | escape (pieces : List Piece)
  /-- In the four digits of a code: their value so far and how many there are. -/
  | code (pieces : List Piece) (value count : Nat)
  /-- After a character that is no digit of a code: how many bytes there are. -/
  | badCode (pieces : List Piece) (bytes : Nat)
  | minus
  | zero (negative : Bool)
  /-- In the digits before the point. -/
  | whole (negative : Bool) (digits : List Nat)
  /-- After the point: the number before it. -/
  | point (n : Numeral)
  | fraction (n : Numeral) (digits : List Nat)
  /-- After the mark of the exponent. -/
  | mark (n : Numeral)
  | markSign (n : Numeral) (down : Bool)
  | exponent (n : Numeral) (down : Bool) (digits : List Nat)
  /-- After a broken token. -/
  | stop
  deriving DecidableEq, Repr

def isSpace (c : Char) : Bool := c == ' ' || c == '\n' || c == '\t' || c == '\r'

def decimalDigit? (c : Char) : Option Nat :=
  if '0' ≤ c ∧ c ≤ '9' then some (c.toNat - '0'.toNat) else none

/-- The character that a one-letter escape stands for. -/
def escaped? (c : Char) : Option Char :=
  if c = '"' ∨ c = '\\' ∨ c = '/' then some c
  else if c = 'b' then some '\x08'
  else if c = 'f' then some '\x0c'
  else if c = 'n' then some '\n'
  else if c = 'r' then some '\r'
  else if c = 't' then some '\t'
  else none

namespace Token

def fail (f : Fault) : List Token × Mode := ([.broken f], .stop)

/-- Ends the text inside a string literal. -/
def failText (pieces : List Piece) (f : Fault) : List Token × Mode :=
  ([.text ⟨pieces.reverse, some f⟩], .stop)

def begin (c : Char) : List Token × Mode :=
  if isSpace c then ([], .start)
  else if c = '[' then ([.openList], .start)
  else if c = ']' then ([.closeList], .start)
  else if c = '\x7b' then ([.openObject], .start)
  else if c = '\x7d' then ([.closeObject], .start)
  else if c = ',' then ([.comma], .start)
  else if c = ':' then ([.colon], .start)
  else if c = '"' then ([], .string [])
  else if c = 'n' then ([], .name ['u', 'l', 'l'] .null)
  else if c = 't' then ([], .name ['r', 'u', 'e'] (.truth true))
  else if c = 'f' then ([], .name ['a', 'l', 's', 'e'] (.truth false))
  else if c = '-' then ([], .minus)
  else if c = '0' then ([], .zero false)
  else
    match decimalDigit? c with
    | some d => ([], .whole false [d])
    | none => fail .malformed

/-- A character after a complete number: it begins the next token. -/
def beginAfter (n : Numeral) (c : Char) : List Token × Mode :=
  let (ts, mode) := begin c
  (.number n :: ts, mode)

/-- The number of some digits without point and exponent. Digits are last first. -/
def wholeNumber (negative : Bool) (digits : List Nat) : Numeral :=
  ⟨negative, digits.reverse, [], none⟩

/-- The number with these digits after the point, last first. -/
def withFraction (n : Numeral) (digits : List Nat) : Numeral :=
  ⟨n.negative, n.whole, digits.reverse, none⟩

/-- The number with this exponent, digits last first. -/
def withExponent (n : Numeral) (down : Bool) (digits : List Nat) : Numeral :=
  ⟨n.negative, n.whole, n.fraction, some (down, digits.reverse)⟩

/-- A character that follows the digits of a number. -/
def afterDigits (n : Numeral) (mayHavePoint : Bool) (c : Char) : List Token × Mode :=
  if c = '.' ∧ mayHavePoint then ([], .point n)
  else if c = 'e' ∨ c = 'E' then ([], .mark n)
  else beginAfter n c

/-- Takes one character: the tokens it completes, and the mode after it. -/
def step : Mode → Char → List Token × Mode
  | .start, c => begin c
  | .name [] token, c =>
    let (ts, mode) := begin c
    (token :: ts, mode)
  | .name (x :: rest) token, c =>
    if c = x then
      if rest.isEmpty then ([token], .start) else ([], .name rest token)
    else fail .malformed
  | .string pieces, c =>
    if c = '"' then ([.text ⟨pieces.reverse, none⟩], .start)
    else if c = '\\' then ([], .escape pieces)
    else if c < ' ' then failText pieces .malformed
    else ([], .string (.char c :: pieces))
  | .escape pieces, c =>
    if c = 'u' then ([], .code pieces 0 0)
    else
      match escaped? c with
      | some x => ([], .string (.char x :: pieces))
      | none => failText pieces .malformed
  | .code pieces value count, c =>
    match Text.hexDigit? c with
    | some d =>
      if count = 3 then ([], .string (.code (value * 16 + d) :: pieces))
      else ([], .code pieces (value * 16 + d) (count + 1))
    | none =>
      if 4 ≤ count + c.utf8Size then failText pieces .malformed
      else ([], .badCode pieces (count + c.utf8Size))
  | .badCode pieces bytes, c =>
    if 4 ≤ bytes + c.utf8Size then failText pieces .malformed
    else ([], .badCode pieces (bytes + c.utf8Size))
  | .minus, c =>
    if c = '0' then ([], .zero true)
    else
      match decimalDigit? c with
      | some d => ([], .whole true [d])
      | none => fail .malformed
  | .zero negative, c =>
    match decimalDigit? c with
    | some _ => fail .malformed
    | none => afterDigits (wholeNumber negative [0]) true c
  | .whole negative digits, c =>
    match decimalDigit? c with
    | some d => ([], .whole negative (d :: digits))
    | none => afterDigits (wholeNumber negative digits) true c
  | .point n, c =>
    match decimalDigit? c with
    | some d => ([], .fraction n [d])
    | none => fail .malformed
  | .fraction n digits, c =>
    match decimalDigit? c with
    | some d => ([], .fraction n (d :: digits))
    | none => afterDigits (withFraction n digits) false c
  | .mark n, c =>
    if c = '+' then ([], .markSign n false)
    else if c = '-' then ([], .markSign n true)
    else
      match decimalDigit? c with
      | some d => ([], .exponent n false [d])
      | none => fail .malformed
  | .markSign n down, c =>
    match decimalDigit? c with
    | some d => ([], .exponent n down [d])
    | none => fail .malformed
  | .exponent n down digits, c =>
    match decimalDigit? c with
    | some d => ([], .exponent n down (d :: digits))
    | none => beginAfter (withExponent n down digits) c
  | .stop, _ => ([], .stop)

def finish : Mode → List Token
  | .start | .stop => []
  | .name [] token => [token]
  | .name (_ :: _) _ => [.broken .unfinished]
  | .string pieces | .escape pieces | .code pieces _ _ | .badCode pieces _ =>
    [.text ⟨pieces.reverse, some .unfinished⟩]
  | .minus | .point _ | .mark _ | .markSign _ _ => [.cutNumber]
  | .zero negative => [.number (wholeNumber negative [0])]
  | .whole negative digits => [.number (wholeNumber negative digits)]
  | .fraction n digits => [.number (withFraction n digits)]
  | .exponent n down digits => [.number (withExponent n down digits)]

/-- The tokens of a text that begins in a mode. -/
def scan (mode : Mode) : List Char → List Token
  | [] => finish mode
  | c :: r => (step mode c).1 ++ scan (step mode c).2 r

/-- The tokens of a text that begins in a mode, after those of `done`, which are kept last first. -/
def scanInto (done : List Token) (mode : Mode) : List Char → List Token
  | [] => done.reverse ++ finish mode
  | c :: r =>
    let (ts, next) := step mode c
    scanInto (ts.reverse ++ done) next r

theorem scanInto_eq (done : List Token) (mode : Mode) (s : List Char) :
    scanInto done mode s = done.reverse ++ scan mode s := by
  induction s generalizing done mode with
  | nil => rfl
  | cons c r ih => simp [scanInto, scan, ih]

end Token

def tokens (s : List Char) : List Token := Token.scanInto [] .start s

theorem tokens_eq_scan (s : List Char) : tokens s = Token.scan .start s := by
  simp [tokens, Token.scanInto_eq]

end RemoteAutomaton.Json
