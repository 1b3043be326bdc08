import RemoteAutomaton.Text.Integer

/-!
# Internet addresses

Addresses of both families, and addresses with a port. The readers take the usual written forms:
four decimal numbers without needless zeros, or eight groups of hexadecimal digits of which a run of
zeros may be left out and of which the last two may be written as four decimal numbers.
-/

namespace RemoteAutomaton.Network

inductive Ip where
  | v4 (a b c d : Nat)
  /-- Eight groups of 16 bits. -/
  | v6 (groups : List Nat)
  deriving DecidableEq, Repr

/-- An address of a host and a port. `scope` is the zone of an address of eight groups. -/
structure Address where
  host : Ip
  scope : Nat := 0
  port : Nat
  deriving DecidableEq, Repr

/-- Whether an address consists of four numbers. -/
def Ip.isV4 : Ip → Bool
  | v4 .. => true
  | v6 _ => false

/-- Reads a number below `bound` from the start of a text: all digits that are there, of which there
may be at most `digits` if this is given. -/
def takeNumber? (base bound : Nat) (digits : Option Nat) (s : List Char) :
    Option (Nat × List Char) :=
  let ds := s.takeWhile fun c => (Text.baseDigit? base c).isSome
  if digits.any (· < ds.length) then none
  else ((Text.readBase? base ds).filter (· < bound)).map (·, s.drop ds.length)

/-- Reads one of four numbers. -/
def takeOctet? (s : List Char) : Option (Nat × List Char) :=
  (takeNumber? 10 256 (some 3) s).filter fun (_, r) =>
    s.head? != some '0' || s.length == r.length + 1

def takeChar? (c : Char) : List Char → Option (List Char)
  | [] => none
  | d :: r => if c = d then some r else none

/-- Reads four numbers. -/
def takeV4? (s : List Char) : Option ((Nat × Nat × Nat × Nat) × List Char) := do
  let (a, s) ← takeOctet? s
  let (b, s) ← takeOctet? (← takeChar? '.' s)
  let (c, s) ← takeOctet? (← takeChar? '.' s)
  let (d, s) ← takeOctet? (← takeChar? '.' s)
  return ((a, b, c, d), s)

/-- Reads up to `n` groups, the first of them after a colon unless `isFirst`. Tells whether they end
with four decimal numbers. -/
def takeGroups (isFirst : Bool) : Nat → List Char → List Nat × Bool × List Char
  | 0, s => ([], false, s)
  | n + 1, s =>
    match if isFirst then some s else takeChar? ':' s with
    | none => ([], false, s)
    | some s' =>
      match if 0 < n then takeV4? s' else none with
      | some ((a, b, c, d), r) => ([a * 256 + b, c * 256 + d], true, r)
      | none =>
        match takeNumber? 16 0x10000 (some 4) s' with
        | none => ([], false, s)
        | some (g, r) =>
          let (gs, isMixed, r) := takeGroups false n r
          (g :: gs, isMixed, r)

def takeV6? (s : List Char) : Option (List Nat × List Char) :=
  let (front, isMixed, s) := takeGroups true 8 s
  if front.length = 8 then some (front, s)
  else if isMixed then none
  else
    match s with
    | ':' :: ':' :: s =>
      let (back, _, s) := takeGroups true (7 - front.length) s
      some (front ++ List.replicate (8 - front.length - back.length) 0 ++ back, s)
    | _ => none

def Ip.read? (s : List Char) : Option Ip :=
  match takeV4? s with
  | some ((a, b, c, d), []) => some (v4 a b c d)
  | _ =>
    match takeV6? s with
    | some (gs, []) => some (v6 gs)
    | _ => none

/-- Reads a port after its colon, at the end of a text. -/
def readPortAfterColon? (s : List Char) : Option Nat :=
  match (takeChar? ':' s).bind (takeNumber? 10 0x10000 none) with
  | some (port, []) => some port
  | _ => none

/-- Reads the rest of an address in brackets. -/
def readBracketed? (groups : List Nat) (scope : Nat) (s : List Char) : Option Address :=
  ((takeChar? ']' s).bind readPortAfterColon?).map (⟨.v6 groups, scope, ·⟩)

/-- Reads an address with a port. Eight groups stand in brackets, with a zone if there is one. -/
def Address.read? (s : List Char) : Option Address :=
  match takeV4? s with
  | some ((a, b, c, d), r) => (readPortAfterColon? r).map (⟨.v4 a b c d, 0, ·⟩)
  | none => do
    let (groups, r) ← takeV6? (← takeChar? '[' s)
    match r with
    | '%' :: r =>
      let (scope, r) ← takeNumber? 10 0x100000000 none r
      readBracketed? groups scope r
    | r => readBracketed? groups 0 r

def v4Text (a b c d : Nat) : String :=
  ".".intercalate ([a, b, c, d].map toString)

/-- Groups with colons between them. -/
def groupsText (gs : List Nat) : String :=
  ":".intercalate (gs.map fun g => String.ofList (Nat.toDigits 16 g))

/-- The number of zeros at the start. -/
def zerosAt (gs : List Nat) : Nat := (gs.takeWhile (· == 0)).length

/-- The longest run of zeros, the first of several: where it begins and its length. -/
def longestZeros (gs : List Nat) : Nat × Nat :=
  (List.range gs.length).foldl
    (fun best i => if best.2 < zerosAt (gs.drop i) then (i, zerosAt (gs.drop i)) else best) (0, 0)

/-- The text of eight groups. The longest run of more than one zero is left out. -/
def v6Text (gs : List Nat) : String :=
  match gs with
  | [0, 0, 0, 0, 0, 0xFFFF, x, y] => "::ffff:" ++ v4Text (x / 256) (x % 256) (y / 256) (y % 256)
  | _ =>
    let (start, length) := longestZeros gs
    if 1 < length then
      groupsText (gs.take start) ++ "::" ++ groupsText (gs.drop (start + length))
    else groupsText gs

/-- The text of an address with its port. -/
def Address.text (a : Address) : String :=
  match a.host with
  | .v4 x y z w => v4Text x y z w ++ ":" ++ toString a.port
  | .v6 gs =>
    let zone := if a.scope = 0 then "" else "%" ++ toString a.scope
    "[" ++ v6Text gs ++ zone ++ "]:" ++ toString a.port

end RemoteAutomaton.Network
