import RemoteAutomaton.Document.Source

/-!
# Reading values and records

Readers of the values that definitions and settings are made of. A record is read field by field in
the order of the document: a field that is not known is passed over, a known one may occur once, and
at the end the fields that have no default must be there. Where the notation allows it, a record may
be the list of its fields, in which fields with defaults may be missing at the end.
-/

namespace RemoteAutomaton.Document

open Decimal (Number)

variable {ν ε α β σ : Type} [Source ν ε]

def readText (n : ν) : Except ε String := do
  match ← Source.see n with
  | .scalar _ (some s) => return s
  | _ => throw (Source.unfit ν)

/-- Reads a value that may be missing. -/
def readOptional (item : ν → Except ε α) (n : ν) : Except ε (Option α) := do
  match ← Source.see n with
  | .scalar .null _ => return none
  | _ => return some (← item n)

/-- Whether a spelling has a minus sign. -/
def hasMinus (spelling : Option String) : Bool :=
  match spelling with
  | some s => s.toList.head? == some '-'
  | none => false

/-- Reads a natural number below `bound`. It has no minus sign, not even as zero. -/
def readNatural (bound : Nat) (n : ν) : Except ε Nat := do
  match ← Source.see n with
  | .scalar (.number (.integer k)) spelling =>
    if 0 ≤ k ∧ k < bound ∧ ¬ hasMinus spelling then return k.toNat else throw (Source.unfit ν)
  | _ => throw (Source.unfit ν)

/-- The text that keeps a scalar. A missing value is kept as the empty text, and an integer only if
64 bits hold it, signed or unsigned. -/
def Scalar.keptText : Scalar → Option String
  | null => some ""
  | truth b => some (if b then "true" else "false")
  | number (.integer k) =>
    if -0x8000000000000000 ≤ k ∧ k < 0x10000000000000000 then some (Number.integer k).text else none
  | number (.real x) => some (Number.real x).text
  | text s => some s

/-- Reads a scalar of any kind as the text that keeps it. -/
def readScalar (n : ν) : Except ε String := do
  match ← Source.see n with
  | .scalar v _ =>
    match v.keptText with
    | some s => return s
    | none => throw (Source.unfit ν)
  | _ => throw (Source.unfit ν)

/-- Reads items one after the other. -/
def readItems (item : ν → Except ε α) : List ν → Except ε (List α)
  | [] => return []
  | n :: rest => do
    let a ← item n
    return a :: (← readItems item rest)

def readList (item : ν → Except ε α) (n : ν) : Except ε (List α) := do
  match ← Source.see n with
  | .list items ending =>
    let all ← readItems item items
    ending
    return all
  | .scalar .null _ => if Source.nullIsEmpty ν then return [] else throw (Source.unfit ν)
  | _ => throw (Source.unfit ν)

/-- A field of a record that is read into a draft `σ`. -/
structure Field (ν ε σ : Type) where
  name : String
  /-- Whether the draft has the field already. -/
  isSet : σ → Bool
  /-- Reads the field's value into the draft. -/
  put : ν → σ → Except ε σ

/-- The field that `read` reads and that the draft keeps where `get` finds it. -/
def Field.of (name : String) (read : ν → Except ε β) (get : σ → Option β) (set : σ → β → σ) :
    Field ν ε σ :=
  ⟨name, fun d => (get d).isSome, fun n d => (read n).map (set d)⟩

/-- Reads named values into a draft. -/
def readEntries (fields : List (Field ν ε σ)) :
    List (Except ε String × ν) → σ → Except ε σ
  | [], d => return d
  | (key, n) :: rest, d => do
    let name ← key
    match fields.find? fun f => f.name == name with
    | some f => if f.isSet d then throw (Source.unfit ν) else readEntries fields rest (← f.put n d)
    | none =>
      Source.skip n
      readEntries fields rest d

/-- Reads the items of a list into the fields in order. -/
def readInOrder : List (Field ν ε σ) → List ν → Except ε Unit → σ → Except ε σ
  | [], [], ending, d => do
    ending
    return d
  | [], _ :: _, _, _ => throw (Source.surplus ν)
  | _ :: _, [], ending, d => do
    ending
    return d
  | f :: fields, n :: rest, ending, d => do readInOrder fields rest ending (← f.put n d)

/-- Completes a draft, if it has every field without a default. -/
def complete (finish : σ → Option α) (d : σ) : Except ε α :=
  match finish d with
  | some a => return a
  | none => throw (Source.unfit ν)

/-- Reads a record. -/
def readRecord (fields : List (Field ν ε σ)) (blank : σ) (finish : σ → Option α) (n : ν) :
    Except ε α := do
  match ← Source.see n with
  | .fields entries ending =>
    let d ← readEntries fields entries blank
    ending
    complete (ν := ν) finish d
  | .list items ending =>
    if Source.positional ν then
      complete (ν := ν) finish (← readInOrder fields items ending blank)
    else throw (Source.unfit ν)
  | .scalar .null _ =>
    if Source.nullIsEmpty ν then complete (ν := ν) finish blank else throw (Source.unfit ν)
  | .scalar _ _ => throw (Source.unfit ν)

end RemoteAutomaton.Document
