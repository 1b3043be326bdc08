import RemoteAutomaton.Json.Value
import RemoteAutomaton.Machine.Declaration

/-!
# The canonical text of a declaration

A declaration has one JSON text without blanks: the fields in a fixed order, what is not given left
out, lists written even when they are empty. Its checksum is that of the text's bytes.

`crc32c` is the cyclic redundancy check with the Castagnoli polynomial, in its reflected form: the
register starts with all bits set, takes the bytes in order and the bits of a byte from the lowest,
and is inverted at the end.
-/

namespace RemoteAutomaton.Checksum

/-- The Castagnoli polynomial, lowest power in the highest bit. -/
def polynomial : UInt32 := 0x82F63B78

/-- Divides `n` bits out of the register. -/
def shift (crc : UInt32) : Nat → UInt32
  | 0 => crc
  | n + 1 => shift (if crc &&& 1 = 1 then (crc >>> 1) ^^^ polynomial else crc >>> 1) n

/-- Takes one byte into the register. -/
def absorb (crc : UInt32) (b : UInt8) : UInt32 := shift (crc ^^^ b.toUInt32) 8

/-- The check value of some bytes. -/
def crc32c (bytes : ByteArray) : UInt32 := bytes.foldl absorb 0xFFFFFFFF ^^^ 0xFFFFFFFF

/-- A check value as eight lowercase hexadecimal digits. -/
def hex8 (n : UInt32) : String :=
  let ds := Nat.toDigits 16 n.toNat
  String.ofList (List.replicate (8 - ds.length) '0' ++ ds)

end RemoteAutomaton.Checksum

namespace RemoteAutomaton.Machine

open Json (Value)

/-- An entry that is left out when there is no value. -/
def optionalEntry (key : String) (v : Option Value) : List (String × Value) :=
  match v with
  | some v => [(key, v)]
  | none => []

def State.toJson (s : State) : Value :=
  .object (("name", .text s.name) :: optionalEntry "action" (s.action.map .text))

def Arrow.toJson (t : Arrow) : Value :=
  .object
    (("from", .text t.source) :: ("to", .text t.target) ::
      (optionalEntry "event" (t.event.map .text) ++ optionalEntry "guard" (t.guard.map .text) ++
        optionalEntry "delay_ms" (t.delay.map fun n => .ofInt n) ++
        optionalEntry "delay_var" (t.delayVariable.map .text)))

def Variable.toJson (v : Variable) : Value :=
  .object [("name", .text v.name), ("type", .text v.kind), ("initial", .text v.initial)]

def Declaration.toJson (d : Declaration) : Value :=
  .object
    (("name", .text d.name) ::
      (optionalEntry "initial" (d.initial.map .text) ++
        [("states", .list (d.states.map State.toJson)),
          ("transitions", .list (d.transitions.map Arrow.toJson)),
          ("variables", .list (d.vars.map Variable.toJson)),
          ("inputs", .list (d.inputs.map .text)),
          ("outputs", .list (d.outputs.map .text))]))

def Declaration.canonicalText (d : Declaration) : String := d.toJson.toText

def Declaration.checksum (d : Declaration) : String :=
  Checksum.hex8 (Checksum.crc32c d.canonicalText.toUTF8)

end RemoteAutomaton.Machine
