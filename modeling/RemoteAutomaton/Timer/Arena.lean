import RemoteAutomaton.Automaton.Host

/-!
# The places of timers

An arena keeps outstanding timers in numbered slots. A slot that becomes free is used again, the
last one freed first, and a new slot is made only when none is free. Every timer has a generation of
its own, so the id of a timer that is gone never finds a newer one in its slot.
-/

namespace RemoteAutomaton.Timer

open Automaton (TimerId)

/-- An outstanding timer: the state it leads to, and the time at which it expires. -/
structure Entry where
  generation : Nat
  target : String
  deadline : Nat
  deriving DecidableEq, Repr

/-- Slots for timers. -/
structure Arena where
  slots : List (Option Entry) := []
  /-- The free slots, the next one to use first. -/
  free : List Nat := []
  /-- The generation of the newest timer. -/
  generation : Nat := 0
  deriving DecidableEq, Repr

namespace Arena

def entry? (a : Arena) (id : TimerId) : Option Entry :=
  (a.slots[id.index]?.join).filter (·.generation = id.generation)

def contains (a : Arena) (id : TimerId) : Bool := (a.entry? id).isSome

def size (a : Arena) : Nat := a.slots.countP (·.isSome)

def insert (a : Arena) (target : String) (deadline : Nat) : TimerId × Arena :=
  let g := a.generation + 1
  let e : Entry := ⟨g, target, deadline⟩
  match a.free with
  | i :: free => (⟨i, g⟩, ⟨a.slots.set i (some e), free, g⟩)
  | [] => (⟨a.slots.length, g⟩, ⟨a.slots ++ [some e], [], g⟩)

def take (a : Arena) (id : TimerId) : Option (Entry × Arena) :=
  (a.entry? id).map fun e => (e, ⟨a.slots.set id.index none, id.index :: a.free, a.generation⟩)

/-- The numbers of the slots that hold a timer, in order, the first slot having number `i`. -/
def occupiedFrom (i : Nat) : List (Option Entry) → List Nat
  | [] => []
  | none :: rest => occupiedFrom (i + 1) rest
  | some _ :: rest => i :: occupiedFrom (i + 1) rest

/-- Takes every timer out of its slot, in the order of the slots. -/
def clear (a : Arena) : Arena :=
  ⟨a.slots.map fun _ => none, (occupiedFrom 0 a.slots).reverse ++ a.free, a.generation⟩

end Arena

end RemoteAutomaton.Timer
