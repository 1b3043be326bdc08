import RemoteAutomaton.Document.Record
import RemoteAutomaton.Machine.Declaration

/-!
# Declarations in documents

The shape of a declaration in a document, for every notation. Only a state's name, the two ends of
a transition, a variable's name and the list of states have to be there.
-/

namespace RemoteAutomaton.Machine

open Document

variable {ν ε : Type} [Source ν ε]

/-- A state while its fields are read. -/
structure State.Draft where
  name : Option String := none
  action : Option (Option String) := none

/-- The state of a draft, if it is complete. -/
def State.Draft.finish (d : State.Draft) : Option State :=
  d.name.map fun name => ⟨name, d.action.join⟩

def State.fields : List (Field ν ε State.Draft) :=
  [Field.of "name" readText (·.name) fun d v => { d with name := some v },
    Field.of "action" (readOptional readText) (·.action) fun d v => { d with action := some v }]

def State.read : ν → Except ε State := readRecord State.fields {} State.Draft.finish

structure Arrow.Draft where
  source : Option String := none
  target : Option String := none
  event : Option (Option String) := none
  guard : Option (Option String) := none
  delay : Option (Option Nat) := none
  delayVariable : Option (Option String) := none

def Arrow.Draft.finish (d : Arrow.Draft) : Option Arrow :=
  match d.source, d.target with
  | some source, some target =>
    some ⟨source, target, d.event.join, d.guard.join, d.delay.join, d.delayVariable.join⟩
  | _, _ => none

def Arrow.fields : List (Field ν ε Arrow.Draft) :=
  [Field.of "from" readText (·.source) fun d v => { d with source := some v },
    Field.of "to" readText (·.target) fun d v => { d with target := some v },
    Field.of "event" (readOptional readText) (·.event) fun d v => { d with event := some v },
    Field.of "guard" (readOptional readText) (·.guard) fun d v => { d with guard := some v },
    Field.of "delay_ms" (readOptional (readNatural 0x10000000000000000)) (·.delay)
      fun d v => { d with delay := some v },
    Field.of "delay_var" (readOptional readText) (·.delayVariable)
      fun d v => { d with delayVariable := some v }]

def Arrow.read : ν → Except ε Arrow := readRecord Arrow.fields {} Arrow.Draft.finish

structure Variable.Draft where
  name : Option String := none
  kind : Option String := none
  initial : Option String := none

def Variable.Draft.finish (d : Variable.Draft) : Option Variable :=
  d.name.map fun name => ⟨name, d.kind.getD "string", d.initial.getD ""⟩

def Variable.fields : List (Field ν ε Variable.Draft) :=
  [Field.of "name" readText (·.name) fun d v => { d with name := some v },
    Field.of "type" readText (·.kind) fun d v => { d with kind := some v },
    Field.of "initial" readScalar (·.initial) fun d v => { d with initial := some v }]

def Variable.read : ν → Except ε Variable := readRecord Variable.fields {} Variable.Draft.finish

structure Declaration.Draft where
  name : Option String := none
  initial : Option (Option String) := none
  states : Option (List State) := none
  transitions : Option (List Arrow) := none
  vars : Option (List Variable) := none
  inputs : Option (List String) := none
  outputs : Option (List String) := none

def Declaration.Draft.finish (d : Declaration.Draft) : Option Declaration :=
  d.states.map fun states =>
    ⟨d.name.getD "", d.initial.join, states, d.transitions.getD [], d.vars.getD [],
      d.inputs.getD [], d.outputs.getD []⟩

def Declaration.fields : List (Field ν ε Declaration.Draft) :=
  [Field.of "name" readText (·.name) fun d v => { d with name := some v },
    Field.of "initial" (readOptional readText) (·.initial) fun d v => { d with initial := some v },
    Field.of "states" (readList State.read) (·.states) fun d v => { d with states := some v },
    Field.of "transitions" (readList Arrow.read) (·.transitions)
      fun d v => { d with transitions := some v },
    Field.of "variables" (readList Variable.read) (·.vars)
      fun d v => { d with vars := some v },
    Field.of "inputs" (readList readText) (·.inputs) fun d v => { d with inputs := some v },
    Field.of "outputs" (readList readText) (·.outputs) fun d v => { d with outputs := some v }]

def Declaration.read : ν → Except ε Declaration :=
  readRecord Declaration.fields {} Declaration.Draft.finish

end RemoteAutomaton.Machine
