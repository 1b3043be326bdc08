/-!
# Declared machines

A declaration is what a designer writes down: states, transitions, variables, inputs and outputs,
in order. Nothing has been checked yet. Guards and actions are names, which an evaluator gives a
meaning to.
-/

namespace RemoteAutomaton.Machine

/-- A state, and the action that every entry of it runs. -/
structure State where
  name : String
  action : Option String
  deriving DecidableEq, Repr

/-- A transition as declared. What triggers it is said by which of the last four are given. -/
structure Arrow where
  source : String
  target : String
  event : Option String
  guard : Option String
  /-- A delay in milliseconds. -/
  delay : Option Nat
  /-- A variable that holds the delay in milliseconds. -/
  delayVariable : Option String
  deriving DecidableEq, Repr

/-- A variable, a word for its type and its initial value. -/
structure Variable where
  name : String
  kind : String
  initial : String
  deriving DecidableEq, Repr

/-- A machine as declared. -/
structure Declaration where
  name : String
  initial : Option String
  states : List State
  transitions : List Arrow
  vars : List Variable
  inputs : List String
  outputs : List String
  deriving DecidableEq, Repr

namespace State

def named (name : String) : State := ⟨name, none⟩

def withAction (s : State) (action : String) : State := ⟨s.name, some action⟩

end State

namespace Arrow

/-- A transition that nothing has to trigger. -/
def ofEnds (source target : String) : Arrow := ⟨source, target, none, none, none, none⟩

def onEvent (t : Arrow) (event : String) : Arrow :=
  ⟨t.source, t.target, some event, t.guard, t.delay, t.delayVariable⟩

def withGuard (t : Arrow) (guard : String) : Arrow :=
  ⟨t.source, t.target, t.event, some guard, t.delay, t.delayVariable⟩

def after (t : Arrow) (milliseconds : Nat) : Arrow :=
  ⟨t.source, t.target, t.event, t.guard, some milliseconds, t.delayVariable⟩

/-- The transition after a delay that a variable holds. -/
def afterVariable (t : Arrow) (name : String) : Arrow :=
  ⟨t.source, t.target, t.event, t.guard, t.delay, some name⟩

end Arrow

end RemoteAutomaton.Machine
