import RemoteAutomaton.Automaton.Error
import RemoteAutomaton.Machine.Definition
import RemoteAutomaton.Machine.Document

/-!
# Machines from JSON

A machine can be read from a JSON text, or from a JSON value that has been read before. The two
agree where the text has one value for each key: they differ in what they call broken, since a text
is read no further than the first thing that is wrong with it.
-/

namespace RemoteAutomaton.Automaton

open Machine (Declaration Definition)

def checkDeclaration (r : Declaration) : Except Error Definition :=
  match Definition.ofDeclaration r with
  | .ok d => .ok d
  | .error e => .error (.ofDefect e)

theorem checkDeclaration_eq_ok_iff {r : Declaration} {d : Definition} :
    checkDeclaration r = .ok d ↔ Definition.ofDeclaration r = .ok d := by
  rw [checkDeclaration]
  cases Definition.ofDeclaration r <;> simp

def declarationOfText (s : String) : Except Json.Fault Declaration :=
  Json.readText Declaration.read s

def declarationOfValue (v : Json.Value) : Except Json.Fault Declaration := Declaration.read v

/-- Reads and checks a machine from a JSON text. -/
def definitionOfText (s : String) : Except Error Definition :=
  match declarationOfText s with
  | .ok r => checkDeclaration r
  | .error f => .error (.json f)

/-- Reads and checks a machine from a JSON value. -/
def definitionOfValue (v : Json.Value) : Except Error Definition :=
  match declarationOfValue v with
  | .ok r => checkDeclaration r
  | .error f => .error (.json f)

end RemoteAutomaton.Automaton
