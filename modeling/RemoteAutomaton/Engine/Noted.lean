import RemoteAutomaton.Engine.Loop

/-!
# Automata with notes

An automaton with notes of what its handlers have seen. `Handlers.noting` lets handlers of an
automaton work on the automaton with its notes and adds a note of every failure that the engine
tells.
-/

namespace RemoteAutomaton.Engine

open Automaton (TimerId)

/-- An automaton and its notes, the oldest first. -/
structure Noted (ν τ : Type) where
  automaton : τ
  notes : Array ν := #[]

variable {σ ν τ : Type}

def Noted.note (w : Noted ν τ) (n : ν) : Noted ν τ := { w with notes := w.notes.push n }

/-- Runs a part of a handler on the automaton. -/
def Noted.on (w : Noted ν τ) (f : τ → τ × Link σ) : Noted ν τ × Link σ :=
  let (automaton, link) := f w.automaton
  ({ w with automaton }, link)

/-- Handlers that do what `h` does and note failures. -/
def Handlers.noting (h : Handlers σ τ) (note : String → ν) : Handlers σ (Noted ν τ) where
  input := h.input.map fun f w link name value => w.on (f · link name value)
  timeout := h.timeout.map fun f w link id target => w.on (f · link id target)
  terminate := h.terminate.map fun f w link => w.on (f · link)
  error := some fun w text => w.note (note text)
  status := h.status.map fun f w link => w.on (f · link)

end RemoteAutomaton.Engine
