import RemoteAutomaton.Automaton.Interpreter

/-!
# A machine that blinks

Two states: `Idle` waits for the input `start`, and `Blinking` switches the output `led` at every
entry and enters itself again after `period` milliseconds. The input `stop` leads back to `Idle`.
-/

namespace RemoteAutomaton.CommandLine.Blink

open Automaton (Bindings Effect Interpreter Registry)
open Machine (Arrow Declaration Definition State)

def declaration : Declaration where
  name := "blink"
  initial := some "Idle"
  states :=
    [(State.named "Idle").withAction "led_off", (State.named "Blinking").withAction "toggle_led"]
  transitions :=
    [(Arrow.ofEnds "Idle" "Blinking").onEvent "start",
      (Arrow.ofEnds "Blinking" "Idle").onEvent "stop",
      (Arrow.ofEnds "Blinking" "Blinking").afterVariable "period"]
  vars := [⟨"period", "int", "500"⟩, ⟨"toggles", "int", "0"⟩]
  inputs := ["start", "stop"]
  outputs := ["led"]

theorem isOk_declaration : (Definition.ofDeclaration declaration).isOk = true := by
  decide +kernel

def definition : Definition :=
  match h : Definition.ofDeclaration declaration with
  | .ok d => d
  | .error _ => absurd isOk_declaration (by simp [h, Except.isOk, Except.toBool])

theorem ofDeclaration_declaration : Definition.ofDeclaration declaration = .ok definition := by
  unfold definition
  split
  · assumption
  · rename_i x hx
    exact absurd isOk_declaration (by simp [hx, Except.isOk, Except.toBool])

/-- Switches the output and counts. -/
def toggle (b : Bindings) : List Effect :=
  let next := if b.outputs.get? "led" = some "1" then "0" else "1"
  let toggles := (b.integer? "toggles").getD 0 + 1
  [.write "led" next, .assign "toggles" (toString toggles)]

def registry : Registry :=
  (Registry.empty.withAction "led_off" fun _ => .ok [.write "led" "0"]).withAction "toggle_led"
    fun b => .ok (toggle b)

/-- The machine, not started. -/
def interpreter : Interpreter := .ofDefinition definition registry.evaluator

end RemoteAutomaton.CommandLine.Blink
