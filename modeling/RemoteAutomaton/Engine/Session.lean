import RemoteAutomaton.Automaton.Interpreter
import RemoteAutomaton.Engine.Loop

/-!
# Sessions of an automaton

A session is an engine that runs an interpreter: inputs, timers and status requests become
operations of the interpreter. A failed operation is reported and the automaton goes on; an
automaton that asks for its end stops the engine.
-/

namespace RemoteAutomaton.Engine

open Automaton (Interpreter Outcome TimerId)
open Network (Access Socket)

variable {σ : Type} [Socket σ]

/-- Reports a failed operation, and stops the engine if the automaton has asked for its end. -/
def surface {α : Type} (o : Outcome (Link σ) α) : Interpreter × Link σ :=
  let link :=
    match o.result with
    | .ok _ => o.host
    | .error e => o.host.sendError e.report
  (o.interpreter, if o.interpreter.isTerminating then link.requestStop else link)

/-- The handlers that pass events to an interpreter. -/
def interpreterHandlers : Handlers σ Interpreter where
  input := some fun m link name value => surface (m.processInput link name value)
  timeout := some fun m link id _ => surface (m.fireTimer link id)
  terminate := some fun m link => m.terminate link
  error := some fun m _ => m
  status := some fun m link => surface (m.reportStatus link)

/-- Starts an interpreter. Failures that it survives are only reported. -/
def startInterpreter {τ : Type} (g : Engine σ τ) (m : Interpreter) :
    Except Error Unit × Engine σ τ × Interpreter :=
  let o := m.start g.link
  match o.result with
  | .ok () =>
    (.ok (), { g with link := if o.interpreter.isTerminating then o.host.requestStop else o.host },
      o.interpreter)
  | .error e =>
    let link := o.host.sendError e.report
    if e.isRecoverable then
      (.ok (), { g with link := if o.interpreter.isTerminating then link.requestStop else link },
        o.interpreter)
    else (.error (.automaton e), { g with link }, o.interpreter)

structure Session (σ : Type) where
  engine : Engine σ Interpreter
  interpreter : Interpreter

/-- Opens a session: the engine is announced, the interpreter started and the loop begun. A session
whose interpreter cannot be started has ended. -/
def Session.begin (access : Access σ) (s : Settings) (m : Interpreter) :
    Except Error (Except Error Unit × Session σ) := do
  let g : Engine σ Interpreter ← Engine.connect access s
  match startInterpreter { g with handlers := interpreterHandlers } m with
  | (.error e, g, m) => return (.error e, ⟨g.stop, m⟩)
  | (.ok (), g, m) =>
    let (r, g, m) := g.begin m
    return (r, ⟨g, m⟩)

def Session.step (s : Session σ) (e : Event) : Session σ :=
  let (g, m) := s.engine.step s.interpreter e
  ⟨g, m⟩

end RemoteAutomaton.Engine
