import RemoteAutomaton.Engine.Error
import RemoteAutomaton.Network.Transport
import RemoteAutomaton.Timer.Schedule

/-!
# The automaton's side of an engine

The link is the host of an automaton that is observed over a network: what the automaton reports is
sent to the observer, and its timers are those of a schedule. Failures are sent as well, and are
kept until the engine hands them to its error handler; a message that cannot be sent is itself such
a failure.
-/

namespace RemoteAutomaton.Engine

open Automaton (Notice TimerId)
open Message (Outbound)
open Network (Socket Transport)

/-- The channel to the observer, the timers, and what the engine has to see to. -/
structure Link (σ : Type) where
  transport : Transport σ
  timers : Timer.Schedule := {}
  /-- The failures that the error handler has not been told, the oldest first. -/
  pendingErrors : List String := []
  /-- Whether the engine is to stop after the event at hand. -/
  stopRequested : Bool := false

namespace Link

variable {σ : Type} [Socket σ]

/-- Keeps the outcome of sending. -/
def noteSent (l : Link σ) (r : Except Network.Error Unit × Transport σ) : Link σ :=
  match r.1 with
  | .ok () => { l with transport := r.2 }
  | .error e =>
    { l with transport := r.2, pendingErrors := l.pendingErrors ++ [(Error.network e).report] }

def send (l : Link σ) (m : Outbound) : Link σ := l.noteSent (l.transport.send m)

/-- Sends messages that wait for the socket. -/
def flush (l : Link σ) : Link σ := l.noteSent l.transport.flush

/-- Keeps the failure to wait for room, if messages wait. -/
def waitFailed (l : Link σ) (reason : String) : Link σ :=
  if l.transport.isWaiting then
    l.noteSent (.error (.send l.transport.peer.text reason), l.transport)
  else l

/-- Sends a failure, and keeps it for the error handler. -/
def sendError (l : Link σ) (text : String) : Link σ :=
  let l := l.send (.error text)
  { l with pendingErrors := l.pendingErrors ++ [text] }

omit [Socket σ] in
def requestStop (l : Link σ) : Link σ := { l with stopRequested := true }

omit [Socket σ] in
def schedule (l : Link σ) (delay : Nat) (target : String) : Except Timer.Error TimerId × Link σ :=
  match l.timers.schedule delay target with
  | .ok (id, timers) => (.ok id, { l with timers })
  | .error e => (.error e, l)

omit [Socket σ] in
/-- Cancels a timer, and tells whether it was outstanding. -/
def cancel (l : Link σ) (id : TimerId) : Bool × Link σ :=
  let (found, timers) := l.timers.cancel id
  (found, { l with timers })

omit [Socket σ] in
/-- Cancels every timer, and tells how many there were. -/
def cancelAll (l : Link σ) : Nat × Link σ :=
  let (count, timers) := l.timers.cancelAll
  (count, { l with timers })

omit [Socket σ] in
def elapse (l : Link σ) (milliseconds : Nat) : Link σ :=
  { l with timers := l.timers.elapse milliseconds }

/-- The message that a notice becomes. -/
def messageOf : Notice → Outbound
  | .state name => .state name
  | .output name value => .output name value
  | .var name value => .var name value
  | .log text => .log text
  | .failure e => .error e.report

def notify (l : Link σ) (n : Notice) : Link σ :=
  match n with
  | .failure e => l.sendError e.report
  | n => l.send (messageOf n)

instance : Automaton.Host (Link σ) where
  notify := notify
  schedule l delay target :=
    let (r, l) := l.schedule delay target
    (r.mapError Timer.Error.toAutomaton, l)
  cancel l id := (l.cancel id).2

end Link

end RemoteAutomaton.Engine
