import RemoteAutomaton.Engine.Link

/-!
# Engines

An engine takes one event after the other and calls the handler that is set for it; the handlers
share the automaton and the link. After every event the failures that came up are handed to the
error handler. An engine stops on a command, a signal or a request: it calls the terminate handler,
announces its end, cancels all timers and closes the channel. A stopped engine does nothing.
-/

namespace RemoteAutomaton

namespace Engine

open Automaton (TimerId)
open Message (Command Outbound)
open Network (Access Socket Transport)

/-- The name that an engine announces, the address it listens on and its observer's address. -/
structure Settings where
  name : String := "statewire"
  bindHost : String := "127.0.0.1"
  listenPort : Nat := 9001
  peerHost : String := "127.0.0.1"
  peerPort : Nat := 9000
  deriving DecidableEq, Repr

/-- What an engine does on events, for automata of type `τ`. -/
structure Handlers (σ τ : Type) where
  /-- A value for an input: its name and the value. -/
  input : Option (τ → Link σ → String → String → τ × Link σ) := none
  /-- A timer that expired, and the state that it leads to. -/
  timeout : Option (τ → Link σ → TimerId → String → τ × Link σ) := none
  /-- The engine is about to stop. -/
  terminate : Option (τ → Link σ → τ × Link σ) := none
  /-- The text of a failure. -/
  error : Option (τ → String → τ) := none
  /-- The observer wants to know how things are. -/
  status : Option (τ → Link σ → τ × Link σ) := none

/-- The names of the handlers that are not set. -/
def Handlers.missing {σ τ : Type} (h : Handlers σ τ) : List String :=
  [("input", h.input.isNone), ("timeout", h.timeout.isNone), ("terminate", h.terminate.isNone),
    ("error", h.error.isNone), ("status", h.status.isNone)].filterMap
    fun (name, isMissing) => if isMissing then some name else none

/-- What can happen to an engine. -/
inductive Event where
  /-- The program that holds the engine wants it to stop. -/
  | shutdown
  /-- The host wants the program to end. -/
  | signal
  /-- The socket has room for messages that wait. -/
  | writable
  /-- Room for messages that wait could not be waited for. -/
  | waitFailed (reason : String)
  | elapsed (milliseconds : Nat)
  /-- The next timer whose deadline has been reached. -/
  | expiry
  /-- The observer sent a datagram. -/
  | datagram (d : ByteArray)
  /-- No datagram could be received. -/
  | receiveFailed (reason : String)

/-- The event that the socket has received this. -/
def Event.received : Except String ByteArray → Event
  | .ok d => .datagram d
  | .error reason => .receiveFailed reason

end Engine

/-- An engine over sockets `σ`, for automata of type `τ`. -/
structure Engine (σ τ : Type) where
  settings : Engine.Settings
  link : Engine.Link σ
  handlers : Engine.Handlers σ τ := {}
  stopped : Bool := false

namespace Engine

open Message (Command Outbound)
open Network (Access Socket Transport)

variable {σ τ : Type} [Socket σ]

/-- Opens the channel and announces the engine. -/
def connect (access : Access σ) (s : Settings) : Except Error (Engine σ τ) := do
  let transport ←
    (Transport.connect access s.bindHost s.listenPort s.peerHost s.peerPort).mapError .network
  match transport.startReceiving.send (.ready s.name) with
  | (.ok (), transport) => return { settings := s, link := { transport } }
  | (.error e, _) => throw (.network e)

/-- Hands pending failures to the error handler. -/
def drainErrors (g : Engine σ τ) (a : τ) : Engine σ τ × τ :=
  ({ g with link := { g.link with pendingErrors := [] } },
    match g.handlers.error with
    | some f => g.link.pendingErrors.foldl f a
    | none => a)

/-- Sends messages that wait until none is left or the socket no longer takes any. -/
def drainQueue (l : Link σ) : Link σ :=
  if l.transport.queue = [] then l
  else
    let l := { l with transport := l.transport.wait }
    if l.transport.isWritable then
      let flushed := l.flush
      if _ : flushed.transport.queue.length < l.transport.queue.length then drainQueue flushed
      else flushed
    else l
termination_by l.transport.queue.length
decreasing_by assumption

/-- Announces the end, cancels all timers and closes the channel. -/
def stop (g : Engine σ τ) : Engine σ τ :=
  if g.stopped then g
  else
    let link := drainQueue ((g.link.send .terminating).cancelAll).2
    { g with link := { link with transport := link.transport.shutdown }, stopped := true }

/-- Stops an engine that runs, after its terminate handler. -/
def finish (g : Engine σ τ) (a : τ) : Engine σ τ × τ :=
  let (a, link) :=
    match g.handlers.terminate with
    | some f => f a g.link
    | none => (a, g.link)
  let (g, a) := drainErrors { g with link } a
  (g.stop, a)

/-- What a message of the observer asks for: whether to stop, the automaton and the link. -/
def takeMessage (g : Engine σ τ) (a : τ) (m : Except Network.Error Message.Inbound) :
    Bool × τ × Link σ :=
  match m with
  | .error e => (false, a, g.link.sendError (Error.network e).report)
  | .ok m =>
    match m.kind with
    | .input =>
      match g.handlers.input with
      | some f => (false, f a g.link m.name m.value)
      | none => (false, a, g.link)
    | .command =>
      match m.command with
      | .ok .terminate => (true, a, g.link)
      | .ok .getStatus =>
        match g.handlers.status with
        | some f => (false, f a g.link)
        | none => (false, a, g.link)
      | .error e => (false, a, g.link.sendError (Error.network (.message e)).report)

/-- Takes what the socket has received, once datagrams are wanted. -/
def takeReceived (g : Engine σ τ) (a : τ) (r : Except String ByteArray) : Bool × τ × Link σ :=
  if g.link.transport.isReceiving then
    g.takeMessage a (Network.receive Message.maxDatagramSize r)
  else (false, a, g.link)

/-- Calls the handler of an event: whether to stop, the automaton and the link. -/
def dispatch (g : Engine σ τ) (a : τ) : Event → Bool × τ × Link σ
  | .shutdown | .signal => (true, a, g.link)
  | .writable => (false, a, g.link.flush)
  | .waitFailed reason => (false, a, g.link.waitFailed reason)
  | .elapsed ms => (false, a, g.link.elapse ms)
  | .expiry =>
    match g.link.timers.next with
    | (none, timers) => (false, a, { g.link with timers })
    | (some e, timers) =>
      let link := { g.link with timers }
      match g.handlers.timeout with
      | some f => (false, f a link e.id e.target)
      | none => (false, a, link)
  | .datagram d => g.takeReceived a (.ok d)
  | .receiveFailed reason => g.takeReceived a (.error reason)

def step (g : Engine σ τ) (a : τ) (e : Event) : Engine σ τ × τ :=
  if g.stopped then (g, a)
  else
    let (stops, a, link) := g.dispatch a e
    let (g, a) := drainErrors { g with link } a
    if stops || g.link.stopRequested then g.finish a else (g, a)

/-- Begins to run. Handlers that are missing are reported, and an engine that was asked to stop
stops. -/
def begin (g : Engine σ τ) (a : τ) : Except Error Unit × Engine σ τ × τ :=
  match g.handlers.missing with
  | [] =>
    if g.stopped then (.ok (), g, a)
    else
      let (g, a) := g.drainErrors a
      (.ok (), if g.link.stopRequested then g.finish a else (g, a))
  | names =>
    let e : Error := .handlersMissing (", ".intercalate names)
    let a :=
      match g.handlers.error with
      | some f => f a e.report
      | none => a
    (.error e, { g with link := g.link.send (.error e.report) }, a)

def takeAll (g : Engine σ τ) (a : τ) (events : List Event) : Engine σ τ × τ :=
  events.foldl (fun (g, a) e => g.step a e) (g, a)

def run (g : Engine σ τ) (a : τ) (events : List Event) : Except Error Unit × Engine σ τ × τ :=
  match g.begin a with
  | (.ok (), g, a) => (.ok (), g.takeAll a events)
  | (.error e, g, a) => (.error e, g, a)

omit [Socket σ] in
def elapse (g : Engine σ τ) (milliseconds : Nat) : Engine σ τ :=
  { g with link := g.link.elapse milliseconds }

/-- What an engine has not looked at yet. -/
structure Inbox where
  shutdown : Bool := false
  signal : Bool := false
  /-- What the socket has received: datagrams, and why others could not be received. -/
  received : List (Except String ByteArray) := []

/-- The event that an engine takes next, and what is left after it. An engine that is to stop is
stopped first; then it writes, then come timers and last what the socket has received. -/
def Inbox.next (i : Inbox) (l : Link σ) : Option (Event × Inbox) :=
  if i.shutdown then some (.shutdown, { i with shutdown := false })
  else if i.signal then some (.signal, { i with signal := false })
  else if l.transport.isWritable then some (.writable, i)
  else if l.timers.next.1.isSome then some (.expiry, i)
  else
    match i.received with
    | r :: rest =>
      if l.transport.isReceiving then some (.received r, { i with received := rest }) else none
    | [] => none

/-- Takes up to `n` events in the order in which an engine looks at them. -/
def takeFrom (g : Engine σ τ) (n : Nat) (a : τ) (i : Inbox) : Engine σ τ × τ × Inbox :=
  match n with
  | 0 => (g, a, i)
  | n + 1 =>
    if g.stopped then (g, a, i)
    else
      match i.next g.link with
      | none => (g, a, i)
      | some (e, i) =>
        let (g, a) := g.step a e
        takeFrom g n a i

/-- Takes all that an engine can look at. Each thing received and each timer that is due is taken
once, and the socket has room at most once, as nothing else happens meanwhile. -/
def settle (g : Engine σ τ) (a : τ) (i : Inbox) : Engine σ τ × τ :=
  let (g, a, _) := g.takeFrom (i.received.length + g.link.timers.due.length + 4) a i
  (g, a)

end Engine

end RemoteAutomaton
