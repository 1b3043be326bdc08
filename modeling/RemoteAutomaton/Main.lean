import RemoteAutomaton.CommandLine.Observer
import RemoteAutomaton.CommandLine.Runner
import RemoteAutomaton.CommandLine.Style
import RemoteAutomaton.Engine.Session
import Std.Async.DNS
import Std.Async.Signal
import Std.Async.Timer
import Std.Async.UDP

/-!
# The programs

The first argument names the program: `run` runs the machine of a file, `blink` the machine that
blinks, and `observe` is the observer's program. What these do is decided elsewhere; here datagrams,
deadlines and signals are waited for, and files, variables and the network are used.
-/

namespace RemoteAutomaton.CommandLine

open Automaton (Interpreter)
open Config (Environment Files)
open Engine (Inbox Session Settings)
open Message (Inbound Outbound)
open Network (Access Address Ip Outbox)
open Std.Async (Async Selectable Selector Signal)

/-- A socket of the host system. -/
abbrev HostSocket := Std.Async.UDP.Socket

/-- An address as the host system takes it. -/
def Address.toHost (a : Address) : Std.Net.SocketAddress :=
  let port := UInt16.ofNat a.port
  match a.host with
  | .v4 x y z w => .v4 ⟨.ofParts (.ofNat x) (.ofNat y) (.ofNat z) (.ofNat w), port⟩
  | .v6 groups => .v6 ⟨⟨Vector.ofFn fun i => UInt16.ofNat (groups.getD i.val 0)⟩, port⟩

/-- An address that the host system has found. -/
def Ip.ofHost : Std.Net.IPAddr → Ip
  | .v4 a =>
    .v4 (a.octets.get 0).toNat (a.octets.get 1).toNat (a.octets.get 2).toNat (a.octets.get 3).toNat
  | .v6 a => .v6 (a.segments.toList.map (·.toNat))

def lookUp (host : String) : IO (List Ip) := do
  match Ip.named? host with
  | some ip => return [ip]
  | none =>
    if host.isEmpty then throw (.userError "no host")
    let found ← (Std.Async.DNS.getAddrInfo host "").block
    return found.toList.map Ip.ofHost

/-- Calls an action and keeps the words of its failure. -/
def attempt {α : Type} (act : IO α) : IO (Except String α) := do
  try return .ok (← act) catch e => return .error (toString e)

/-- The values of the variables that the programs read. -/
def environment : IO Environment := do
  let names :=
    ["STATEWIRE_BIND_HOST", "STATEWIRE_LISTEN_PORT", "STATEWIRE_PEER_HOST", "STATEWIRE_PEER_PORT",
      "STATEWIRE_MACHINE", "STATEWIRE_NAME", "STATEWIRE_CONFIG", "STATEWIRE_ENGINE",
      "STATEWIRE_LISTEN", "CLICOLOR", "CLICOLOR_FORCE", "NO_COLOR"]
  let values ← names.mapM fun name => return (name, ← IO.getEnv name)
  return fun name => (values.lookup name).join

/-- The files of some paths, as far as they can be read. -/
def readFiles (paths : List String) : IO Files := do
  let texts ← paths.mapM fun (path : String) => do
    return (path, (← attempt (IO.FS.readFile path)).toOption)
  return fun path => (texts.lookup path).join

/-- The files of a configuration and of the machine that it names. -/
def filesOf (env : Environment) (path : Option String) (machine : Config → Option String) :
    IO Files := do
  let files ← readFiles path.toList
  match Config.loadFrom files env path with
  | .error _ => return files
  | .ok c => readFiles (path.toList ++ (machine c).toList)

/-- Prints why a program fails. -/
def complain (text : String) : IO Unit := IO.eprintln ("Error: " ++ text)

def transmit (socket : HostSocket) (peer : Address) (datagrams : List ByteArray) : IO Unit :=
  datagrams.forM fun d => (socket.send d (some (Address.toHost peer))).block

/-- What comes first: a datagram or the failure to receive one, a signal, or the end of a time. -/
def nextInbox (socket : HostSocket) (signals : List Signal.Waiter) (time : Option Nat) :
    Async Inbox := do
  let datagram : Selectable Inbox :=
    .case (socket.recvSelector (.ofNat Message.maxDatagramSize)) fun (d, _) =>
      return { received := [.ok d] }
  let signal (s : Signal.Waiter) : Selectable Inbox :=
    .case s.selector fun _ => return { signal := true }
  let sources := datagram :: signals.map signal
  try
    match time with
    | none => Selectable.one sources.toArray
    | some ms =>
      let sleep ← Selector.sleep (Std.Time.Millisecond.Offset.ofNat ms)
      Selectable.one (.case sleep (fun _ => return {}) :: sources).toArray
  catch e => return { received := [.error (toString e)] }

/-- Lets a session run until its engine has stopped. `start` is when its time began. -/
partial def serve (socket : HostSocket) (signals : List Signal.Waiter) (start : Nat)
    (s : Session Outbox) : IO Unit := do
  let transport := s.engine.link.transport
  let report ← attempt (transmit socket transport.peer transport.socket.sent.toList)
  if let .error reason := report then complain reason
  let link := { s.engine.link with transport := { transport with socket := ({} : Outbox) } }
  let g := { s.engine with link }
  if g.stopped then return
  let timers := g.link.timers
  let deadline := (timers.asleep.map (·.deadline)).min?
  let past := (← IO.monoMsNow) - start
  let inbox ← (nextInbox socket signals (deadline.map (· - past))).block
  let g := g.elapse ((← IO.monoMsNow) - start - timers.now)
  let (engine, interpreter) := g.settle s.interpreter inbox
  serve socket signals start ⟨engine, interpreter⟩

/-- Binds a socket to the first of a host's addresses that takes it. -/
def bindSocket (host : String) (port : Nat) : IO (Bool × HostSocket) := do
  let mut failure : IO.Error := .userError "no address"
  for ip in ← lookUp host do
    let socket ← Std.Async.UDP.Socket.mk
    try
      socket.bind (Address.toHost ⟨ip, 0, port⟩)
      return (ip.isV4, socket)
    catch e => failure := e
  throw failure

/-- Runs a machine until it ends, and tells the exit code. -/
def runMachine (s : Settings) (m : Interpreter) : IO UInt32 := do
  let bound ← attempt (bindSocket s.bindHost s.listenPort)
  let found ← attempt (lookUp s.peerHost)
  let access : Access Outbox :=
    { bind _ := bound.map fun (isV4, _) => (isV4, {})
      resolve _ port := found.map (·.map fun ip => ⟨ip, 0, port⟩) }
  match bound, Session.begin access s m with
  | .ok (_, socket), .ok (result, session) =>
    let start ← IO.monoMsNow
    let transport := session.engine.link.transport
    if let .error reason ← attempt (transmit socket transport.peer
        (transport.socket.sent.toList.take 1)) then
      complain (Engine.Error.network (.send transport.peer.text reason)).message
      return 1
    let rest := { transport with socket := { sent := transport.socket.sent.extract 1 } }
    let link := { session.engine.link with transport := rest }
    let signals ← [Signal.sigint, Signal.sigterm].mapM fun s => Signal.Waiter.mk s false
    serve socket signals start { session with engine := { session.engine with link } }
    match result with
    | .ok () => return 0
    | .error e =>
      complain e.message
      return 1
  | _, .error e =>
    complain e.message
    return 1
  | .error reason, _ =>
    complain reason
    return 1

/-- Runs a prepared machine, or tells why there is none. -/
def runPrepared : Except Refusal (Settings × Interpreter) → IO UInt32
  | .ok (s, m) => runMachine s m
  | .error e => do
    match e with
    | .stop _ => pure ()
    | .config c => complain c.message
    return .ofNat e.exitCode

/-- The program that runs the machine of a file. -/
def runnerMain (env : Environment) (args : List String) : IO UInt32 := do
  let files ←
    match Runner.read env args with
    | .ok a => filesOf env a.config fun c => (a.override c).machine.path
    | .error _ => readFiles []
  runPrepared (Runner.prepare files env args)

/-- The program that runs the machine that blinks. -/
def blinkMain (env : Environment) : IO UInt32 := do
  let files ← filesOf env (env "STATEWIRE_CONFIG") fun _ => none
  runPrepared (Blink.prepare files env)

/-- The datagrams among what was received. An observer fails where none could be received. -/
def datagramsOf (inbox : Inbox) : IO (List ByteArray) :=
  inbox.received.mapM fun r => IO.ofExcept r

/-- The datagrams that come until nothing has come for a time. -/
partial def collect (socket : HostSocket) (quiet : Nat) (seen : List ByteArray) :
    IO (List ByteArray) := do
  match ← datagramsOf (← (nextInbox socket [] (some quiet)).block) with
  | [] => return seen
  | ds => collect socket quiet (seen ++ ds)

/-- Prints status messages until the engine ends or a signal comes. -/
partial def watch (isStyled : Bool) (socket : HostSocket) (signals : List Signal.Waiter) :
    IO Unit := do
  let inbox ← (nextInbox socket signals none).block
  if inbox.signal then return
  let messages := Observer.statusMessages (← datagramsOf inbox)
  for m in messages do
    IO.println (Observer.statusText isStyled m)
  if messages.contains .terminating then return
  watch isStyled socket signals

/-- Does what an observer wants. -/
def observe (isStyled : Bool) (p : Observer.Plan) : IO Unit := do
  let socket ← Std.Async.UDP.Socket.mk
  match p.task with
  | .status _ | .watch => socket.bind (Address.toHost p.listen)
  | _ => pure ()
  transmit socket p.engine ((Observer.request? p.task).toList.map (·.encode))
  match p.task with
  | .watch => watch isStyled socket [← Signal.Waiter.mk .sigint false]
  | .status quiet => IO.println (p.resultText isStyled (← collect socket quiet []))
  | _ => IO.println (p.resultText isStyled [])

/-- The program that observes an engine. -/
def observerMain (env : Environment) (args : List String) : IO UInt32 := do
  match Observer.read env args with
  | .error stop =>
    if let some text := Observer.stopText env stop then IO.println text
    return .ofNat stop.exitCode
  | .ok p =>
    let isStyled := wantsStyles env (← (← IO.getStdout).isTty)
    match ← attempt (observe isStyled p) with
    | .ok () => return 0
    | .error reason =>
      complain reason
      return 1

end RemoteAutomaton.CommandLine

open RemoteAutomaton.CommandLine in
/-- Runs the program that the first argument names. -/
def main (args : List String) : IO UInt32 := do
  let env ← environment
  match args with
  | "run" :: rest => runnerMain env rest
  | "blink" :: _ => blinkMain env
  | "observe" :: rest => observerMain env rest
  | _ =>
    complain "the first argument is run, blink or observe"
    return 2
