import RemoteAutomaton.CommandLine.Blink
import RemoteAutomaton.CommandLine.Flags
import RemoteAutomaton.Config.Loading

/-!
# Preparing a run

The runner takes its configuration from a file, the environment and its flags, of which the later
ones win, and its machine from the file of the configuration. Guards and actions of such a machine
have no meaning of their own: each of them fails when it is needed. `Blink.prepare` runs the machine
that blinks, with the addresses of the configuration.
-/

namespace RemoteAutomaton.CommandLine

open Automaton (Interpreter Registry)
open Config (Environment Files)

/-- Why nothing is run. -/
inductive Refusal where
  | stop (s : Stop)
  | config (e : Config.Error)
  deriving DecidableEq, Repr

/-- The exit code of a program that runs nothing. -/
def Refusal.exitCode : Refusal → Nat
  | stop s => s.exitCode
  | config _ => 1

namespace Runner

/-- The flags that were given. -/
structure Arguments where
  machine : Option String := none
  config : Option String := none
  bindHost : Option String := none
  listenPort : Option Nat := none
  peerHost : Option String := none
  peerPort : Option Nat := none
  name : Option String := none
  deriving DecidableEq, Repr

/-- Reads a path, which is not empty. -/
def readPath? (s : String) : Option String := if s.isEmpty then none else some s

/-- Reads a port. Zero may have a minus sign. -/
def readPort? (s : String) : Option Nat :=
  (Text.readInt64? s.toList).bind fun n => if 0 ≤ n ∧ n < 0x10000 then some n.toNat else none

/-- The flags of the runner. -/
def grammar : Grammar Arguments where
  flags :=
    [.of "machine" (some 'm') readPath? (·.machine) fun a v => { a with machine := some v },
      .of "config" (some 'c') readPath? (·.config) fun a v => { a with config := some v },
      .of "bind-host" none some (·.bindHost) fun a v => { a with bindHost := some v },
      .of "listen-port" (some 'l') readPort? (·.listenPort)
        fun a v => { a with listenPort := some v },
      .of "peer-host" none some (·.peerHost) fun a v => { a with peerHost := some v },
      .of "peer-port" (some 'p') readPort? (·.peerPort) fun a v => { a with peerPort := some v },
      .of "name" (some 'n') some (·.name) fun a v => { a with name := some v }]

/-- Reads the arguments. The configuration file may be named by the environment instead. -/
def read (env : Environment) (args : List String) : Except Stop Arguments := do
  let a ← grammar.read {} args
  match a.config, env "STATEWIRE_CONFIG" with
  | none, some path =>
    match readPath? path with
    | some path => return { a with config := some path }
    | none => throw .usage
  | _, _ => return a

/-- The configuration with what the flags give. -/
def Arguments.override (a : Arguments) (c : Config) : Config where
  network :=
    { bindHost := a.bindHost.getD c.network.bindHost
      listenPort := a.listenPort.getD c.network.listenPort
      peerHost := a.peerHost.getD c.network.peerHost
      peerPort := a.peerPort.getD c.network.peerPort }
  machine := ⟨a.machine.or c.machine.path, a.name.or c.machine.name⟩

/-- The settings of the engine, and the machine that it is to run. -/
def prepare (files : Files) (env : Environment) (args : List String) :
    Except Refusal (Engine.Settings × Interpreter) := do
  let a ← (read env args).mapError .stop
  let c := a.override (← (Config.loadFrom files env a.config).mapError .config)
  c.validate.mapError .config
  let d ← (c.machine.definition files).mapError .config
  return (c.engineSettings d.name, .ofDefinition d Registry.empty.evaluator)

end Runner

/-- The settings of the engine, and the machine that blinks. Arguments mean nothing here. -/
def Blink.prepare (files : Files) (env : Environment) :
    Except Refusal (Engine.Settings × Interpreter) := do
  let c ← (Config.load files env).mapError .config
  c.network.validate.mapError .config
  return (c.engineSettings Blink.definition.name, Blink.interpreter)

end RemoteAutomaton.CommandLine
