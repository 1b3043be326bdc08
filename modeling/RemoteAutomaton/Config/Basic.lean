import RemoteAutomaton.Config.Error
import RemoteAutomaton.Engine.Loop
import RemoteAutomaton.Text.Integer

/-!
# Configurations

A configuration says where the program listens, who observes it and which machine it runs. Its
values come from a file and from the environment; what neither gives has a default.
-/

namespace RemoteAutomaton

namespace Config

/-- The addresses of the program and of its observer. -/
structure Network where
  bindHost : String := "127.0.0.1"
  listenPort : Nat := 9001
  peerHost : String := "127.0.0.1"
  peerPort : Nat := 9000
  deriving DecidableEq, Repr

/-- The file of the machine, and the name that is announced instead of the machine's. -/
structure Machine where
  path : Option String := none
  name : Option String := none
  deriving DecidableEq, Repr

/-- The values of variables by name. -/
abbrev Environment := String → Option String

def readPort? (s : String) : Option Nat := Text.readBelow? 0x10000 s.toList

/-- The addresses with those that the environment gives. A port that cannot be read is not given. -/
def Network.withEnvironment (n : Network) (env : Environment) : Network where
  bindHost := (env "STATEWIRE_BIND_HOST").getD n.bindHost
  listenPort := ((env "STATEWIRE_LISTEN_PORT").bind readPort?).getD n.listenPort
  peerHost := (env "STATEWIRE_PEER_HOST").getD n.peerHost
  peerPort := ((env "STATEWIRE_PEER_PORT").bind readPort?).getD n.peerPort

/-- Checks the addresses. -/
def Network.validate (n : Network) : Except Error Unit :=
  if n.bindHost.isEmpty then .error (.validation .emptyBindHost)
  else if n.peerHost.isEmpty then .error (.validation .emptyPeerHost)
  else if n.peerPort = 0 then .error (.validation .zeroPeerPort)
  else .ok ()

/-- The machine with what the environment gives. The empty name is not given. -/
def Machine.withEnvironment (m : Machine) (env : Environment) : Machine where
  path := (env "STATEWIRE_MACHINE").or m.path
  name := ((env "STATEWIRE_NAME").filter fun s => !s.isEmpty).or m.name

end Config

structure Config where
  network : Config.Network := {}
  machine : Config.Machine := {}
  deriving DecidableEq, Repr

namespace Config

/-- The configuration with what the environment gives. -/
def withEnvironment (c : Config) (env : Environment) : Config :=
  ⟨c.network.withEnvironment env, c.machine.withEnvironment env⟩

/-- Checks all that running a machine from a file needs. -/
def validate (c : Config) : Except Error Unit := do
  c.network.validate
  if c.machine.path.isNone then throw (.validation .noMachine)

/-- The settings of an engine with this configuration. `name` is announced if no other is given. -/
def engineSettings (c : Config) (name : String) : Engine.Settings where
  name := c.machine.name.getD name
  bindHost := c.network.bindHost
  listenPort := c.network.listenPort
  peerHost := c.network.peerHost
  peerPort := c.network.peerPort

end Config

end RemoteAutomaton
