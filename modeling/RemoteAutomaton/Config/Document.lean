import RemoteAutomaton.Config.Basic
import RemoteAutomaton.Document.Record
import RemoteAutomaton.Yaml.Node
import RemoteAutomaton.Yaml.Printer

/-!
# Configurations as YAML
-/

namespace RemoteAutomaton.Config

open Document

variable {ν ε : Type} [Source ν ε]

/-- Addresses while their fields are read. -/
structure Network.Draft where
  bindHost : Option String := none
  listenPort : Option Nat := none
  peerHost : Option String := none
  peerPort : Option Nat := none

def Network.Draft.finish (d : Network.Draft) : Network :=
  let n : Network := {}
  ⟨d.bindHost.getD n.bindHost, d.listenPort.getD n.listenPort, d.peerHost.getD n.peerHost,
    d.peerPort.getD n.peerPort⟩

def Network.fields : List (Field ν ε Network.Draft) :=
  [Field.of "bind_host" readText (·.bindHost) fun d v => { d with bindHost := some v },
    Field.of "listen_port" (readNatural 0x10000) (·.listenPort)
      fun d v => { d with listenPort := some v },
    Field.of "peer_host" readText (·.peerHost) fun d v => { d with peerHost := some v },
    Field.of "peer_port" (readNatural 0x10000) (·.peerPort)
      fun d v => { d with peerPort := some v }]

def Network.read : ν → Except ε Network :=
  readRecord Network.fields {} fun d => some d.finish

/-- The choice of a machine while its fields are read. -/
structure Machine.Draft where
  path : Option (Option String) := none
  name : Option (Option String) := none

def Machine.fields : List (Field ν ε Machine.Draft) :=
  [Field.of "path" (readOptional readText) (·.path) fun d v => { d with path := some v },
    Field.of "name" (readOptional readText) (·.name) fun d v => { d with name := some v }]

def Machine.read : ν → Except ε Machine :=
  readRecord Machine.fields {} fun d => some ⟨d.path.join, d.name.join⟩

/-- A configuration while its fields are read. -/
structure Draft where
  network : Option Network := none
  machine : Option Machine := none

def fields : List (Field ν ε Draft) :=
  [Field.of "network" Network.read (·.network) fun d v => { d with network := some v },
    Field.of "machine" Machine.read (·.machine) fun d v => { d with machine := some v }]

def read : ν → Except ε Config :=
  readRecord fields {} fun d => some ⟨d.network.getD {}, d.machine.getD {}⟩

def ofYaml (s : String) : Except Yaml.Fault Config := Yaml.readText read s

/-- A text that may be missing. -/
def optional : Option String → Yaml.Draft
  | some s => .text s
  | none => .null

def toYaml (c : Config) : String :=
  String.ofList <| Yaml.Draft.renderEntries 0
    [("network", .mapping
        [("bind_host", .text c.network.bindHost), ("listen_port", .natural c.network.listenPort),
          ("peer_host", .text c.network.peerHost), ("peer_port", .natural c.network.peerPort)]),
      ("machine", .mapping
        [("path", optional c.machine.path), ("name", optional c.machine.name)])]

end RemoteAutomaton.Config
