import RemoteAutomaton.Automaton.Error
import RemoteAutomaton.Yaml.Character

/-!
# What is wrong with a configuration
-/

namespace RemoteAutomaton.Config

/-- A setting that the program cannot run with. -/
inductive Problem where
  | emptyBindHost
  | emptyPeerHost
  | zeroPeerPort
  | noMachine
  deriving DecidableEq, Repr

def Problem.message : Problem → String
  | emptyBindHost => "bind_host must not be empty"
  | emptyPeerHost => "peer_host must not be empty"
  | zeroPeerPort => "peer_port must not be 0"
  | noMachine => "machine definition path not set"

/-- Why the text of a file is not what it should be. -/
inductive Reason where
  | yaml (f : Yaml.Fault)
  | definition (e : Automaton.Error)
  deriving DecidableEq, Repr

def Reason.message : Reason → String
  | yaml .malformed => "not a YAML document"
  | yaml .unfit => "unexpected YAML value"
  | definition e => e.report

/-- The failures of loading and checking a configuration. -/
inductive Error where
  /-- A file that is not there, is no text, or cannot be written. -/
  | file (path : String)
  | parse (path : String) (reason : Reason)
  | validation (p : Problem)
  deriving DecidableEq, Repr

/-- The text that explains the failure. -/
def Error.message : Error → String
  | file path => "failed to read config file '" ++ path ++ "'"
  | parse path reason => "failed to parse config file '" ++ path ++ "': " ++ reason.message
  | validation p => "configuration validation failed: " ++ p.message

end RemoteAutomaton.Config
