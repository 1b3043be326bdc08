import RemoteAutomaton.Message.Error

/-!
# Failures of the network
-/

namespace RemoteAutomaton.Network

/-- What goes wrong between an automaton and its observer. Reasons are the words of the host
system. -/
inductive Error where
  /-- The local address cannot be used. -/
  | bind (address reason : String)
  /-- The observer's host cannot be looked up. -/
  | resolve (host reason : String)
  /-- The observer's host has no address. -/
  | noAddress (host : String)
  /-- A datagram was refused. -/
  | send (peer reason : String)
  /-- No datagram could be received. -/
  | receive (reason : String)
  /-- A datagram that is no message. -/
  | message (e : Message.Error)
  deriving DecidableEq, Repr

namespace Error

/-- The word that identifies the failure. -/
def code : Error → String
  | bind _ _ => "BIND_FAILED"
  | resolve _ _ => "RESOLVE_FAILED"
  | noAddress _ => "NO_ADDRESS"
  | send _ _ => "SEND_FAILED"
  | receive _ => "RECV_FAILED"
  | message e => e.code

/-- The text that explains the failure. -/
def text : Error → String
  | bind address reason => "failed to bind " ++ address ++ ": " ++ reason
  | resolve host reason => "failed to resolve peer host '" ++ host ++ "': " ++ reason
  | noAddress host => "peer host '" ++ host ++ "' resolved to no address"
  | send peer reason => "send to " ++ peer ++ " failed: " ++ reason
  | receive reason => "receive failed: " ++ reason
  | message e => "protocol error: " ++ e.message

/-- The text of an error report. A datagram that is no message is reported in its own words. -/
def report : Error → String
  | message e => e.report
  | e => e.code ++ ": " ++ e.text

end Error

end RemoteAutomaton.Network
