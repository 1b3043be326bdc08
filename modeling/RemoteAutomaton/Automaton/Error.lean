import RemoteAutomaton.Json.Literal
import RemoteAutomaton.Machine.Defect
import RemoteAutomaton.Text.Quoted

/-!
# Failures of an automaton

`Error.code` is the stable word by which an observer tells failures apart, `Error.message` the text
for people, and `Error.report` the two together, as they are sent. A failure is recoverable if the
automaton can go on after it.
-/

namespace RemoteAutomaton.Automaton

inductive Error where
  | notConfigured (reason : String)
  | notStarted
  | alreadyStarted
  | stateNotFound (state : String)
  /-- Immediate transitions came back to a state. -/
  | cycleDetected (state : String)
  | invalidDefinition (reason : String)
  | guardFailed (guard reason : String)
  | actionFailed (action reason : String)
  | unknownVariable (name : String)
  | unknownOutput (name : String)
  | invalidDelay (reason : String)
  /-- A definition that is not the wanted JSON. -/
  | json (fault : Json.Fault)
  deriving DecidableEq, Repr

namespace Error

def ofDefect (d : Machine.Defect) : Error := invalidDefinition d.message

def code : Error → String
  | notConfigured _ => "NOT_CONFIGURED"
  | notStarted => "NOT_STARTED"
  | alreadyStarted => "ALREADY_STARTED"
  | stateNotFound _ => "STATE_NOT_FOUND"
  | cycleDetected _ => "CYCLE_DETECTED"
  | invalidDefinition _ => "INVALID_DEFINITION"
  | guardFailed _ _ => "GUARD_ERROR"
  | actionFailed _ _ => "ACTION_ERROR"
  | unknownVariable _ => "UNKNOWN_VARIABLE"
  | unknownOutput _ => "UNKNOWN_OUTPUT"
  | invalidDelay _ => "INVALID_DELAY"
  | json _ => "INVALID_DEFINITION"

def message : Error → String
  | notConfigured reason => "not configured: " ++ reason
  | notStarted => "automaton not started"
  | alreadyStarted => "automaton already started"
  | stateNotFound state => "state not found: " ++ state
  | cycleDetected state => "immediate transition cycle: state '" ++ state ++ "' entered twice"
  | invalidDefinition reason => "invalid machine definition: " ++ reason
  | guardFailed guard reason => "guard '" ++ guard ++ "' failed: " ++ reason
  | actionFailed action reason => "action '" ++ action ++ "' failed: " ++ reason
  | unknownVariable name => "unknown variable: " ++ name
  | unknownOutput name => "unknown output: " ++ name
  | invalidDelay reason => "invalid delay: " ++ reason
  | json fault => "JSON error: " ++ fault.word

/-- Whether the automaton can go on. -/
def isRecoverable : Error → Bool
  | notConfigured _ | invalidDefinition _ | json _ => false
  | _ => true

def report (e : Error) : String := e.code ++ ": " ++ e.message

end Error

inductive DelayFault where
  /-- The variable's value is no integer of 64 bits. -/
  | notInteger (variableName value : String)
  /-- The variable's value is zero or less. -/
  | notPositive (variableName : String) (value : Int)
  | zero
  /-- A delay of no time before a transition to that state. -/
  | zeroFor (target : String)
  /-- A host that does not want timers for that state. -/
  | refused (target : String)
  deriving DecidableEq, Repr

def DelayFault.reason : DelayFault → String
  | notInteger name value =>
    "variable '" ++ name ++ "' does not hold an integer: " ++ Text.quote value
  | notPositive name value =>
    "variable '" ++ name ++ "' holds non-positive delay " ++ toString value
  | zero => "delay must be positive"
  | zeroFor target => "zero delay for target '" ++ target ++ "'"
  | refused target => "host refuses '" ++ target ++ "'"

def Error.ofDelay (f : DelayFault) : Error := .invalidDelay f.reason

end RemoteAutomaton.Automaton
