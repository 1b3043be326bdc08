/-!
# Why a declared machine is refused
-/

namespace RemoteAutomaton.Machine

/-- A way in which a declaration is no machine. -/
inductive Defect where
  | emptyStateName
  | duplicateState (name : String)
  | unknownInitial (name : String)
  | duplicateVariable (name : String)
  | duplicateInput (name : String)
  | duplicateOutput (name : String)
  | unknownSource (name : String)
  | unknownTarget (name : String)
  /-- A transition with a fixed delay and a variable one. -/
  | twoDelays (source target : String)
  | zeroDelay (source target : String)
  | unknownDelayVariable (name : String)
  /-- A transition with an event and a delay. -/
  | eventAndDelay (source target : String)
  deriving DecidableEq, Repr

/-- A transition in a message. -/
def Defect.arrow (source target : String) : String :=
  "transition '" ++ source ++ "' -> '" ++ target ++ "'"

def Defect.message : Defect → String
  | emptyStateName => "state with empty name"
  | duplicateState name => "duplicate state '" ++ name ++ "'"
  | unknownInitial name => "initial state '" ++ name ++ "' not in states list"
  | duplicateVariable name => "duplicate variable '" ++ name ++ "'"
  | duplicateInput name => "duplicate input '" ++ name ++ "'"
  | duplicateOutput name => "duplicate output '" ++ name ++ "'"
  | unknownSource name => "transition source '" ++ name ++ "' not in states list"
  | unknownTarget name => "transition target '" ++ name ++ "' not in states list"
  | twoDelays source target => Defect.arrow source target ++ " has both delay_ms and delay_var"
  | zeroDelay source target => Defect.arrow source target ++ " has a zero delay"
  | unknownDelayVariable name => "delay variable '" ++ name ++ "' is not declared"
  | eventAndDelay source target =>
    Defect.arrow source target ++ " is both event-triggered and delayed"

end RemoteAutomaton.Machine
