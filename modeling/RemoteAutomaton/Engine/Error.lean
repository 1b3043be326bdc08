import RemoteAutomaton.Automaton.Error
import RemoteAutomaton.Network.Error
import RemoteAutomaton.Timer.Schedule

/-!
# Failures of an engine

An engine fails with the failure of one of its parts, or because handlers are missing.
-/

namespace RemoteAutomaton.Engine

inductive Error where
  | network (e : Network.Error)
  | timer (e : Timer.Error)
  | automaton (e : Automaton.Error)
  /-- Handlers that are not set, joined by commas. -/
  | handlersMissing (names : String)
  deriving DecidableEq, Repr

namespace Error

def code : Error → String
  | network e => e.code
  | timer e => e.code
  | automaton e => e.code
  | handlersMissing _ => "NOT_CONFIGURED"

def message : Error → String
  | network e => "transport error: " ++ e.text
  | timer e => "timer error: " ++ e.message
  | automaton e => "core error: " ++ e.message
  | handlersMissing names => "engine not configured: missing " ++ names

/-- The text of an error report. A part's failure is reported in its own words. -/
def report : Error → String
  | network e => e.report
  | timer e => e.code ++ ": " ++ e.message
  | automaton e => e.report
  | handlersMissing names => (handlersMissing names).code ++ ": " ++ (handlersMissing names).message

end Error

end RemoteAutomaton.Engine
