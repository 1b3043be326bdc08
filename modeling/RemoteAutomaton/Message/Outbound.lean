import RemoteAutomaton.Message.Error
import RemoteAutomaton.Text.Line

/-!
# Messages to the observer

The automaton reports what happens in status lines: a keyword, a space and a payload. The payload
is free text, or an assignment `name="value"`. `Outbound.render` writes the line and
`Outbound.read` reads it.
-/

namespace RemoteAutomaton.Message

/-- A status message. -/
inductive Outbound where
  /-- The automaton of that name can be reached. -/
  | ready (name : String)
  /-- The current state. -/
  | state (name : String)
  /-- The value of an output. -/
  | output (name value : String)
  /-- The value of a variable. -/
  | var (name value : String)
  /-- A diagnostic text. -/
  | log (text : String)
  /-- A failure. -/
  | error (text : String)
  /-- The automaton is about to stop. -/
  | terminating
  deriving DecidableEq, Repr

namespace Outbound

/-- The first word of the line. -/
def keyword : Outbound → String
  | ready _ => "READY"
  | state _ => "STATE"
  | output _ _ => "OUTPUT"
  | var _ _ => "VAR"
  | log _ => "LOG"
  | error _ => "ERROR"
  | terminating => "TERMINATING"

/-- The payload that gives a name a value. -/
def assignment (name value : String) : List Char :=
  name.toList ++ '=' :: '"' :: (value.toList ++ ['"'])

/-- What follows the keyword and a space, where anything does. -/
def payload? : Outbound → Option (List Char)
  | ready name => some name.toList
  | state name => some name.toList
  | output name value => some (assignment name value)
  | var name value => some (assignment name value)
  | log text => some text.toList
  | error text => some text.toList
  | terminating => none

/-- The line of a message. -/
def render (m : Outbound) : List Char :=
  match m.payload? with
  | none => m.keyword.toList
  | some p => m.keyword.toList ++ ' ' :: p

def text (m : Outbound) : String := String.ofList m.render

/-- Reads the payload that gives a name a value. -/
def readAssignment? (payload : List Char) : Option (String × String) :=
  match Text.cut? '=' payload with
  | none => none
  | some (name, quoted) =>
    match Text.unwrapQuotes? quoted with
    | none => none
    | some value =>
      if name.isEmpty then none else some (String.ofList name, String.ofList value)

/-- Reads the payload of a keyword. -/
def readPayload? (keyword payload : List Char) : Option Outbound :=
  if keyword = "READY".toList then some (ready (String.ofList payload))
  else if keyword = "STATE".toList then some (state (String.ofList payload))
  else if keyword = "LOG".toList then some (log (String.ofList payload))
  else if keyword = "ERROR".toList then some (error (String.ofList payload))
  else if keyword = "OUTPUT".toList then
    (readAssignment? payload).map fun (name, value) => output name value
  else if keyword = "VAR".toList then
    (readAssignment? payload).map fun (name, value) => var name value
  else none

/-- Reads a line that carries no line end. -/
def readLine? (line : List Char) : Option Outbound :=
  if line = terminating.keyword.toList then some terminating
  else
    match Text.cut? ' ' line with
    | none => none
    | some (keyword, payload) => readPayload? keyword payload

/-- Reads one message, ignoring one line end after it. -/
def read (s : List Char) : Except Error Outbound :=
  match readLine? (Text.dropLineEnd s) with
  | some m => .ok m
  | none => .error (.unknownStatus (shown (Text.dropLineEnd s)))

end Outbound

end RemoteAutomaton.Message
