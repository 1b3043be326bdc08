import RemoteAutomaton.Message.Error
import RemoteAutomaton.Text.Line

/-!
# Messages to the automaton

An observer sends lines of three fields, `KIND|NAME|VALUE`. The kind and the name end at the first
two separators, so the value may itself hold separators and line breaks. `Inbound.render` writes
the line and `Inbound.read` reads it.
-/

namespace RemoteAutomaton.Message

/-- What a message carries: a value for an input, or a command. -/
inductive Kind where
  | input
  | command
  deriving DecidableEq, Repr

/-- The first field of the line. -/
def Kind.word : Kind → String
  | input => "INPUT"
  | command => "CMD"

/-- Reads the first field of a line. -/
def Kind.read (s : List Char) : Except Error Kind :=
  if s = Kind.input.word.toList then .ok .input
  else if s = Kind.command.word.toList then .ok .command
  else .error (.unknownKind (shown s))

/-- What an observer can ask for. -/
inductive Command where
  /-- Stop in good order. -/
  | terminate
  /-- Report the state, the variables and the outputs. -/
  | getStatus
  deriving DecidableEq, Repr

/-- The name of a command message. -/
def Command.word : Command → String
  | terminate => "TERMINATE"
  | getStatus => "GET_STATUS"

/-- Reads the name of a command. -/
def Command.read (s : List Char) : Except Error Command :=
  if s = Command.terminate.word.toList then .ok .terminate
  else if s = Command.getStatus.word.toList then .ok .getStatus
  else .error (.unknownCommand (shown s))

/-- A line of three fields. -/
structure Inbound where
  kind : Kind
  name : String
  value : String
  deriving DecidableEq, Repr

namespace Inbound

/-- The character between the fields. -/
def separator : Char := '|'

/-- The message that carries `value` for the input `name`. -/
def ofInput (name value : String) : Inbound := ⟨.input, name, value⟩

/-- The message that asks for a command. -/
def ofCommand (c : Command) : Inbound := ⟨.command, c.word, ""⟩

/-- The line of a message. -/
def render (m : Inbound) : List Char :=
  m.kind.word.toList ++ separator :: (m.name.toList ++ separator :: m.value.toList)

def text (m : Inbound) : String := String.ofList m.render

/-- The three fields of a line, with a name that is not empty. -/
def fields? (line : List Char) : Option (List Char × List Char × List Char) :=
  match Text.cut? separator line with
  | none => none
  | some (kind, rest) =>
    match Text.cut? separator rest with
    | none => none
    | some ([], _) => none
    | some (name, value) => some (kind, name, value)

/-- Reads a line that carries no line end. -/
def readLine (line : List Char) : Except Error Inbound :=
  match fields? line with
  | none => .error (.malformed (shown line))
  | some (kind, name, value) =>
    match Kind.read kind with
    | .error e => .error e
    | .ok k => .ok ⟨k, String.ofList name, String.ofList value⟩

/-- Reads one message, ignoring one line end after it. -/
def read (s : List Char) : Except Error Inbound := readLine (Text.dropLineEnd s)

/-- The command that a message asks for. An input asks for none, whatever its name. -/
def command (m : Inbound) : Except Error Command :=
  match m.kind with
  | .input => .error (.unknownCommand (shown m.name.toList))
  | .command => Command.read m.name.toList

end Inbound

end RemoteAutomaton.Message
