import RemoteAutomaton.Text.Quoted

/-!
# Why a datagram is no message

Each error carries the excerpt that it shows. `Error.code` is the stable word by which an observer
tells the causes apart, `Error.message` the text for people.
-/

namespace RemoteAutomaton.Message

/-- The causes for which a datagram is refused. -/
inductive Error where
  /-- A line without its two separators, or with an empty name. -/
  | malformed (line : String)
  /-- A first field that is no kind of message. -/
  | unknownKind (kind : String)
  /-- A name that is no command. -/
  | unknownCommand (name : String)
  /-- A line that is no status message. -/
  | unknownStatus (line : String)
  /-- Bytes that are not UTF-8. -/
  | invalidUtf8
  deriving DecidableEq, Repr

/-- The word that identifies the cause. -/
def Error.code : Error → String
  | malformed _ => "MALFORMED_MESSAGE"
  | unknownKind _ => "UNKNOWN_KIND"
  | unknownCommand _ => "UNKNOWN_COMMAND"
  | unknownStatus _ => "UNKNOWN_STATUS"
  | invalidUtf8 => "INVALID_UTF8"

/-- The text that explains the cause. -/
def Error.message : Error → String
  | malformed line => "malformed message (expected KIND|NAME|VALUE): " ++ Text.quote line
  | unknownKind kind => "unknown message kind: " ++ kind
  | unknownCommand name => "unknown command: " ++ name
  | unknownStatus line => "unrecognized status line: " ++ Text.quote line
  | invalidUtf8 => "invalid UTF-8 in datagram"

/-- The text of an error report: code and message. -/
def Error.report (e : Error) : String := e.code ++ ": " ++ e.message

/-- An excerpt as a string, as the errors carry it. -/
def shown (s : List Char) : String := String.ofList (Text.excerpt s)

end RemoteAutomaton.Message
