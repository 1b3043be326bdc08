import RemoteAutomaton.CommandLine.Flags
import RemoteAutomaton.CommandLine.Style
import RemoteAutomaton.Message.Datagram
import RemoteAutomaton.Network.Address

/-!
# The observer's program

An observer sends an input or a command to an engine, or prints the status messages that the engine
sends. `read` decides what is to be done, `request?` which message it takes, and `statusText` how a
status message looks.
-/

namespace RemoteAutomaton.CommandLine.Observer

open Message (Inbound Outbound)
open Network (Address)

/-- What an observer wants. -/
inductive Task where
  | input (name value : String)
  | terminate
  /-- A status dump, until no message has come for so many milliseconds. -/
  | status (quiet : Nat)
  /-- All status messages until the engine ends. -/
  | watch
  deriving DecidableEq, Repr

/-- An observer: the engine's address, its own, and its task. -/
structure Plan where
  engine : Address
  listen : Address
  task : Task
  deriving DecidableEq, Repr

/-- The addresses that were given. -/
structure Addresses where
  engine : Option Address := none
  listen : Option Address := none

def readAddress? (s : String) : Option Address := Address.read? s.toList

/-- The flags before the task. -/
def grammar : Grammar Addresses where
  flags :=
    [.of "engine" (some 'e') readAddress? (·.engine) fun a v => { a with engine := some v },
      .of "listen" (some 'l') readAddress? (·.listen) fun a v => { a with listen := some v }]

/-- The words of an input. -/
structure InputWords where
  name : Option String := none
  value : Option String := none

/-- An input takes its name and its value. -/
def inputGrammar : Grammar InputWords where
  task := "input"
  flags := []
  hasVersion := false
  word s a :=
    match a.name, a.value with
    | none, _ => some { a with name := some s }
    | some _, none => some { a with value := some s }
    | some _, some _ => none

/-- A task without arguments. -/
def plainGrammar (task : String) : Grammar Unit where
  task
  flags := []
  hasVersion := false

/-- A status dump takes the time to wait. -/
def statusGrammar : Grammar (Option Nat) where
  task := "status"
  flags :=
    [.of "wait-ms" (some 'w') (fun s => Text.readBelow? 0x10000000000000000 s.toList) id
      fun _ v => some v]
  hasVersion := false

/-- What the help task is asked for. -/
def readHelp : List String → Stop
  | [] => .help ""
  | [s] => if ["input", "terminate", "status", "watch", "help"].contains s then .help s else .usage
  | _ => .usage

def readTask (name : String) (args : List String) : Except Stop Task :=
  match name with
  | "input" => do
    match ← inputGrammar.read {} args with
    | ⟨some name, value⟩ => return .input name (value.getD "")
    | ⟨none, _⟩ => throw .usage
  | "terminate" => ((plainGrammar name).read () args).map fun _ => .terminate
  | "status" => (statusGrammar.read none args).map fun quiet => .status (quiet.getD 500)
  | "watch" => ((plainGrammar name).read () args).map fun _ => .watch
  | "help" => throw (readHelp args)
  | _ => throw .usage

/-- An address that was given, or that a variable of the environment gives, or the usual one. -/
def chosen (given : Option Address) (variableValue : Option String) (port : Nat) :
    Except Stop Address :=
  match given, variableValue with
  | some a, _ => .ok a
  | none, some s =>
    match readAddress? s with
    | some a => .ok a
    | none => .error .usage
  | none, none => .ok ⟨.v4 127 0 0 1, 0, port⟩

def read (env : String → Option String) (args : List String) : Except Stop Plan := do
  match ← grammar.readFlags {} args with
  | (_, []) => throw .usage
  | (a, name :: rest) =>
    let task ← readTask name rest
    let engine ← chosen a.engine (env "STATEWIRE_ENGINE") 9001
    let listen ← chosen a.listen (env "STATEWIRE_LISTEN") 9000
    return ⟨engine, listen, task⟩

/-- The message that a task sends. -/
def request? : Task → Option Inbound
  | .input name value => some (.ofInput name value)
  | .terminate => some (.ofCommand .terminate)
  | .status _ => some (.ofCommand .getStatus)
  | .watch => none

/-- What is printed when a message has been sent. -/
def sentText (isStyled : Bool) (m : Inbound) : String :=
  styled isStyled [.green] "Sent" ++ " " ++ styled isStyled [.cyan] m.text

/-- How a status message looks. -/
def statusText (isStyled : Bool) (m : Outbound) : String :=
  let word (styles : List Style) : String := styled isStyled styles m.keyword
  let assigned (name value : String) : String :=
    " " ++ name ++ "=\"" ++ styled isStyled [.yellow] value ++ "\""
  match m with
  | .ready name => word [.bold, .green] ++ " " ++ name
  | .state name => word [.cyan] ++ " " ++ styled isStyled [.bold] name
  | .output name value => word [.magenta] ++ assigned name value
  | .var name value => word [.blue] ++ assigned name value
  | .log text => word [.dimmed] ++ " " ++ text
  | .error text => word [.bold, .red] ++ " " ++ text
  | .terminating => word [.bold, .yellow]

/-- The status messages among some datagrams. -/
def statusMessages (datagrams : List ByteArray) : List Outbound :=
  datagrams.filterMap fun d => (Outbound.decode d).toOption

/-- What is printed after a status dump. -/
def dumpText (isStyled : Bool) (engine : Address) (datagrams : List ByteArray) : String :=
  match statusMessages datagrams with
  | [] => styled isStyled [.yellow] ("No status received from " ++ engine.text)
  | ms => "\n".intercalate (ms.map (statusText isStyled))

/-- The messages up to the one that announces the engine's end. -/
def untilTerminating : List Outbound → List Outbound
  | [] => []
  | m :: rest => if m = .terminating then [m] else m :: untilTerminating rest

/-- The lines that are printed while watching. -/
def watchLines (isStyled : Bool) (datagrams : List ByteArray) : List String :=
  (untilTerminating (statusMessages datagrams)).map (statusText isStyled)

def versionText : String := "statewire-cli 0.1.0"

/-- The note on the value that a flag has if it is not given. -/
def valueNote (env : String → Option String) (variableName usual : String) : String :=
  "[env: " ++ variableName ++ "=" ++ (env variableName).getD "" ++ "] [default: " ++ usual ++ "]"

/-- How the program is used. -/
def programHelp (env : String → Option String) : List String :=
  ["Observer for statewire automaton engines", "",
    "Usage: statewire-cli [OPTIONS] <COMMAND>", "",
    "Commands:",
    "  input      Send an input event",
    "  terminate  Ask the engine to shut down",
    "  status     Request a status dump and print it",
    "  watch      Print status messages until the engine terminates or Ctrl+C",
    "  help       Print this message or the help of the given subcommand(s)", "",
    "Options:",
    "  -e, --engine <ENGINE>  Engine address (where inputs and commands are sent) "
      ++ valueNote env "STATEWIRE_ENGINE" "127.0.0.1:9001",
    "  -l, --listen <LISTEN>  Local address status messages arrive on (the engine's peer) "
      ++ valueNote env "STATEWIRE_LISTEN" "127.0.0.1:9000",
    "  -h, --help             Print help",
    "  -V, --version          Print version"]

/-- How the program or a task is used. -/
def helpLines (env : String → Option String) : String → List String
  | "input" =>
    ["Send an input event", "",
      "Usage: statewire-cli input <NAME> [VALUE]", "",
      "Arguments:",
      "  <NAME>   Input name",
      "  [VALUE]  Input value [default: ]", "",
      "Options:",
      "  -h, --help  Print help"]
  | "terminate" =>
    ["Ask the engine to shut down", "",
      "Usage: statewire-cli terminate", "",
      "Options:",
      "  -h, --help  Print help"]
  | "status" =>
    ["Request a status dump and print it", "",
      "Usage: statewire-cli status [OPTIONS]", "",
      "Options:",
      "  -w, --wait-ms <WAIT_MS>  Stop collecting after this many milliseconds without a message "
        ++ "[default: 500]",
      "  -h, --help               Print help"]
  | "watch" =>
    ["Print status messages until the engine terminates or Ctrl+C", "",
      "Usage: statewire-cli watch", "",
      "Options:",
      "  -h, --help  Print help"]
  | "help" =>
    ["Print this message or the help of the given subcommand(s)", "",
      "Usage: statewire-cli help [COMMAND]...", "",
      "Arguments:",
      "  [COMMAND]...  Print help for the subcommand(s)"]
  | _ => programHelp env

/-- What is printed when nothing is done. -/
def stopText (env : String → Option String) : Stop → Option String
  | .usage => none
  | .help task => some ("\n".intercalate (helpLines env task))
  | .version => some versionText

/-- What is printed when a task is done and these datagrams have come. -/
def Plan.resultText (p : Plan) (isStyled : Bool) (datagrams : List ByteArray) : String :=
  match p.task, request? p.task with
  | .status _, _ => dumpText isStyled p.engine datagrams
  | _, some m => sentText isStyled m
  | _, none => "\n".intercalate (watchLines isStyled datagrams)

end RemoteAutomaton.CommandLine.Observer
