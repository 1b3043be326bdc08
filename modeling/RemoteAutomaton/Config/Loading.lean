import RemoteAutomaton.Automaton.Loading
import RemoteAutomaton.Config.Document

/-!
# Configurations and machines from files

Nothing here reads a file: the texts of files are given by `Files`. A machine's file is JSON if its
name says so, and YAML otherwise.
-/

namespace RemoteAutomaton.Config

/-- The texts of files by path. A path without a text is not there, or is no text. -/
abbrev Files := String → Option String

/-- The steps of a relative path, without those that lead nowhere. -/
def pathSteps (path : String) : List String :=
  (path.splitOn "/").filter fun step => step != "" && step != "."

/-- The files with given paths and texts, of which some may be no text. A path from the root and the
path of a directory lead to none of them. -/
def Files.ofList (files : List (String × Option String)) : Files := fun path =>
  if path.isEmpty || path.startsWith "/" || path.endsWith "/" then none
  else (files.find? fun (other, _) => pathSteps other == pathSteps path).bind (·.2)

def readFile (files : Files) (path : String) : Except Error String :=
  match files path with
  | some s => .ok s
  | none => .error (.file path)

/-- The configuration of a file. -/
def ofFile (files : Files) (path : String) : Except Error Config := do
  match ofYaml (← readFile files path) with
  | .ok c => return c
  | .error f => throw (.parse path (.yaml f))

/-- The configuration of a file, if one is given, and of the environment. -/
def loadFrom (files : Files) (env : Environment) (path : Option String) : Except Error Config := do
  let c ←
    match path with
    | some p => ofFile files p
    | none => pure {}
  return c.withEnvironment env

/-- The configuration of the environment and of the file that it names. -/
def load (files : Files) (env : Environment) : Except Error Config :=
  loadFrom files env (env "STATEWIRE_CONFIG")

/-- The ending of a file's name after its last point. A name that begins with its only point has
none. -/
def extension? (path : String) : Option (List Char) :=
  let name := (path.toList.reverse.takeWhile (· != '/'))
  match name.dropWhile (· != '.') with
  | [] | [_] => none
  | _ => some (name.takeWhile (· != '.')).reverse

/-- Whether a file's name says that it is JSON. -/
def isJson (path : String) : Bool :=
  (extension? path).map (·.map Char.toLower) == some "json".toList

/-- The machine of a file. -/
def definitionOfFile (files : Files) (path : String) : Except Error Machine.Definition := do
  let text ← readFile files path
  let checked : Except Automaton.Error Machine.Definition ←
    if isJson path then pure (Automaton.definitionOfText text)
    else
      match Yaml.readText Machine.Declaration.read text with
      | .ok r => pure (Automaton.checkDeclaration r)
      | .error f => throw (.parse path (.yaml f))
  match checked with
  | .ok d => return d
  | .error e => throw (.parse path (.definition e))

/-- The machine of a configuration. -/
def Machine.definition (m : Machine) (files : Files) : Except Error Machine.Definition :=
  match m.path with
  | some path => definitionOfFile files path
  | none => .error (.validation .noMachine)

end RemoteAutomaton.Config
