/-!
# Arguments of a program

An argument is a flag or a word. A flag has a long name after two dashes and may have a letter after
one dash; its value follows it, or is joined to it with an equals sign or, after a letter, with
nothing. What begins with a dash is never taken for a value that follows. After two dashes alone all
arguments are words. Flags may be given once.
-/

namespace RemoteAutomaton.CommandLine

/-- Why a program ends before it begins. -/
inductive Stop where
  /-- The arguments are wrong. -/
  | usage
  /-- The program was asked how it is used, or how one of its tasks is. -/
  | help (task : String)
  /-- The program was asked for its version. -/
  | version
  deriving DecidableEq, Repr

def Stop.exitCode : Stop → Nat
  | usage => 2
  | help _ | version => 0

/-- A flag with a value that is read into a draft `α`. -/
structure Flag (α : Type) where
  name : String
  letter : Option Char
  /-- Whether the draft has the flag already. -/
  isSet : α → Bool
  /-- Reads the flag's value into the draft. -/
  put : String → α → Option α

/-- The flag that `read` reads and that the draft keeps where `get` finds it. -/
def Flag.of {α β : Type} (name : String) (letter : Option Char) (read : String → Option β)
    (get : α → Option β) (set : α → β → α) : Flag α :=
  ⟨name, letter, fun a => (get a).isSome, fun s a => (read s).map (set a)⟩

/-- What a program or one of its tasks takes: its flags, whether it tells its version, and how it
takes words. -/
structure Grammar (α : Type) where
  /-- The name of the task, empty for the program itself. -/
  task : String := ""
  flags : List (Flag α)
  hasVersion : Bool := true
  word : String → α → Option α := fun _ _ => none

/-- An argument by its form. -/
inductive Form where
  | word
  /-- Two dashes alone. -/
  | rest
  /-- A flag by its name or letter, and the value joined to it. -/
  | name (name : String) (value : Option String)
  | letter (c : Char) (value : Option String)

/-- A value after an equals sign, or joined directly. -/
def joined : List Char → Option String
  | [] => none
  | '=' :: v => some (String.ofList v)
  | v => some (String.ofList v)

/-- The form of an argument. -/
def Form.of (s : String) : Form :=
  match s.toList with
  | ['-', '-'] => rest
  | '-' :: '-' :: r =>
    match r.dropWhile (· != '=') with
    | [] => name (String.ofList r) none
    | _ :: v => name (String.ofList (r.takeWhile (· != '='))) (some (String.ofList v))
  | '-' :: c :: r => letter c (joined r)
  | _ => word

/-- Whether an argument can follow a flag as its value. -/
def isValue (s : String) : Bool :=
  match Form.of s with
  | .word => true
  | _ => false

namespace Grammar

variable {α : Type} (g : Grammar α)

/-- A flag that has no value of its own, by its name or letter. -/
def stop? : Form → Option Stop
  | .name "help" none | .letter 'h' _ => some (.help g.task)
  | .name "version" none | .letter 'V' _ => if g.hasVersion then some .version else none
  | _ => none

/-- The flag of a form, and the value joined to it. -/
def flag? : Form → Option (Flag α × Option String)
  | .name n v => (g.flags.find? (·.name == n)).map (·, v)
  | .letter c v => (g.flags.find? (·.letter == some c)).map (·, v)
  | _ => none

/-- Gives a flag its value. -/
def put (f : Flag α) (v : String) (a : α) : Except Stop α :=
  if f.isSet a then .error .usage
  else
    match f.put v a with
    | some a => .ok a
    | none => .error .usage

/-- Reads flags up to the first argument that is none. -/
def readFlags (a : α) : List String → Except Stop (α × List String)
  | [] => .ok (a, [])
  | s :: rest =>
    let form := Form.of s
    match form with
    | .word | .rest => .ok (a, s :: rest)
    | _ =>
      match g.stop? form with
      | some stop => .error stop
      | none =>
        match g.flag? form with
        | none => .error .usage
        | some (f, some v) =>
          match put f v a with
          | .ok a => readFlags a rest
          | .error e => .error e
        | some (f, none) =>
          match rest with
          | [] => .error .usage
          | v :: rest =>
            if isValue v then
              match put f v a with
              | .ok a => readFlags a rest
              | .error e => .error e
            else .error .usage

/-- Reads arguments that are all words. -/
def readWords (a : α) : List String → Except Stop α
  | [] => .ok a
  | s :: rest =>
    match g.word s a with
    | some a => readWords a rest
    | none => .error .usage

theorem length_readFlags_le {a b : α} {l r : List String} (h : g.readFlags a l = .ok (b, r)) :
    r.length ≤ l.length := by
  fun_induction readFlags g a l <;> grind

def read (a : α) (l : List String) : Except Stop α :=
  match _ : g.readFlags a l with
  | .error e => .error e
  | .ok (a, []) => .ok a
  | .ok (a, s :: rest) =>
    if s == "--" then g.readWords a rest
    else
      match g.word s a with
      | some a => read a rest
      | none => .error .usage
termination_by l.length
decreasing_by
  have := g.length_readFlags_le ‹_›
  simp at this
  omega

end Grammar

end RemoteAutomaton.CommandLine
