import RemoteAutomaton.Automaton.Values
import RemoteAutomaton.Text.Integer
import RemoteAutomaton.Text.Line
import RemoteAutomaton.Text.Quoted

/-!
# What guards and actions mean

A definition names its guards and actions; an evaluator says what they do. A guard answers yes or
no from the values it can see and the value of the event at hand, if there is one. An action
answers with the effects it wants. Either can fail with a message. A registry is an evaluator made
of one function for each name.
-/

namespace RemoteAutomaton.Automaton

/-- The values that guards and actions can see. -/
structure Bindings where
  vars : Values
  inputs : Values
  outputs : Values
  deriving DecidableEq, Repr

/-- The value of a variable as an integer of 64 bits, ignoring blanks around it. -/
def Bindings.integer? (b : Bindings) (name : String) : Option Int :=
  (b.vars.get? name).bind fun s => Text.readInt64? (Text.trim s.toList)

/-- Something that an action asks for. -/
inductive Effect where
  /-- A new value of a variable. -/
  | assign (name value : String)
  /-- A new value of an output. -/
  | write (name value : String)
  | log (text : String)
  /-- The end of the automaton after the current resolution. -/
  | terminate
  deriving DecidableEq, Repr

/-- A meaning for the names of guards and actions. -/
structure Evaluator where
  guard : String → Bindings → Option String → Except String Bool
  action : String → Bindings → Except String (List Effect)

/-- A function for each of some names. -/
structure Registry where
  guards : List (String × (Bindings → Option String → Except String Bool))
  actions : List (String × (Bindings → Except String (List Effect)))

namespace Registry

def empty : Registry := ⟨[], []⟩

def hasGuard (r : Registry) (name : String) : Bool := r.guards.any (·.1 == name)

def hasAction (r : Registry) (name : String) : Bool := r.actions.any (·.1 == name)

def withGuard (r : Registry) (name : String)
    (f : Bindings → Option String → Except String Bool) : Registry :=
  ⟨(name, f) :: r.guards.filter (·.1 != name), r.actions⟩

def withAction (r : Registry) (name : String) (f : Bindings → Except String (List Effect)) :
    Registry :=
  ⟨r.guards, (name, f) :: r.actions.filter (·.1 != name)⟩

/-- The evaluator that fails for every name without a function. -/
def evaluator (r : Registry) : Evaluator where
  guard name b trigger :=
    match r.guards.lookup name with
    | some f => f b trigger
    | none => .error ("no guard registered for '" ++ name ++ "'")
  action name b :=
    match r.actions.lookup name with
    | some f => f b
    | none => .error ("no action registered for '" ++ name ++ "'")

/-- Sorted names between brackets, each quoted. -/
def describeNames (names : List String) : String :=
  "[" ++ String.intercalate ", " ((names.mergeSort fun a b => a ≤ b).map Text.quote) ++ "]"

/-- The names that have a function, for diagnosis. -/
def describe (r : Registry) : String :=
  "CallbackEvaluator \x7b guards: " ++ describeNames (r.guards.map (·.1)) ++ ", actions: " ++
    describeNames (r.actions.map (·.1)) ++ " \x7d"

end Registry

end RemoteAutomaton.Automaton
