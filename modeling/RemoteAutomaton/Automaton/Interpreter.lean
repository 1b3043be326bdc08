import RemoteAutomaton.Automaton.Evaluator
import RemoteAutomaton.Automaton.Host
import RemoteAutomaton.Machine.Definition

/-!
# Running an automaton

An interpreter is a machine, an evaluator and, once started, the automaton's current values. Its
operations answer with a result, the interpreter after them and the host after them. Entering a
state cancels the timers of the state before it, runs the entry action, reports the state and
schedules the delayed transitions. After every entry the immediate transitions are followed until
none is possible; since a resolution never enters a state twice, this ends.
-/

namespace RemoteAutomaton.Automaton

open Machine (Definition Transition Trigger Delay)

/-- A timer of the current state, and the number of the transition that it is for. -/
structure Pending where
  id : TimerId
  transition : Nat
  deriving DecidableEq, Repr

/-- The values of an automaton that has been started. -/
structure Running where
  current : String
  vars : Values
  inputs : Values
  outputs : Values
  /-- Whether the automaton has not been terminated. -/
  alive : Bool
  /-- Whether an action or a command has asked for the end. -/
  terminating : Bool
  timers : List Pending
  deriving DecidableEq, Repr

namespace Running

/-- The automaton at its start, before the initial state is entered. -/
def initially (d : Definition) (state : String) : Running :=
  { current := state
    vars := .ofList (d.vars.map fun v => (v.name, v.initial))
    inputs := .empty
    outputs := .empty
    alive := true
    terminating := false
    timers := [] }

def bindings (a : Running) : Bindings := ⟨a.vars, a.inputs, a.outputs⟩

variable {σ : Type} [Host σ]

/-- The first of some transitions whose guard passes. A guard that fails is reported and does not
pass. -/
def firstEligible (d : Definition) (e : Evaluator) (a : Running) (trigger : Option String) (h : σ) :
    List Nat → Option Transition × σ
  | [] => (none, h)
  | i :: rest =>
    match d.transitions[i]? with
    | none => firstEligible d e a trigger h rest
    | some t =>
      match t.guard with
      | none => (some t, h)
      | some g =>
        match e.guard g a.bindings trigger with
        | .ok true => (some t, h)
        | .ok false => firstEligible d e a trigger h rest
        | .error m =>
          firstEligible d e a trigger (Host.notify h (.failure (.guardFailed g m))) rest

/-- Applies one effect. Only declared names take a value. -/
def apply (d : Definition) (a : Running) (h : σ) : Effect → Running × σ
  | .assign name value =>
    if d.hasVariable name then
      ({ a with vars := a.vars.set name value }, Host.notify h (.var name value))
    else (a, Host.notify h (.failure (.unknownVariable name)))
  | .write name value =>
    if d.hasOutput name then
      ({ a with outputs := a.outputs.set name value }, Host.notify h (.output name value))
    else (a, Host.notify h (.failure (.unknownOutput name)))
  | .log text => (a, Host.notify h (.log text))
  | .terminate => ({ a with terminating := true }, h)

def applyAll (d : Definition) (a : Running) (h : σ) : List Effect → Running × σ
  | [] => (a, h)
  | x :: rest =>
    let (a, h) := a.apply d h x
    applyAll d a h rest

/-- Runs an action. One that fails is reported and has no effects. -/
def runAction (d : Definition) (e : Evaluator) (a : Running) (h : σ) (action : String) :
    Running × σ :=
  match e.action action a.bindings with
  | .ok effects => a.applyAll d h effects
  | .error m => (a, Host.notify h (.failure (.actionFailed action m)))

/-- The milliseconds of a delay, with a variable's value as it is now. -/
def resolve (a : Running) : Delay → Except Error Nat
  | .fixed ms => .ok ms
  | .held name =>
    match a.vars.get? name with
    | none => .error (.unknownVariable name)
    | some value =>
      match Text.readInt64? (Text.trim value.toList) with
      | none => .error (.ofDelay (.notInteger name value))
      | some n => if n ≤ 0 then .error (.ofDelay (.notPositive name n)) else .ok n.toNat

/-- Asks for the timer of a delayed transition. -/
def request (a : Running) (h : σ) (delay : Delay) (target : String) : Except Error TimerId × σ :=
  match a.resolve delay with
  | .error e => (.error e, h)
  | .ok ms => Host.schedule h ms target

/-- Schedules delayed transitions in order. A failure is reported and the next one tried. -/
def scheduleAll (d : Definition) (a : Running) (h : σ) : List Nat → Running × σ
  | [] => (a, h)
  | i :: rest =>
    match d.transitions[i]? with
    | none => scheduleAll d a h rest
    | some t =>
      match t.trigger with
      | .delayed delay =>
        match a.request h delay t.target with
        | (.ok id, h) => scheduleAll d { a with timers := a.timers ++ [⟨id, i⟩] } h rest
        | (.error e, h) => scheduleAll d a (Host.notify h (.failure e)) rest
      | _ => scheduleAll d a h rest

def cancelAll (h : σ) : List Pending → σ
  | [] => h
  | p :: rest => cancelAll (Host.cancel h p.id) rest

def enter (d : Definition) (e : Evaluator) (a : Running) (h : σ) (target : String) : Running × σ :=
  let h := cancelAll h a.timers
  let a := { a with current := target, timers := [] }
  let (a, h) :=
    match d.actionOf? target with
    | some action => a.runAction d e h action
    | none => (a, h)
  a.scheduleAll d (Host.notify h (.state target)) (d.delayedFrom target)

theorem mem_of_firstEligible {d : Definition} {e : Evaluator} {a : Running}
    {trigger : Option String} {h : σ} {l : List Nat} {t : Transition}
    (ht : (firstEligible d e a trigger h l).1 = some t) : t ∈ d.transitions := by
  induction l generalizing h with
  | nil => simp [firstEligible] at ht
  | cons i rest ih =>
    simp only [firstEligible] at ht
    split at ht
    · exact ih ht
    · rename_i u hu
      have hmem : u ∈ d.transitions := Array.mem_of_getElem? hu
      split at ht
      · exact Option.some.inj ht ▸ hmem
      · split at ht
        · exact Option.some.inj ht ▸ hmem
        · exact ih ht
        · exact ih ht

/-- The declared states that a resolution has not entered. -/
def unvisited (d : Definition) (visited : List String) : List String :=
  d.stateNames.filter (· ∉ visited)

theorem unvisited_cons_lt {d : Definition} {visited : List String} {t : Transition}
    (ht : t ∈ d.transitions) (hv : t.target ∉ visited) :
    (unvisited d (t.target :: visited)).length < (unvisited d visited).length := by
  have hmem : t.target ∈ unvisited d visited :=
    List.mem_filter.2 ⟨(d.transitions_fit t ht).target_mem, by simpa using hv⟩
  have hsub : unvisited d (t.target :: visited) = (unvisited d visited).filter (· ≠ t.target) := by
    unfold unvisited
    rw [List.filter_filter]
    refine List.filter_congr fun s _ => ?_
    simp [List.mem_cons, not_or]
  rw [hsub]
  exact List.length_filter_lt_length_iff_exists.2 ⟨t.target, hmem, by simp⟩

/-- Follows immediate transitions until none is possible. `visited` holds the states that the
resolution has entered. -/
def settle (d : Definition) (e : Evaluator) (a : Running) (h : σ) (visited : List String) :
    Except Error Unit × Running × σ :=
  if a.alive ∧ ¬ a.terminating then
    match _ : firstEligible d e a none h (d.immediateFrom a.current) with
    | (none, h) => (.ok (), a, h)
    | (some t, h) =>
      if _ : t.target ∈ visited then (.error (.cycleDetected t.target), a, h)
      else
        let (a, h) := a.enter d e h t.target
        settle d e a h (t.target :: visited)
  else (.ok (), a, h)
termination_by (unvisited d visited).length
decreasing_by exact unvisited_cons_lt (mem_of_firstEligible (congrArg Prod.fst ‹_›)) ‹_›

/-- Enters a state and follows immediate transitions from there. -/
def moveTo (d : Definition) (e : Evaluator) (a : Running) (h : σ) (target : String) :
    Except Error Unit × Running × σ :=
  let (a, h) := a.enter d e h target
  a.settle d e h [target]

/-- Follows the first possible transition on an event, or else does nothing. -/
def react (d : Definition) (e : Evaluator) (a : Running) (h : σ) (name value : String) :
    Except Error Unit × Running × σ :=
  match firstEligible d e a (some value) h (d.eventFrom a.current name) with
  | (none, h) => (.ok (), a, h)
  | (some t, h) => a.moveTo d e h t.target

/-- Reports the state, every variable and every output. A name without a value has the empty
one. -/
def report (d : Definition) (a : Running) (h : σ) : σ :=
  let h := Host.notify h (.state a.current)
  let h := d.vars.foldl
    (fun h v => Host.notify h (.var v.name ((a.vars.get? v.name).getD ""))) h
  d.outputs.foldl (fun h o => Host.notify h (.output o ((a.outputs.get? o).getD ""))) h

end Running

/-- A machine with a meaning for its guards and actions, started or not. -/
structure Interpreter where
  definition : Definition
  evaluator : Evaluator
  running : Option Running

/-- What an operation leaves: its result, the interpreter and the host. -/
structure Outcome (σ α : Type) where
  result : Except Error α
  interpreter : Interpreter
  host : σ

namespace Interpreter

/-- An interpreter that has not been started. -/
def ofDefinition (d : Definition) (e : Evaluator) : Interpreter := ⟨d, e, none⟩

variable {σ : Type} [Host σ] (m : Interpreter)

def isStarted : Bool := m.running.isSome

def isRunning : Bool := m.running.any (·.alive)

def isTerminating : Bool := m.running.any (·.terminating)

def current? : Option String := m.running.map (·.current)

def variableValue? (name : String) : Option String := m.running.bind (·.vars.get? name)

def inputValue? (name : String) : Option String := m.running.bind (·.inputs.get? name)

def outputValue? (name : String) : Option String := m.running.bind (·.outputs.get? name)

/-- The timers of the current state. -/
def pendingTimers : List TimerId :=
  match m.running with
  | some a => a.timers.map (·.id)
  | none => []

def withRunning (a : Running) : Interpreter := ⟨m.definition, m.evaluator, some a⟩

def refuse {α : Type} (h : σ) (e : Error) : Outcome σ α := ⟨.error e, m, h⟩

def resolved (r : Except Error Unit × Running × σ) : Outcome σ Unit :=
  ⟨r.1, m.withRunning r.2.1, r.2.2⟩

/-- The outcome of a resolution, which tells whether the automaton is still running. -/
def answered (r : Except Error Unit × Running × σ) : Outcome σ Bool :=
  ⟨r.1.map fun _ => r.2.1.alive, m.withRunning r.2.1, r.2.2⟩

/-- Enters the initial state and follows immediate transitions. -/
def start (h : σ) : Outcome σ Unit :=
  match m.running with
  | some _ => m.refuse h .alreadyStarted
  | none =>
    match m.definition.initial with
    | none =>
      m.refuse h
        (.notConfigured ("machine '" ++ m.definition.name ++ "' has no initial state"))
    | some state =>
      if m.definition.hasState state then
        m.resolved ((Running.initially m.definition state).moveTo m.definition m.evaluator h state)
      else m.refuse h (.stateNotFound state)

/-- Follows the transitions of an event, or without one the immediate transitions. Nothing is
followed once the end has been asked for. -/
def step (h : σ) (event : Option (String × String)) : Outcome σ Bool :=
  match m.running with
  | none => m.refuse h .notStarted
  | some a =>
    if ¬ a.alive then ⟨.ok false, m, h⟩
    else if a.terminating then ⟨.ok a.alive, m, h⟩
    else
      match event with
      | some (name, value) => m.answered (a.react m.definition m.evaluator h name value)
      | none => m.answered (a.settle m.definition m.evaluator h [])

/-- Keeps the value of an input and follows the transitions of that event. -/
def processInput (h : σ) (name value : String) : Outcome σ Bool :=
  match m.running with
  | none => m.refuse h .notStarted
  | some a =>
    (m.withRunning { a with inputs := a.inputs.set name value }).step h (some (name, value))

/-- Moves to a state and follows immediate transitions from there. -/
def moveTo (h : σ) (target : String) : Outcome σ Unit :=
  match m.running with
  | none => m.refuse h .notStarted
  | some a =>
    if m.definition.hasState target then
      m.resolved (a.moveTo m.definition m.evaluator h target)
    else m.refuse h (.stateNotFound target)

/-- Takes the expiry of a timer: its transition is followed if its guard passes now. A timer that is
not pending is ignored. -/
def fireTimer (h : σ) (id : TimerId) : Outcome σ Bool :=
  match m.running with
  | none => m.refuse h .notStarted
  | some a =>
    if ¬ a.alive then ⟨.ok false, m, h⟩
    else if a.terminating then ⟨.ok true, m, h⟩
    else
      match a.timers.find? (·.id = id) with
      | none => ⟨.ok true, m, h⟩
      | some p =>
        let a := { a with timers := a.timers.erase p }
        match a.firstEligible m.definition m.evaluator none h [p.transition] with
        | (none, h) => ⟨.ok a.alive, m.withRunning a, h⟩
        | (some t, h) =>
          let o := (m.withRunning a).moveTo h t.target
          ⟨o.result.map fun _ => o.interpreter.isRunning, o.interpreter, o.host⟩

/-- Reports the state, every variable and every output. -/
def reportStatus (h : σ) : Outcome σ Unit :=
  match m.running with
  | none => m.refuse h .notStarted
  | some a => ⟨.ok (), m, a.report m.definition h⟩

/-- Ends the automaton and cancels its timers. -/
def terminate (h : σ) : Interpreter × σ :=
  match m.running with
  | none => (m, h)
  | some a =>
    (m.withRunning { a with alive := false, terminating := true, timers := [] },
      Running.cancelAll h a.timers)

end Interpreter

end RemoteAutomaton.Automaton
