import RemoteAutomaton.Machine.Canonical
import RemoteAutomaton.Machine.Defect

/-!
# Machines

`Definition.ofDeclaration` checks a declaration and gives each of its transitions the one trigger
that it has. What the checks establish is part of the type: names are distinct, transitions join
declared states, and delays are positive or held by declared variables. `Definition.index` lists,
state by state, the transitions that leave a state.
-/

namespace RemoteAutomaton.Machine

/-- How long a delayed transition waits. -/
inductive Delay where
  /-- That many milliseconds. -/
  | fixed (milliseconds : Nat)
  /-- As many milliseconds as a variable holds. -/
  | held (name : String)
  deriving DecidableEq, Repr

/-- What makes a transition possible. -/
inductive Trigger where
  /-- Nothing but its guard. -/
  | immediate
  /-- An event of that name. -/
  | event (name : String)
  /-- A time in the source state. -/
  | delayed (delay : Delay)
  deriving DecidableEq, Repr

def Trigger.isDelayed : Trigger → Bool
  | delayed _ => true
  | _ => false

def Trigger.event? : Trigger → Option String
  | event name => some name
  | _ => none

/-- A transition with its trigger. -/
structure Transition where
  source : String
  target : String
  trigger : Trigger
  guard : Option String
  deriving DecidableEq, Repr

/-- A delay that some variable can hold, or that is positive. -/
def Delay.Fits (vars : List String) : Delay → Prop
  | fixed n => n ≠ 0
  | held v => v ∈ vars

/-- A transition between declared states whose delay, if it has one, fits. -/
structure Transition.Fits (states vars : List String) (t : Transition) : Prop where
  source_mem : t.source ∈ states
  target_mem : t.target ∈ states
  delay_fits : ∀ d, t.trigger = .delayed d → d.Fits vars

/-- The first name that has occurred before, or is among `seen`. -/
def firstRepeat? (seen : List String) : List String → Option String
  | [] => none
  | x :: rest => if x ∈ seen then some x else firstRepeat? (x :: seen) rest

/-- The first state that has no name, or a name that has occurred before or is among `seen`. -/
def stateDefect? (seen : List String) : List State → Option Defect
  | [] => none
  | s :: rest =>
    if s.name = "" then some .emptyStateName
    else if s.name ∈ seen then some (.duplicateState s.name)
    else stateDefect? (s.name :: seen) rest

/-- The delay of a transition. -/
def Arrow.checkDelay (vars : List String) (t : Arrow) : Except Defect (Option Delay) :=
  match t.delay, t.delayVariable with
  | some _, some _ => .error (.twoDelays t.source t.target)
  | some n, none =>
    if n = 0 then .error (.zeroDelay t.source t.target) else .ok (some (.fixed n))
  | none, some v =>
    if v ∈ vars then .ok (some (.held v)) else .error (.unknownDelayVariable v)
  | none, none => .ok none

/-- The trigger of a transition with this delay. -/
def Arrow.checkTrigger (t : Arrow) (delay : Option Delay) : Except Defect Trigger :=
  match t.event, delay with
  | some _, some _ => .error (.eventAndDelay t.source t.target)
  | some e, none => .ok (.event e)
  | none, some d => .ok (.delayed d)
  | none, none => .ok .immediate

/-- Checks a transition between the given states. -/
def Arrow.check (states vars : List String) (t : Arrow) : Except Defect Transition :=
  if t.source ∉ states then .error (.unknownSource t.source)
  else if t.target ∉ states then .error (.unknownTarget t.target)
  else
    match t.checkDelay vars with
    | .error e => .error e
    | .ok delay =>
      match t.checkTrigger delay with
      | .error e => .error e
      | .ok trigger => .ok ⟨t.source, t.target, trigger, t.guard⟩

/-- Transitions, and for each state the numbers of those that leave it. -/
structure Graph where
  transitions : Array Transition
  index : List (List Nat)

namespace Graph

def blank (states : List String) : Graph := ⟨#[], states.map fun _ => []⟩

/-- Adds a transition after the others. -/
def add (states : List String) (g : Graph) (t : Transition) : Graph :=
  ⟨g.transitions.push t,
    List.zipWith (fun s is => if s = t.source then is ++ [g.transitions.size] else is)
      states g.index⟩

/-- Checks transitions one after the other and adds them. -/
def addAll (states vars : List String) (g : Graph) : List Arrow → Except Defect Graph
  | [] => .ok g
  | t :: rest =>
    match t.check states vars with
    | .error e => .error e
    | .ok u => addAll states vars (g.add states u) rest

/-- The numbers of the transitions that leave a state. -/
def leaving (transitions : Array Transition) (state : String) : List Nat :=
  (List.range transitions.size).filter fun i => transitions[i]?.any (·.source == state)

end Graph

/-- A checked machine. -/
structure Definition where
  name : String
  initial : Option String
  states : List State
  transitions : Array Transition
  /-- For each state the numbers of the transitions that leave it. -/
  index : List (List Nat)
  vars : List Variable
  inputs : List String
  outputs : List String
  checksum : String
  states_named : ∀ s ∈ states, s.name ≠ ""
  states_distinct : (states.map (·.name)).Nodup
  initial_mem : ∀ s, initial = some s → s ∈ states.map (·.name)
  variables_distinct : (vars.map (·.name)).Nodup
  inputs_distinct : inputs.Nodup
  outputs_distinct : outputs.Nodup
  transitions_fit : ∀ t ∈ transitions, t.Fits (states.map (·.name)) (vars.map (·.name))
  index_eq : index = (states.map (·.name)).map (Graph.leaving transitions)

/-! ### The checks -/

theorem firstRepeat?_eq_none_iff {seen l : List String} :
    firstRepeat? seen l = none ↔ l.Nodup ∧ ∀ x ∈ l, x ∉ seen := by
  induction l generalizing seen with
  | nil => simp [firstRepeat?]
  | cons x rest ih =>
    simp only [firstRepeat?]
    split
    · rename_i h
      simp [h]
    · rename_i h
      simp only [ih, List.nodup_cons, List.mem_cons, forall_eq_or_imp, h, not_false_eq_true,
        true_and, not_or]
      constructor
      · rintro ⟨hn, hr⟩
        exact ⟨⟨fun hx => (hr x hx).1 rfl, hn⟩, fun y hy => (hr y hy).2⟩
      · rintro ⟨⟨hx, hn⟩, hr⟩
        exact ⟨hn, fun y hy => ⟨fun e => hx (e ▸ hy), hr y hy⟩⟩

theorem stateDefect?_eq_none_iff {seen : List String} {l : List State} :
    stateDefect? seen l = none ↔
      (∀ s ∈ l, s.name ≠ "") ∧ (l.map (·.name)).Nodup ∧ ∀ s ∈ l, s.name ∉ seen := by
  induction l generalizing seen with
  | nil => simp [stateDefect?]
  | cons s rest ih =>
    simp only [stateDefect?]
    split
    · rename_i h
      simp [h]
    · split
      · rename_i h
        simp [h]
      · rename_i he h
        simp only [ih, List.map_cons, List.nodup_cons, List.mem_cons, forall_eq_or_imp, he, h,
          ne_eq, not_false_eq_true, true_and, not_or, List.mem_map, not_exists, not_and]
        constructor
        · rintro ⟨hne, hn, hr⟩
          exact ⟨hne, ⟨fun t ht e => (hr t ht).1 e, hn⟩, fun t ht => (hr t ht).2⟩
        · rintro ⟨hne, ⟨hx, hn⟩, hr⟩
          exact ⟨hne, hn, fun t ht => ⟨hx t ht, hr t ht⟩⟩

theorem Arrow.fits_of_checkDelay {vars : List String} {t : Arrow} {d : Delay}
    (h : t.checkDelay vars = .ok (some d)) : d.Fits vars := by
  unfold Arrow.checkDelay at h
  split at h
  · simp at h
  · split at h
    · simp at h
    · simp only [Except.ok.injEq, Option.some.injEq] at h
      subst h
      assumption
  · split at h
    · simp only [Except.ok.injEq, Option.some.injEq] at h
      subst h
      assumption
    · simp at h
  · simp at h

theorem Arrow.eq_some_of_checkTrigger {t : Arrow} {delay : Option Delay} {d : Delay}
    (h : t.checkTrigger delay = .ok (.delayed d)) : delay = some d := by
  unfold Arrow.checkTrigger at h
  split at h <;> simp_all

theorem Arrow.fits_of_check {states vars : List String} {t : Arrow} {u : Transition}
    (h : t.check states vars = .ok u) : u.Fits states vars := by
  unfold Arrow.check at h
  split at h
  · simp at h
  · split at h
    · simp at h
    · rename_i hs ht
      split at h
      · simp at h
      · rename_i delay hd
        split at h
        · simp at h
        · rename_i trigger htr
          simp only [Except.ok.injEq] at h
          subst h
          refine ⟨Decidable.not_not.1 hs, Decidable.not_not.1 ht, fun d e => ?_⟩
          simp only at e
          subst e
          have := Arrow.eq_some_of_checkTrigger htr
          subst this
          exact Arrow.fits_of_checkDelay hd

namespace Graph

/-- What the graph of checked transitions keeps. -/
structure Correct (states vars : List String) (g : Graph) : Prop where
  fit : ∀ t ∈ g.transitions, t.Fits states vars
  index_eq : g.index = states.map (leaving g.transitions)

theorem correct_blank (states vars : List String) : (blank states).Correct states vars := by
  constructor
  · simp [blank]
  · exact List.map_congr_left fun _ _ => rfl

theorem leaving_push (ts : Array Transition) (t : Transition) (s : String) :
    leaving (ts.push t) s = if s = t.source then leaving ts s ++ [ts.size] else leaving ts s := by
  have hlast : (ts.push t)[ts.size]?.any (·.source == s) = (s == t.source) := by
    rw [Array.getElem?_push_size, Option.any_some]
    exact Bool.eq_iff_iff.2 (by rw [beq_iff_eq, beq_iff_eq]; exact eq_comm)
  have hinit : (List.range ts.size).filter (fun i => (ts.push t)[i]?.any (·.source == s))
      = leaving ts s := by
    unfold leaving
    refine List.filter_congr fun i hi => ?_
    rw [Array.getElem?_push_lt (List.mem_range.1 hi), Array.getElem?_eq_getElem]
  have hsplit : leaving (ts.push t) s
      = leaving ts s ++ [ts.size].filter (fun i => (ts.push t)[i]?.any (·.source == s)) := by
    rw [← hinit, ← List.filter_append, ← List.range_succ, leaving, Array.size_push]
  rw [hsplit, List.filter_cons, List.filter_nil, hlast]
  by_cases h : s = t.source
  · rw [if_pos h, if_pos (beq_iff_eq.2 h)]
  · rw [if_neg h, if_neg (fun e => h (beq_iff_eq.1 e)), List.append_nil]

theorem correct_add {states vars : List String} {g : Graph} {t : Transition}
    (hg : g.Correct states vars) (ht : t.Fits states vars) :
    (g.add states t).Correct states vars := by
  constructor
  · intro u hu
    rcases Array.mem_push.1 hu with hu | rfl
    · exact hg.fit u hu
    · exact ht
  · simp only [add, hg.index_eq, List.zipWith_map_right]
    rw [List.zipWith_self]
    exact List.map_congr_left fun s _ => (leaving_push _ _ _).symm

theorem correct_of_addAll {states vars : List String} {g g' : Graph} {arrows : List Arrow}
    (hg : g.Correct states vars) (h : addAll states vars g arrows = .ok g') :
    g'.Correct states vars := by
  induction arrows generalizing g with
  | nil =>
    simp only [addAll, Except.ok.injEq] at h
    exact h ▸ hg
  | cons t rest ih =>
    simp only [addAll] at h
    split at h
    · simp at h
    · rename_i u hu
      exact ih (correct_add hg (Arrow.fits_of_check hu)) h

end Graph

namespace Definition

/-- Checks a declared machine. The first defect is reported: states first, then the initial state,
the names of variables, inputs and outputs, and the transitions one by one. -/
def ofDeclaration (r : Declaration) : Except Defect Definition :=
  match hs : stateDefect? [] r.states with
  | some e => .error e
  | none =>
    if hi : ∀ s ∈ r.initial, s ∈ r.states.map (·.name) then
      match hv : firstRepeat? [] (r.vars.map (·.name)) with
      | some x => .error (.duplicateVariable x)
      | none =>
        match hn : firstRepeat? [] r.inputs with
        | some x => .error (.duplicateInput x)
        | none =>
          match ho : firstRepeat? [] r.outputs with
          | some x => .error (.duplicateOutput x)
          | none =>
            match hg : Graph.addAll (r.states.map (·.name)) (r.vars.map (·.name))
                (Graph.blank (r.states.map (·.name))) r.transitions with
            | .error e => .error e
            | .ok g =>
              have hc := Graph.correct_of_addAll (Graph.correct_blank _ _) hg
              .ok
                { name := r.name
                  initial := r.initial
                  states := r.states
                  transitions := g.transitions
                  index := g.index
                  vars := r.vars
                  inputs := r.inputs
                  outputs := r.outputs
                  checksum := r.checksum
                  states_named := (stateDefect?_eq_none_iff.1 hs).1
                  states_distinct := (stateDefect?_eq_none_iff.1 hs).2.1
                  initial_mem := hi
                  variables_distinct := (firstRepeat?_eq_none_iff.1 hv).1
                  inputs_distinct := (firstRepeat?_eq_none_iff.1 hn).1
                  outputs_distinct := (firstRepeat?_eq_none_iff.1 ho).1
                  transitions_fit := hc.fit
                  index_eq := hc.index_eq }
    else .error (.unknownInitial (r.initial.getD ""))

variable (d : Definition)

def stateNames : List String := d.states.map (·.name)

def variableNames : List String := d.vars.map (·.name)

def hasState (name : String) : Bool := d.states.any (·.name == name)

def hasVariable (name : String) : Bool := d.vars.any (·.name == name)

def hasInput (name : String) : Bool := d.inputs.contains name

def hasOutput (name : String) : Bool := d.outputs.contains name

def state? (name : String) : Option State := d.states.find? (·.name == name)

def actionOf? (name : String) : Option String := (d.state? name).bind (·.action)

/-- The events that transitions wait for, each once, in the order of declaration. -/
def events : List String := (d.transitions.toList.filterMap (·.trigger.event?)).eraseDups

/-- The transitions that leave a state, in the order of declaration. -/
def outgoing (state : String) : List Nat :=
  ((d.stateNames.zip d.index).lookup state).getD []

/-- Whether a transition has a trigger with some property. -/
def triggerIs (p : Trigger → Bool) (i : Nat) : Bool := d.transitions[i]?.any fun t => p t.trigger

def immediateFrom (state : String) : List Nat :=
  (d.outgoing state).filter (d.triggerIs (· == .immediate))

def eventFrom (state event : String) : List Nat :=
  (d.outgoing state).filter (d.triggerIs (· == .event event))

def delayedFrom (state : String) : List Nat :=
  (d.outgoing state).filter (d.triggerIs Trigger.isDelayed)

end Definition

end RemoteAutomaton.Machine
