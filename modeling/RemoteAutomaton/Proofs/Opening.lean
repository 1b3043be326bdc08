import RemoteAutomaton.Proofs.Course
import RemoteAutomaton.Proofs.Mirror

/-!
# What an operation opens

Once an operation is prepared it either resolves or is over.  `Interpreter.opening?` says from the
automaton alone how the resolution opens: a state is entered, or a transition is selected.  What
opens goes on as a resolution (`perform_of_opening`), whose course is that of `Course`, and where
nothing opens the operation only prepares (`perform_of_idle`).

So an operation makes the selections of a course and no others, and its host hears of the guards
that failed in them (`first_declared_wins`).
-/

namespace RemoteAutomaton.Automaton

open Machine (Definition Transition)

/-- What a step with or without an event selects a transition for. -/
def Stimulus.ofEvent? : Option (String × String) → Stimulus
  | some (name, value) => .event name value
  | none => .immediate

/-- How a resolution opens. -/
inductive Opening where
  /-- A state is entered. -/
  | entry (a : Running) (target : String)
  /-- A transition is selected. -/
  | selection (a : Running) (s : Stimulus)

namespace Opening

/-- The automaton that enters the state, or makes the selection. -/
def automaton : Opening → Running
  | entry a _ | selection a _ => a

/-- What the first selection is made for. -/
def stimulus : Opening → Stimulus
  | entry .. => .immediate
  | selection _ s => s

/-- The states that have been entered before the first selection. -/
def visited : Opening → List String
  | entry _ target => [target]
  | selection .. => []

variable {σ : Type} [Host σ]

/-- The automaton that makes the first selection, and the host then. -/
def begin (d : Definition) (e : Evaluator) (h : σ) : Opening → Running × σ
  | entry a target => a.enter d e h target
  | selection a _ => (a, h)

/-- The calls that the host receives before the first selection, in order. -/
def calls (d : Definition) (e : Evaluator) (h : σ) : Opening → List HostCall
  | entry a target => a.entryCalls d e h target
  | selection .. => []

def resolve (d : Definition) (e : Evaluator) (h : σ) : Opening → Except Error Unit × Running × σ
  | entry a target => a.moveTo d e h target
  | selection a s => a.respond d e h s

variable {d : Definition} {e : Evaluator} {o : Opening}

@[simp] theorem entered_calls (h : σ) : entered (o.calls d e h) = o.visited := by
  cases o with
  | entry a target => exact entered_entryCalls h target
  | selection => rfl

theorem echoed_calls (h : σ) : Echoed (o.calls d e h) := by
  cases o with
  | entry a target => exact echoed_entryCalls h target
  | selection => simp [calls, Echoed]

theorem calls_begin (t : Traced σ) :
    (o.begin d e t).2.calls = (o.calls d e t.host).reverse ++ t.calls := by
  cases o with
  | entry a target => exact calls_enter target
  | selection => rfl

end Opening

def Interpreter.opening? (m : Interpreter) (op : Operation) : Option Opening :=
  match m.running, op with
  | none, .start => m.definition.initial.map fun s => .entry (.initially m.definition s) s
  | some a, .moveTo target =>
    if target ∈ m.definition.stateNames then some (.entry a target) else none
  | some a, .step event => if a.Active then some (.selection a (.ofEvent? event)) else none
  | some a, .input name value =>
    if a.Active then
      some (.selection { a with inputs := a.inputs.set name value } (.event name value))
    else none
  | some a, .fire id =>
    if a.Active then
      (a.timers.find? (·.id = id)).map fun p => .selection (a.release id) (.expiry p.transition)
    else none
  | _, _ => none

/-- What an operation that has resolved answers with. -/
def Operation.answer (a : Running) : Operation → Option Bool
  | .step _ | .input .. | .fire _ => some a.alive
  | _ => none

section

variable {σ : Type} [Host σ] {m : Interpreter} {op : Operation} {o : Opening} {h : σ}

def Interpreter.outcome (m : Interpreter) (op : Operation)
    (r : Except Error Unit × Running × σ) : Outcome σ (Option Bool) :=
  ⟨r.1.map fun _ => op.answer r.2.1, m.withRunning r.2.1, r.2.2⟩

theorem settle_eq_respond {d : Definition} {e : Evaluator} {a : Running} (ha : a.Active) :
    a.settle d e h [] = a.respond d e h .immediate := by
  rw [Running.respond, Stimulus.trigger?, ← Running.immediateFrom_eq]
  rcases hs : Running.firstEligible d e a none h (d.immediateFrom a.current) with ⟨_ | u, h'⟩
  · exact Running.settle_of_none ha hs
  · exact Running.settle_of_notMem ha hs List.not_mem_nil

theorem react_eq_respond {d : Definition} {e : Evaluator} {a : Running} (name value : String) :
    a.react d e h name value = a.respond d e h (.event name value) := by
  rw [Running.respond, Running.react, Running.eventFrom_eq d a name value]
  rfl

/-- A selection opens only if neither the automaton has ended nor its end has been asked for. -/
theorem selection_of_opening {a : Running} {s : Stimulus}
    (ho : m.opening? op = some (.selection a s)) : a.Active ∧ m.current? = some a.current := by
  rw [Interpreter.current?]
  rcases hm : m.running with _ | b
  · cases op <;> simp [Interpreter.opening?, hm] at ho
  · cases op with
    | start | moveTo | report | terminate => simp [Interpreter.opening?, hm] at ho
    | step | input =>
      simp only [Interpreter.opening?, hm] at ho
      split_ifs at ho with ha
      cases ho
      exact ⟨ha, rfl⟩
    | fire id =>
      simp only [Interpreter.opening?, hm] at ho
      split_ifs at ho with ha
      obtain ⟨p, -, hp⟩ := Option.map_eq_some_iff.1 ho
      cases hp
      exact ⟨ha, rfl⟩

theorem entry_of_opening {a : Running} {target : String}
    (ho : m.opening? op = some (.entry a target)) : target ∈ m.definition.stateNames := by
  rcases hm : m.running with _ | b
  · cases op <;> simp only [Interpreter.opening?, hm] at ho
    · obtain ⟨s, hs, heq⟩ := Option.map_eq_some_iff.1 ho
      cases heq
      exact m.definition.initial_mem _ hs
    all_goals cases ho
  · cases op with
    | moveTo =>
      simp only [Interpreter.opening?, hm] at ho
      split_ifs at ho with ht
      cases ho
      exact ht
    | start | step | input | fire | report | terminate => simp [Interpreter.opening?, hm] at ho

theorem step_of_active {a : Running} (event : Option (String × String)) (hm : m.running = some a)
    (ha : a.Active) : m.step h event
      = m.answered (a.respond m.definition m.evaluator h (.ofEvent? event)) := by
  simp only [Interpreter.step, hm, if_neg (not_not.2 ha.1), if_neg ha.2]
  rcases event with _ | ⟨name, value⟩
  · exact congrArg m.answered (settle_eq_respond ha)
  · exact congrArg m.answered (react_eq_respond name value)

theorem step_of_not_active {a : Running} (event : Option (String × String))
    (hm : m.running = some a) (ha : ¬ a.Active) : m.step h event = ⟨.ok a.alive, m, h⟩ := by
  simp only [Interpreter.step, hm]
  split_ifs with halive hend
  · rfl
  · exact absurd ⟨halive, hend⟩ ha
  · rw [Bool.eq_false_iff.2 halive]

/-- The timer is for a delayed transition of the current state, so that is the only candidate. -/
theorem fireTimer_of_active {a : Running} {p : Pending} {id : TimerId} (hm : m.running = some a)
    (hplaced : a.Placed m.definition) (ha : a.Active)
    (hp : a.timers.find? (·.id = id) = some p) :
    m.fireTimer h id = m.answered ((a.release id).respond m.definition m.evaluator h
      (.expiry p.transition)) := by
  have hone : (a.release id).candidates m.definition (.expiry p.transition) = [p.transition] :=
    Running.candidates_expiry (hplaced.mem (List.mem_of_find?_eq_some hp))
  rw [Interpreter.fireTimer_of_pending hm ha hp, Running.respond, hone]
  simp only [Stimulus.trigger?]
  rcases (a.release id).firstEligible m.definition m.evaluator none h [p.transition]
    with ⟨_ | u, h'⟩
  · rfl
  · rfl

omit [Host σ] in
theorem outcome_of_answered (hop : ∀ a, op.answer a = some a.alive)
    (r : Except Error Unit × Running × σ) : Outcome.mk ((m.answered r).result.map some)
      (m.answered r).interpreter (m.answered r).host = m.outcome op r := by
  obtain ⟨x | x, a, h⟩ := r <;> simp [Interpreter.answered, Interpreter.outcome, Except.map, hop]

/-- What opens goes on as a resolution. -/
theorem perform_of_opening (hplaced : ∀ a, m.running = some a → a.Placed m.definition)
    (ho : m.opening? op = some o) :
    m.perform h op = m.outcome op (o.resolve m.definition m.evaluator h) := by
  rcases hm : m.running with _ | a
  · cases op <;> simp only [Interpreter.opening?, hm] at ho
    · obtain ⟨s, hs, rfl⟩ := Option.map_eq_some_iff.1 ho
      simp only [Interpreter.perform, Interpreter.start_of_initial hm hs]
      rfl
    all_goals cases ho
  · cases op with
    | start | report | terminate => simp [Interpreter.opening?, hm] at ho
    | step event =>
      simp only [Interpreter.opening?, hm] at ho
      split_ifs at ho with ha
      cases ho
      simp only [Interpreter.perform, step_of_active event hm ha]
      exact outcome_of_answered (fun _ => rfl) _
    | moveTo target =>
      simp only [Interpreter.opening?, hm] at ho
      split_ifs at ho with ht
      cases ho
      simp only [Interpreter.perform, Interpreter.moveTo, hm,
        if_pos (Definition.hasState_iff.2 ht)]
      rfl
    | input name value =>
      simp only [Interpreter.opening?, hm] at ho
      split_ifs at ho with ha
      cases ho
      simp only [Interpreter.perform, Interpreter.processInput, hm]
      rw [step_of_active (a := { a with inputs := a.inputs.set name value }) _ rfl ha]
      exact outcome_of_answered (fun _ => rfl) _
    | fire id =>
      simp only [Interpreter.opening?, hm] at ho
      split_ifs at ho with ha
      obtain ⟨p, hp, rfl⟩ := Option.map_eq_some_iff.1 ho
      simp only [Interpreter.perform, fireTimer_of_active hm (hplaced a hm) ha hp]
      exact outcome_of_answered (fun _ => rfl) _

/-- Where nothing opens, an operation of a started automaton is over once it is prepared. -/
theorem perform_of_idle {a : Running} (hm : m.running = some a) (ho : m.opening? op = none) :
    (m.perform h op).interpreter = m.withRunning (op.prepare m.definition a h).1
      ∧ (m.perform h op).host = (op.prepare m.definition a h).2 := by
  have hsame : m = m.withRunning a := by
    rw [Interpreter.withRunning, ← hm]
  cases op with
  | start =>
    obtain ⟨hm', hh⟩ := Interpreter.perform_start_of_started (h := h) hm
    exact ⟨hm'.trans hsame, hh⟩
  | step event =>
    have ha : ¬ a.Active := by simpa [Interpreter.opening?, hm] using ho
    simp only [Interpreter.perform, step_of_not_active event hm ha]
    exact ⟨hsame, rfl⟩
  | input name value =>
    have ha : ¬ a.Active := by simpa [Interpreter.opening?, hm] using ho
    simp only [Interpreter.perform, Interpreter.processInput, hm]
    rw [step_of_not_active (a := { a with inputs := a.inputs.set name value }) _ rfl ha]
    exact ⟨rfl, rfl⟩
  | fire id =>
    have hid : a.Active → a.timers.find? (·.id = id) = none := by
      simpa [Interpreter.opening?, hm] using ho
    by_cases ha : a.Active
    · simp only [Interpreter.perform, Interpreter.fireTimer_of_not_pending hm (hid ha),
        Operation.prepare, if_pos ha, Running.release_eq_self (hid ha)]
      exact ⟨hsame, trivial⟩
    · simp only [Interpreter.perform, Interpreter.fireTimer_of_not_active hm ha,
        Operation.prepare, if_neg ha]
      exact ⟨hsame, trivial⟩
  | moveTo target =>
    have ht : target ∉ m.definition.stateNames := by simpa [Interpreter.opening?, hm] using ho
    simp only [Interpreter.perform, Interpreter.moveTo, hm,
      if_neg (mt Definition.hasState_iff.1 ht)]
    exact ⟨hsame, rfl⟩
  | report =>
    simp only [Interpreter.perform, Interpreter.reportStatus, hm]
    exact ⟨hsame, rfl⟩
  | terminate =>
    simp only [Interpreter.perform, Interpreter.terminate, hm]
    exact ⟨rfl, rfl⟩

end

/-! ### The calls of an operation -/

section

variable {σ : Type} [Host σ] {d : Definition} {e : Evaluator} {a : Running} {m : Interpreter}
  {op : Operation} {o : Opening} {h : σ}

/-- The course of a resolution from its opening on, on a host that keeps a list of its calls. -/
abbrev Opening.Course (d : Definition) (e : Evaluator) (t : Traced σ) (o : Opening)
    (rounds : List Round) : Prop :=
  Automaton.Course d e o.stimulus o.visited (o.begin d e t).1 (o.begin d e t).2 rounds
    (o.resolve d e t)

/-- Where a resolution opens it has a course, and the host receives the calls of the opening and of
the rounds. -/
theorem exists_course (h : σ) (hplaced : ∀ a, m.running = some a → a.Placed m.definition)
    (ho : m.opening? op = some o) :
    ∃ rounds, o.Course m.definition m.evaluator (⟨h, []⟩ : Traced σ) rounds
      ∧ m.callsOf h op = o.calls m.definition m.evaluator h ++ rounds.flatMap Round.calls := by
  have hcourse : ∃ rounds, o.Course m.definition m.evaluator (⟨h, []⟩ : Traced σ) rounds := by
    cases o with
    | entry a target => exact course_settle _ _ _ _ [target]
    | selection a s => exact course_respond _ _ _ s (selection_of_opening ho).1
  obtain ⟨rounds, hc⟩ := hcourse
  refine ⟨rounds, hc, ?_⟩
  rw [Interpreter.callsOf, perform_of_opening hplaced ho, Interpreter.outcome, hc.calls_eq,
    Opening.calls_begin]
  simp

theorem callsOf_of_idle (hm : m.running = some a) (ho : m.opening? op = none) :
    m.callsOf h op = (op.prepare m.definition a (⟨h, []⟩ : Traced σ)).2.calls.reverse := by
  rw [Interpreter.callsOf, (perform_of_idle hm ho).2]

theorem initial_of_idle (hm : m.running = none) (ho : m.opening? op = none) :
    op = .start → m.definition.initial = none := by
  rintro rfl
  simpa [Interpreter.opening?, hm] using ho

theorem calls_cancelAll : ∀ (l : List Pending) (t : Traced σ),
    (Running.cancelAll t l).calls = (l.map fun p => .cancel p.id).reverse ++ t.calls
  | [], _ => rfl
  | p :: rest, t => by
    rw [Running.cancelAll, calls_cancelAll rest, List.map_cons, List.reverse_cons,
      List.append_assoc]
    rfl

/-- An operation that only prepares reports the status or cancels timers, if it does anything. -/
theorem call_of_prepare {c : HostCall} (hc : c ∈ (op.prepare d a (⟨h, []⟩ : Traced σ)).2.calls) :
    (op = .report ∧ ∃ n ∈ a.statusNotices d, c = .notice n) ∨ ∃ id, c = .cancel id := by
  cases op with
  | start | step | input | fire | moveTo => exact absurd hc List.not_mem_nil
  | report =>
    rw [Operation.prepare, calls_report, List.append_nil, List.mem_reverse] at hc
    obtain ⟨n, hn, rfl⟩ := List.mem_map.1 hc
    exact .inl ⟨rfl, n, hn, rfl⟩
  | terminate =>
    rw [Operation.prepare, calls_cancelAll, List.append_nil, List.mem_reverse] at hc
    obtain ⟨p, -, rfl⟩ := List.mem_map.1 hc
    exact .inr ⟨p.id, rfl⟩

theorem failure_notMem_of_idle (ho : m.opening? op = none) (x : Error) :
    .notice (.failure x) ∉ m.callsOf h op := by
  rcases hm : m.running with _ | a
  · rw [Interpreter.callsOf_of_not_started hm (initial_of_idle hm ho)]
    exact List.not_mem_nil
  · rw [callsOf_of_idle hm ho, List.mem_reverse]
    intro hmem
    rcases call_of_prepare hmem with ⟨-, n, hn, heq⟩ | ⟨id, heq⟩
    · cases heq
      simp [Running.statusNotices] at hn
    · cases heq

theorem current_prepare {τ : Type} [Host τ] {k : τ} : (op.prepare d a k).1.current = a.current := by
  cases op with
  | fire id => simp only [Operation.prepare]; split <;> rfl
  | start | step | input | moveTo | report | terminate => rfl

/-- Where nothing opens no state is entered, and the automaton stays where it is. -/
theorem entered_of_idle (ho : m.opening? op = none) (hop : op ≠ .report) :
    entered (m.callsOf h op) = [] ∧ (m.perform h op).interpreter.current? = m.current? := by
  rcases hm : m.running with _ | a
  · have hinit := initial_of_idle hm ho
    rw [Interpreter.callsOf_of_not_started hm hinit,
      (Interpreter.perform_of_not_started hm hinit).1]
    exact ⟨rfl, rfl⟩
  · rw [callsOf_of_idle hm ho, (perform_of_idle hm ho).1]
    constructor
    · refine List.filterMap_eq_nil_iff.2 fun c hc => ?_
      rcases call_of_prepare (List.mem_reverse.1 hc) with ⟨hreport, -⟩ | ⟨id, rfl⟩
      · exact absurd hreport hop
      · rfl
    · rw [Interpreter.current?, Interpreter.current?, hm]
      exact congrArg some current_prepare

end

/-! ### Runs -/

section Runs

variable {σ : Type} [Host σ] {m : Interpreter} {h : σ}

/-- An automaton that has been terminated has been asked for its end. -/
theorem alive_performAll (ops : List Operation) (hm : m.running = none) :
    ∀ a, (m.performAll h ops).1.running = some a → ¬ a.terminating → a.alive := by
  have hstable : ∀ e, Running.Stable m.definition e
      fun a (_ : σ) => ¬ a.terminating → a.alive := fun e =>
    { guardFailed := fun _ _ ha => ha
      enter := fun _ ha hend => by
        rw [Running.alive_enter]
        exact ha fun hbefore => hend (Running.terminating_enter.2 (.inl hbefore)) }
  refine Interpreter.invariant_performAll hstable (fun _ _ _ => rfl) (fun op a h ha => ?_) ops rfl
    (by simp [hm])
  cases op with
  | start | step | moveTo | input | report => exact ha
  | fire id =>
    simp only [Operation.prepare]
    split <;> exact ha
  | terminate => exact fun hend => absurd rfl hend

structure Interpreter.Reached (d : Definition) (e : Evaluator) (m : Interpreter) : Prop where
  definition : m.definition = d
  evaluator : m.evaluator = e
  placed : ∀ a, m.running = some a → a.Placed m.definition
  alive : ∀ a, m.running = some a → ¬ a.terminating → a.alive

theorem reached_performAll (d : Definition) (e : Evaluator) (h : σ) (ops : List Operation) :
    ((Interpreter.ofDefinition d e).performAll h ops).1.Reached d e where
  definition := Interpreter.definition_performAll _ _ _
  evaluator := Interpreter.evaluator_performAll _ _ _
  placed := by
    rw [Interpreter.definition_performAll]
    exact placed_performAll ops fun b hb => by cases hb
  alive := alive_performAll ops rfl

end Runs

/-- Throughout a run, an operation makes the selections of a course, if it opens one, and no others.
In each the first declared of the candidates whose guard passes is taken, and the host hears of the
guards before it that have failed, once each and in order of declaration; it hears of a failed guard
otherwise only where it has answered so itself.  Guards see the value of an event in the selection
for that event alone. -/
theorem first_declared_wins {σ : Type} [Host σ] (d : Definition) (e : Evaluator) (h : σ)
    (ops : List Operation) (op : Operation) :
    let m := ((Interpreter.ofDefinition d e).performAll h ops).1
    let k := ((Interpreter.ofDefinition d e).performAll h ops).2
    match m.opening? op with
    | none => ∀ x, .notice (.failure x) ∉ m.callsOf k op
    | some o => ∃ rounds : List Round, o.Course d e (⟨k, []⟩ : Traced σ) rounds
        ∧ m.perform (⟨k, []⟩ : Traced σ) op = m.outcome op (o.resolve d e ⟨k, []⟩)
        ∧ m.callsOf k op = o.calls d e k ++ rounds.flatMap Round.calls
        ∧ (∀ r ∈ rounds, Selects d e r.automaton r.stimulus r.taken r.failures)
        ∧ (∀ r ∈ rounds.head?, r.stimulus = o.stimulus)
        ∧ (∀ r ∈ rounds.tail, r.stimulus = .immediate)
        ∧ Echoed (o.calls d e k) ∧ ∀ r ∈ rounds, Echoed r.entry := by
  intro m k
  obtain ⟨hd, he, hplaced, -⟩ := reached_performAll d e h ops
  split
  · rename_i ho
    exact failure_notMem_of_idle ho
  · rename_i o ho
    obtain ⟨rounds, hc, hcalls⟩ := exists_course k hplaced ho
    have hperform := perform_of_opening (h := (⟨k, []⟩ : Traced σ)) hplaced ho
    rw [hd, he] at hc hcalls hperform
    obtain ⟨hhead, htail⟩ := hc.stimuli
    exact ⟨rounds, hc, hperform, hcalls, hc.selects, hhead, htail, o.echoed_calls k, hc.echoed⟩

end RemoteAutomaton.Automaton
