import RemoteAutomaton.Proofs.Frame
import RemoteAutomaton.Proofs.Refusal

/-!
# After the end has been asked for

Once the end of an automaton has been asked for, by an action or by a command, stimuli come to
nothing: each is answered, and of an input the value is kept (`stands_still_when_terminating`).

A termination moreover drops the timers.  After it only a move to a declared state does something,
and that enters the state as if nothing had happened: the termination is final unless the automaton
is moved (`final_unless_moved`).
-/

namespace RemoteAutomaton.Automaton

open Machine (Definition)

/-- The declared state that an operation moves to. -/
def Operation.destination? (d : Definition) : Operation → Option String
  | moveTo target => if target ∈ d.stateNames then some target else none
  | _ => none

namespace Interpreter

/-- The interpreter with the inputs that operations bring. -/
def noting (m : Interpreter) (ops : List Operation) : Interpreter :=
  { m with running := m.running.map fun a =>
      { a with inputs := ops.foldl Operation.record a.inputs } }

/-- Operations come to nothing: only the inputs that they bring are kept, the host is not called,
and each is answered with whether the automaton is running. -/
structure StandsStill {σ : Type} [Host σ] (m : Interpreter) (h : σ) (later : List Operation) :
    Prop where
  unchanged : m.performAll h later = (m.noting later, h)
  silent : m.calls h later = []
  answered : m.answers h later = later.map fun op => (op, .ok (some m.isRunning))

/-- Operations enter no state and schedule no timer; the automaton keeps its state and its values,
and has no timers. -/
structure EndIsFinal {σ : Type} [Host σ] (m : Interpreter) (h : σ) (later : List Operation) :
    Prop where
  entered : entered (m.calls h later) = []
  unscheduled : ∀ ms target r, .schedule ms target r ∉ m.calls h later
  current : (m.performAll h later).1.current? = m.current?
  vars : ∀ name, (m.performAll h later).1.variableValue? name = m.variableValue? name
  outputs : ∀ name, (m.performAll h later).1.outputValue? name = m.outputValue? name
  timers : (m.performAll h later).1.pendingTimers = []

end Interpreter

/-! ### Operations that are ignored -/

/-- An operation does no more to an automaton than bring an input, if it is one. -/
structure Running.Ignores (d : Definition) (a : Running) (op : Operation) : Prop where
  idle : ∀ e, (⟨d, e, some a⟩ : Interpreter).opening? op = none
  prepare : ∀ {σ : Type} [Host σ] (h : σ),
    op.prepare d a h = ({ a with inputs := op.record a.inputs }, h)

section Ignored

variable {σ : Type} [Host σ] {d : Definition} {m : Interpreter} {a : Running} {op : Operation}
  {h : σ}

theorem Running.ignores_of_terminating (ha : a.terminating) (hop : op.IsStimulus) :
    a.Ignores d op := by
  have hact : ¬ a.Active := fun hact => hact.2 ha
  constructor
  · intro e
    cases op with
    | step | input | fire => exact if_neg hact
    | start | moveTo | report | terminate => exact hop.elim
  · intro σ _ h
    rw [prepare_of_isStimulus hop, Running.received, if_neg hact]

/-- After a termination, what does not move the automaton is ignored. -/
theorem Running.ignores_of_ended (halive : ¬ a.alive) (hend : a.terminating)
    (htimers : a.timers = []) (hreport : op ≠ .report) (hop : op.destination? d = none) :
    a.Ignores d op := by
  cases op with
  | step | input | fire => exact ignores_of_terminating hend trivial
  | start => exact ⟨fun _ => rfl, fun _ => rfl⟩
  | moveTo target =>
    have ht : target ∉ d.stateNames := by simpa [Operation.destination?] using hop
    exact ⟨fun _ => if_neg ht, fun _ => rfl⟩
  | report => exact absurd rfl hreport
  | terminate =>
    refine ⟨fun _ => rfl, fun h => ?_⟩
    obtain ⟨current, vars, inputs, outputs, alive, terminating, timers⟩ := a
    simp only [Bool.not_eq_true] at halive
    subst halive hend htimers
    rfl

theorem perform_of_ignored (hm : m.running = some a) (hop : a.Ignores m.definition op) :
    (m.perform h op).interpreter = m.withRunning { a with inputs := op.record a.inputs }
      ∧ (m.perform h op).host = h ∧ m.callsOf h op = [] := by
  have ho : m.opening? op = none := by
    obtain ⟨d, e, r⟩ := m
    cases hm
    exact hop.idle e
  rw [(perform_of_idle hm ho).1, (perform_of_idle hm ho).2, callsOf_of_idle hm ho, hop.prepare,
    hop.prepare]
  exact ⟨rfl, rfl, rfl⟩

/-- A run of operations that are ignored, whatever the inputs are, keeps the inputs that it
brings. -/
theorem performAll_of_ignored : ∀ (later : List Operation) {m : Interpreter} {a : Running},
    m.running = some a →
    (∀ op ∈ later, ∀ v, Running.Ignores m.definition { a with inputs := v } op) →
    m.performAll h later = (m.noting later, h) ∧ m.calls h later = []
  | [], m, a, hm, _ => by
    obtain ⟨d, e, r⟩ := m
    cases hm
    exact ⟨rfl, rfl⟩
  | op :: later, m, a, hm, hall => by
    obtain ⟨hm', hh, hcalls⟩ := perform_of_ignored (h := h) hm
      (hall op List.mem_cons_self a.inputs)
    obtain ⟨hrun, hsilent⟩ := performAll_of_ignored later
      (m := m.withRunning { a with inputs := op.record a.inputs }) rfl
      fun op' hop' => hall op' (List.mem_cons_of_mem op hop')
    constructor
    · rw [Interpreter.performAll, hm', hh, hrun, Interpreter.noting, Interpreter.noting, hm]
      rfl
    · rw [Interpreter.calls_cons, hcalls, hm', hh, hsilent]
      rfl

theorem result_of_not_active (hm : m.running = some a) (ha : ¬ a.Active) (hop : op.IsStimulus) :
    (m.perform h op).result = .ok (some a.alive) := by
  cases op with
  | step event => simp only [Interpreter.perform, step_of_not_active event hm ha, Except.map]
  | input name value =>
    have ha' : ¬ ({ a with inputs := a.inputs.set name value } : Running).Active := ha
    simp only [Interpreter.perform, Interpreter.processInput, hm]
    rw [step_of_not_active _ rfl ha']
    rfl
  | fire id =>
    simp only [Interpreter.perform, Interpreter.fireTimer_of_not_active hm ha, Except.map]
  | start | moveTo | report | terminate => exact hop.elim

theorem answers_of_terminating : ∀ (later : List Operation) {m : Interpreter} {a : Running},
    m.running = some a → a.terminating → (∀ op ∈ later, op.IsStimulus) →
    m.answers h later = later.map fun op => (op, .ok (some a.alive))
  | [], _, _, _, _, _ => rfl
  | op :: later, m, a, hm, ha, hall => by
    have hop : op.IsStimulus := hall op List.mem_cons_self
    obtain ⟨hm', hh, -⟩ := perform_of_ignored (h := h) hm (Running.ignores_of_terminating ha hop)
    have hrest := answers_of_terminating later
      (m := m.withRunning { a with inputs := op.record a.inputs }) rfl ha
      fun op' hop' => hall op' (List.mem_cons_of_mem op hop')
    rw [Interpreter.answers, List.map_cons, hm', hh, hrest,
      result_of_not_active hm (fun hact => hact.2 ha) hop]

theorem standsStill_of_terminating (hm : m.running = some a) (ha : a.terminating)
    {later : List Operation} (hlater : ∀ op ∈ later, op.IsStimulus) : m.StandsStill h later := by
  obtain ⟨hrun, hsilent⟩ := performAll_of_ignored (h := h) later hm
    fun op hop v => Running.ignores_of_terminating ha (hlater op hop)
  have hrunning : m.isRunning = a.alive := by
    rw [Interpreter.isRunning, hm]
    rfl
  refine ⟨hrun, hsilent, ?_⟩
  rw [hrunning]
  exact answers_of_terminating later hm ha hlater

end Ignored

/-- Once the end has been asked for, stimuli come to nothing, however the interpreter has got there.
It makes no difference what the evaluator would say from then on: no guard is asked and no action is
run, or one that fails would be heard of. -/
theorem stands_still_when_terminating {σ : Type} [Host σ] (m : Interpreter) (h : σ)
    (later : List Operation) (hend : m.isTerminating) (hlater : ∀ op ∈ later, op.IsStimulus) :
    m.StandsStill h later ∧ ∀ e, ({ m with evaluator := e } : Interpreter).StandsStill h later := by
  obtain ⟨a, ha, hterminating⟩ := (Option.any_eq_true _ _).1 hend
  exact ⟨standsStill_of_terminating ha hterminating hlater,
    fun e => standsStill_of_terminating (m := { m with evaluator := e }) ha hterminating hlater⟩

open CommandLine in
/-- The action of a state asks for the end; the timer of that state is scheduled all the same, and
its expiry is ignored. -/
theorem stands_still_when_terminating_blink :
    let e := (Blink.registry.withAction "toggle_led" fun _ => .ok [.terminate]).evaluator
    let after := (Interpreter.ofDefinition Blink.definition e).performAll ({} : Recorder)
      [.start, .input "start" "1"]
    let later : List Operation := [.fire ⟨0, 1⟩, .input "stop" "1", .step none]
    after.1.isTerminating ∧ (∀ op ∈ later, op.IsStimulus) ∧ after.1.pendingTimers = [⟨0, 1⟩]
      ∧ after.1.StandsStill after.2 later := by
  intro e after later
  have hend : after.1.isTerminating := by decide +kernel
  have hlater : ∀ op ∈ later, op.IsStimulus := by simp [later, Operation.IsStimulus]
  exact ⟨hend, hlater, by decide +kernel,
    (stands_still_when_terminating after.1 after.2 later hend hlater).1⟩

/-! ### Terminations -/

section Terminations

variable {σ : Type} [Host σ] {d : Definition} {m : Interpreter} {a : Running} {op : Operation}
  {h : σ}

theorem opening_of_ended (hm : m.running = some a) (ha : ¬ a.alive) :
    m.opening? op = (op.destination? m.definition).map (.entry a ·) := by
  have hact : ¬ a.Active := fun hact => ha hact.1
  cases op with
  | moveTo target =>
    simp only [Interpreter.opening?, hm, Operation.destination?]
    split_ifs <;> rfl
  | step | input | fire =>
    simp only [Interpreter.opening?, hm]
    exact if_neg hact
  | start | report | terminate => simp [Interpreter.opening?, hm, Operation.destination?]

theorem stable_ended {e : Evaluator} : Running.Stable d e fun a (_ : σ) => ¬ a.alive where
  guardFailed _ _ ha := ha
  enter _ ha := by rwa [Running.alive_enter]

theorem ended_prepare (ha : ¬ a.alive) : ¬ (op.prepare d a h).1.alive := by
  cases op with
  | fire id =>
    simp only [Operation.prepare]
    split <;> exact ha
  | terminate => exact Bool.false_ne_true
  | start | step | input | moveTo | report => exact ha

theorem ended_perform (hm : m.running = some a) (ha : ¬ a.alive) :
    ∃ b, (m.perform h op).interpreter.running = some b ∧ ¬ b.alive :=
  Interpreter.stable_perform (P := fun a _ => ¬ a.alive) stable_ended hm (ended_prepare ha)

theorem callsOf_moveTo_of_ended {target : String} (hm : m.running = some a) (ha : ¬ a.alive)
    (ht : target ∈ m.definition.stateNames) :
    m.callsOf h (.moveTo target) = a.entryCalls m.definition m.evaluator h target := by
  have hact : ¬ (a.enter m.definition m.evaluator (⟨h, []⟩ : Traced σ) target).1.Active :=
    fun hact => ha (Running.alive_enter.symm.trans hact.1)
  simp only [Interpreter.callsOf, Interpreter.perform, Interpreter.moveTo, hm,
    if_pos (Definition.hasState_iff.2 ht), Interpreter.resolved, Running.moveTo,
    Running.settle_of_not_active hact]
  rw [calls_enter, List.append_nil, List.reverse_reverse]

/-- An automaton that has ended enters the states that it is moved to, and no others. -/
theorem entered_of_ended (hm : m.running = some a) (ha : ¬ a.alive) (hop : op ≠ .report) :
    entered (m.callsOf h op) = (op.destination? m.definition).toList := by
  have ho : m.opening? op = _ := opening_of_ended hm ha
  cases hdest : op.destination? m.definition with
  | none =>
    rw [hdest] at ho
    exact (entered_of_idle ho hop).1
  | some target =>
    cases op with
    | moveTo other =>
      simp only [Operation.destination?] at hdest
      split_ifs at hdest with ht
      cases hdest
      rw [callsOf_moveTo_of_ended hm ha ht, entered_entryCalls]
      rfl
    | start | step | input | fire | report | terminate => cases hdest

theorem entered_calls_of_ended : ∀ (later : List Operation) {m : Interpreter} {a : Running} {h : σ},
    m.running = some a → ¬ a.alive → .report ∉ later →
    entered (m.calls h later) = later.filterMap (·.destination? m.definition)
  | [], _, _, _, _, _, _ => rfl
  | op :: later, m, a, h, hm, ha, hreport => by
    obtain ⟨hop, hlater⟩ := not_or.1 (mt List.mem_cons.2 hreport)
    obtain ⟨b, hb, hended⟩ : ∃ b, (m.perform h op).interpreter.running = some b ∧ ¬ b.alive :=
      ended_perform hm ha
    have hrest := entered_calls_of_ended later (h := (m.perform h op).host) hb hended hlater
    rw [Interpreter.definition_perform, List.filterMap_eq_flatMap_toList] at hrest
    rw [Interpreter.calls_cons, entered_append, entered_of_ended hm ha (Ne.symm hop), hrest,
      List.filterMap_eq_flatMap_toList, List.flatMap_cons]

theorem endIsFinal_of_ignored (hm : m.running = some a) (ha : ¬ a.alive) (hend : a.terminating)
    (htimers : a.timers = []) {later : List Operation} (hreport : .report ∉ later)
    (hmoves : ∀ op ∈ later, op.destination? m.definition = none) : m.EndIsFinal h later := by
  obtain ⟨hrun, hsilent⟩ := performAll_of_ignored (h := h) later hm fun op hop v =>
    Running.ignores_of_ended ha hend htimers (fun heq => hreport (heq ▸ hop)) (hmoves op hop)
  have hrunning : (m.performAll h later).1.running
      = some { a with inputs := later.foldl Operation.record a.inputs } := by
    rw [hrun, Interpreter.noting, hm]
    rfl
  constructor
  · rw [hsilent]
    rfl
  · simp [hsilent]
  · simp [Interpreter.current?, hrunning, hm]
  · simp [Interpreter.variableValue?, hrunning, hm]
  · simp [Interpreter.outputValue?, hrunning, hm]
  · simp [Interpreter.pendingTimers, hrunning, htimers]

end Terminations

/-- After a termination an automaton enters the declared states that it is moved to, and no others.
So the termination is final exactly if there is no such move. -/
theorem final_unless_moved {σ : Type} [Host σ] (m : Interpreter) (h : σ) (later : List Operation)
    (hstarted : m.isStarted) (hreport : .report ∉ later) :
    let ended := (m.terminate h).1
    let k := (m.terminate h).2
    entered (ended.calls k later) = later.filterMap (·.destination? m.definition)
      ∧ (ended.EndIsFinal k later
        ↔ ∀ target ∈ m.definition.stateNames, .moveTo target ∉ later) := by
  intro ended k
  obtain ⟨a, ha⟩ := Option.isSome_iff_exists.1 hstarted
  have hended : ended
      = m.withRunning { a with alive := false, terminating := true, timers := [] } := by
    simp [ended, Interpreter.terminate, ha]
  have halive : ¬ (false = true) := Bool.false_ne_true
  rw [hended]
  have hentered := entered_calls_of_ended later (h := k)
    (m := m.withRunning { a with alive := false, terminating := true, timers := [] }) rfl halive
    hreport
  refine ⟨hentered, fun hfinal target ht hmem => ?_, fun hmoves => ?_⟩
  · rw [hfinal.entered] at hentered
    have hdest : (Operation.moveTo target).destination? m.definition = none :=
      List.filterMap_eq_nil_iff.1 hentered.symm _ hmem
    simp [Operation.destination?, ht] at hdest
  · refine endIsFinal_of_ignored rfl halive rfl rfl hreport fun op hop => ?_
    cases op with
    | moveTo target => exact if_neg fun ht => hmoves target ht hop
    | start | step | input | fire | report | terminate => rfl

open CommandLine in
theorem final_unless_moved_blink :
    let m := (Blink.interpreter.perform ({} : Recorder) .start).interpreter
    let k := (Blink.interpreter.perform ({} : Recorder) .start).host
    let later : List Operation := [.input "start" "1", .moveTo "Blinking", .fire ⟨0, 1⟩]
    m.isStarted ∧ .report ∉ later
      ∧ entered ((m.terminate k).1.calls (m.terminate k).2 later) = ["Blinking"] := by
  intro m k later
  have hstarted : m.isStarted := by decide +kernel
  have hreport : .report ∉ later := by decide
  exact ⟨hstarted, hreport,
    (final_unless_moved m k later hstarted hreport).1.trans (by decide +kernel)⟩

open CommandLine in
/-- A machine that is moved after its termination has a timer again, although it is not running. -/
theorem not_final_of_move_blink :
    let m := (Blink.interpreter.perform ({} : Recorder) .start).interpreter
    let k := (Blink.interpreter.perform ({} : Recorder) .start).host
    let ended := (m.terminate k).1
    let after := (ended.performAll (m.terminate k).2 [.moveTo "Blinking"]).1
    m.isStarted ∧ ¬ ended.EndIsFinal (m.terminate k).2 [.moveTo "Blinking"]
      ∧ after.isRunning = false ∧ after.pendingTimers = [⟨0, 1⟩] := by
  intro m k ended after
  have htimers : after.pendingTimers = [⟨0, 1⟩] := by decide +kernel
  refine ⟨by decide +kernel, fun hfinal => ?_, by decide +kernel, htimers⟩
  have hnone : after.pendingTimers = [] := hfinal.timers
  rw [htimers] at hnone
  cases hnone

end RemoteAutomaton.Automaton
