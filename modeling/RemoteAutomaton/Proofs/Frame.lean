import RemoteAutomaton.CommandLine.Blink
import RemoteAutomaton.Proofs.Opening

/-!
# What changes without an entry

Steps, inputs and expiries are stimuli.  One that enters no state keeps the value of its input,
drops the timer that it fires and changes nothing else, however it has come to nothing: no
transition waits for it, the guards do not pass or fail, or the end has been asked for
(`perform_of_not_entered`).

What is kept of the inputs is not touched by entries either, so throughout a run an input has the
value that was last brought for it (`inputValue?_performAll`).
-/

namespace RemoteAutomaton.Automaton

open Machine (Definition)

namespace Operation

/-- The operations that bring something to the automaton. -/
def IsStimulus : Operation → Prop
  | step _ | input .. | fire _ => True
  | start | moveTo _ | report | terminate => False

/-- Keeps the value of an input. -/
def record (v : Values) : Operation → Values
  | input name value => v.set name value
  | _ => v

/-- Drops the timer whose expiry is brought. -/
def drop (l : List Pending) : Operation → List Pending
  | fire id => l.eraseP (·.id = id)
  | _ => l

/-- The value that is brought for an input. -/
def value? (name : String) : Operation → Option String
  | input other value => if other = name then some value else none
  | _ => none

end Operation

/-- What a stimulus leaves of an automaton, unless a state is entered. -/
def Running.received (a : Running) (op : Operation) : Running :=
  { a with
    inputs := op.record a.inputs
    timers := if a.Active then op.drop a.timers else a.timers }

section Stimulus

variable {σ : Type} [Host σ] {d : Definition} {m : Interpreter} {a : Running} {op : Operation}
  {o : Opening} {h : σ}

theorem prepare_of_isStimulus (hop : op.IsStimulus) : op.prepare d a h = (a.received op, h) := by
  cases op with
  | step | input => simp [Operation.prepare, Running.received, Operation.record, Operation.drop]
  | fire id =>
    simp only [Operation.prepare, Running.received, Operation.record, Operation.drop,
      Running.release]
    split <;> rfl
  | start | moveTo | report | terminate => exact hop.elim

theorem opening_of_isStimulus (hop : op.IsStimulus) (hm : m.running = some a)
    (ho : m.opening? op = some o) : ∃ s, o = .selection (a.received op) s := by
  cases op with
  | step event =>
    simp only [Interpreter.opening?, hm] at ho
    split_ifs at ho
    cases ho
    exact ⟨.ofEvent? event, by simp [Running.received, Operation.record, Operation.drop]⟩
  | input name value =>
    simp only [Interpreter.opening?, hm] at ho
    split_ifs at ho
    cases ho
    exact ⟨.event name value, by simp [Running.received, Operation.record, Operation.drop]⟩
  | fire id =>
    simp only [Interpreter.opening?, hm] at ho
    split_ifs at ho with ha
    obtain ⟨p, -, rfl⟩ := Option.map_eq_some_iff.1 ho
    refine ⟨.expiry p.transition, ?_⟩
    rw [Running.received, if_pos ha]
    rfl
  | start | moveTo | report | terminate => exact hop.elim

/-- A stimulus that enters no state leaves only what it has brought, and the host only hears of
guards that fail. -/
theorem perform_of_not_entered (hplaced : ∀ a, m.running = some a → a.Placed m.definition)
    (hop : op.IsStimulus) (hm : m.running = some a) (hquiet : entered (m.callsOf h op) = []) :
    (m.perform h op).interpreter.running = some (a.received op)
      ∧ ∀ c ∈ m.callsOf h op, ∃ g reason, c = .notice (.failure (.guardFailed g reason)) := by
  cases ho : m.opening? op with
  | none =>
    rw [(perform_of_idle hm ho).1, callsOf_of_idle hm ho, prepare_of_isStimulus hop,
      prepare_of_isStimulus hop]
    exact ⟨rfl, by simp⟩
  | some o =>
    obtain ⟨rounds, hc, hcalls⟩ := exists_course h hplaced ho
    obtain ⟨s, rfl⟩ := opening_of_isStimulus hop hm ho
    have hpath : path rounds = [] := by
      rw [hcalls, entered_append] at hquiet
      exact hquiet
    rw [hcalls, ← (Interpreter.perform_traced []).1, perform_of_opening hplaced ho]
    exact ⟨congrArg some (hc.of_path_eq_nil hpath).1, hc.guardFailed_of_path_eq_nil hpath⟩

end Stimulus

/-! ### Inputs over a run -/

section Inputs

variable {σ : Type} [Host σ] {d : Definition} {e : Evaluator} {m : Interpreter} {a : Running}
  {op : Operation} {h : σ}

theorem stable_inputs (v : Values) : Running.Stable d e fun a (_ : σ) => a.inputs = v where
  guardFailed _ _ ha := ha
  enter _ ha := Running.inputs_enter.trans ha

theorem inputs_prepare : (op.prepare d a h).1.inputs = op.record a.inputs := by
  cases op with
  | fire id =>
    simp only [Operation.prepare]
    split <;> rfl
  | start | step | input | moveTo | report | terminate => rfl

theorem inputs_performAll : ∀ (ops : List Operation) {m : Interpreter} {a : Running} {h : σ},
    m.running = some a → ∃ b, (m.performAll h ops).1.running = some b
      ∧ b.inputs = ops.foldl Operation.record a.inputs
  | [], _, a, _, hm => ⟨a, hm, rfl⟩
  | op :: ops, m, a, h, hm => by
    have hprep : (op.prepare m.definition a h).1.inputs = op.record a.inputs := inputs_prepare
    obtain ⟨a', hm', ha'⟩ :=
      Interpreter.stable_perform (stable_inputs (op.record a.inputs)) hm hprep
    obtain ⟨b, hb, hinputs⟩ := inputs_performAll ops (h := (m.perform h op).host) hm'
    rw [ha'] at hinputs
    exact ⟨b, hb, hinputs⟩

theorem get?_record (v : Values) (name : String) :
    (op.record v).get? name = (op.value? name).or (v.get? name) := by
  cases op with
  | input other value =>
    rw [Operation.record, Values.get?_set, Operation.value?]
    by_cases hname : name = other
    · rw [if_pos hname, if_pos hname.symm]
      rfl
    · rw [if_neg hname, if_neg (Ne.symm hname)]
      rfl
  | start | step | fire | moveTo | report | terminate => rfl

/-- The last value that is brought for an input is the one that is kept. -/
theorem get?_foldl_record (name : String) : ∀ (ops : List Operation) (v : Values),
    (ops.foldl Operation.record v).get? name
      = (ops.filterMap (·.value? name)).getLast?.or (v.get? name)
  | [], _ => rfl
  | op :: ops, v => by
    rw [List.foldl_cons, get?_foldl_record name ops, get?_record, Values.getLast?_filterMap_cons_or]

/-- The operations of a run since the automaton was started. -/
def sinceStart (d : Definition) (ops : List Operation) : List Operation :=
  if d.initial = none then [] else ops.dropWhile (· ≠ .start)

theorem sinceStart_of_refused (ops : List Operation) (hop : op = .start → d.initial = none) :
    sinceStart d (op :: ops) = sinceStart d ops := by
  unfold sinceStart
  split_ifs with hd
  · rfl
  · exact List.dropWhile_cons_of_pos (by simpa using fun hstart => hd (hop hstart))

theorem sinceStart_of_initial (ops : List Operation) (hd : d.initial ≠ none) :
    sinceStart d (.start :: ops) = .start :: ops := by
  rw [sinceStart, if_neg hd]
  exact List.dropWhile_cons_of_neg (by simp)

/-- An input has the value that was last brought for it since the start.  Nothing is kept until a
start finds an initial state, and every input is from then on. -/
theorem inputValue?_performAll (name : String) : ∀ (ops : List Operation) {m : Interpreter} {h : σ},
    m.running = none → (m.performAll h ops).1.inputValue? name
      = ((sinceStart m.definition ops).filterMap (·.value? name)).getLast?
  | [], m, _, hm => by simp [Interpreter.performAll, Interpreter.inputValue?, hm, sinceStart]
  | op :: ops, m, h, hm => by
    by_cases hop : op = .start → m.definition.initial = none
    · rw [Interpreter.performAll, (Interpreter.perform_of_not_started hm hop).1,
        inputValue?_performAll name ops hm, sinceStart_of_refused ops hop]
    · obtain ⟨rfl, hinit⟩ := Classical.not_imp.1 hop
      obtain ⟨s, hs⟩ := Option.ne_none_iff_exists'.1 hinit
      obtain ⟨a, ha, hempty⟩ := Interpreter.stable_start (h := h) (stable_inputs .empty) hm hs
        Running.inputs_enter
      obtain ⟨b, hb, hinputs⟩ := inputs_performAll ops (h := (m.perform h .start).host) ha
      rw [Interpreter.performAll, Interpreter.inputValue?, hb, sinceStart_of_initial ops hinit,
        List.filterMap_cons]
      change b.inputs.get? name = _
      rw [hinputs, hempty, get?_foldl_record]
      exact Option.or_none

end Inputs

/-- Throughout a run, a stimulus that enters no state keeps the value of its input, drops the timer
that it fires unless the end has been asked for, and leaves the rest as it was; the host only hears
of guards that fail.  An input has the value that was last brought for it since the start, whatever
has happened otherwise. -/
theorem unchanged_without_entry {σ : Type} [Host σ] (d : Definition) (e : Evaluator) (h : σ)
    (ops : List Operation) (op : Operation) (name : String) :
    let m := ((Interpreter.ofDefinition d e).performAll h ops).1
    let k := ((Interpreter.ofDefinition d e).performAll h ops).2
    (op.IsStimulus → entered (m.callsOf k op) = [] →
        (m.perform k op).interpreter = { m with running := m.running.map fun a => { a with
          inputs := op.record a.inputs
          timers := if a.terminating then a.timers else op.drop a.timers } }
        ∧ ∀ c ∈ m.callsOf k op, ∃ g reason, c = .notice (.failure (.guardFailed g reason)))
      ∧ m.inputValue? name = ((sinceStart d ops).filterMap (·.value? name)).getLast? := by
  intro m k
  obtain ⟨-, -, hplaced, halive⟩ := reached_performAll d e h ops
  refine ⟨fun hop hquiet => ?_, inputValue?_performAll name ops rfl⟩
  cases hm : m.running with
  | none =>
    have hstart : op = .start → m.definition.initial = none := fun hs => (hs ▸ hop).elim
    rw [(Interpreter.perform_of_not_started hm hstart).1,
      Interpreter.callsOf_of_not_started hm hstart, Option.map_none, ← hm]
    exact ⟨rfl, by simp⟩
  | some a =>
    obtain ⟨hrunning, hcalls⟩ := perform_of_not_entered hplaced hop hm hquiet
    have hreceived : a.received op = { a with
        inputs := op.record a.inputs
        timers := if a.terminating then a.timers else op.drop a.timers } := by
      rw [Running.received]
      by_cases hend : a.terminating = true
      · rw [if_pos hend, if_neg fun hact => hact.2 hend]
      · rw [if_neg hend, if_pos ⟨halive a hm hend, hend⟩]
    refine ⟨?_, hcalls⟩
    rw [Option.map_some, ← hreceived, ← hrunning]
    calc (m.perform k op).interpreter
      _ = ⟨(m.perform k op).interpreter.definition, (m.perform k op).interpreter.evaluator,
            (m.perform k op).interpreter.running⟩ := rfl
      _ = ⟨m.definition, m.evaluator, (m.perform k op).interpreter.running⟩ := by
        rw [Interpreter.definition_perform, Interpreter.evaluator_perform]

open CommandLine in
theorem unchanged_without_entry_blink :
    let after := (Interpreter.ofDefinition Blink.definition Blink.registry.evaluator).performAll
      ({} : Recorder) [.start, .input "start" "1"]
    let op : Operation := .input "start" "2"
    op.IsStimulus ∧ entered (after.1.callsOf after.2 op) = []
      ∧ (after.1.perform after.2 op).interpreter
        = { after.1 with running := after.1.running.map fun a => { a with
            inputs := op.record a.inputs
            timers := if a.terminating then a.timers else op.drop a.timers } }
      ∧ after.1.inputValue? "start" = some "1" := by
  intro after op
  have hquiet : entered (after.1.callsOf after.2 op) = [] := by decide +kernel
  obtain ⟨hframe, hinput⟩ := unchanged_without_entry Blink.definition Blink.registry.evaluator
    ({} : Recorder) [.start, .input "start" "1"] op "start"
  exact ⟨trivial, hquiet, (hframe trivial hquiet).1, hinput.trans (by decide +kernel)⟩

end RemoteAutomaton.Automaton
