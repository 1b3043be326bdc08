import Mathlib.Tactic.SplitIfs
import RemoteAutomaton.Proofs.Resolution

/-!
# Operations and runs

An `Operation` is one call of an interpreter, so a run is a list of operations (`performAll`), and
`log` tells for each of them the calls that the host receives from it.

What an operation does to a started automaton is to prepare it, by taking an input, taking an
expiry, reporting or ending it (`Operation.prepare`), and then at most a resolution.  So a stable
property that holds once the operation is prepared holds after it (`stable_perform`).
-/

namespace RemoteAutomaton.Automaton

open Machine (Definition Transition)

/-- A call of an interpreter. -/
inductive Operation where
  | start
  | step (event : Option (String × String))
  | input (name value : String)
  | fire (id : TimerId)
  | moveTo (target : String)
  | report
  | terminate
  deriving DecidableEq, Repr

/-- The automaton without the first of its timers that has this id. -/
def Running.release (a : Running) (id : TimerId) : Running :=
  { a with timers := a.timers.eraseP (·.id = id) }

section

variable {σ : Type} [Host σ]

/-- The automaton and its host once an operation has done what it does before any transition. -/
def Operation.prepare (d : Definition) (a : Running) (h : σ) : Operation → Running × σ
  | .start | .step _ | .moveTo _ => (a, h)
  | .input name value => ({ a with inputs := a.inputs.set name value }, h)
  | .fire id => (if a.Active then a.release id else a, h)
  | .report => (a, a.report d h)
  | .terminate =>
    ({ a with alive := false, terminating := true, timers := [] }, Running.cancelAll h a.timers)

namespace Interpreter

/-- Does an operation.  Where it answers with something, that is kept in the result. -/
def perform (m : Interpreter) (h : σ) : Operation → Outcome σ (Option Bool)
  | .start => let o := m.start h; ⟨o.result.map fun _ => none, o.interpreter, o.host⟩
  | .step event => let o := m.step h event; ⟨o.result.map some, o.interpreter, o.host⟩
  | .input name value =>
    let o := m.processInput h name value; ⟨o.result.map some, o.interpreter, o.host⟩
  | .fire id => let o := m.fireTimer h id; ⟨o.result.map some, o.interpreter, o.host⟩
  | .moveTo target =>
    let o := m.moveTo h target; ⟨o.result.map fun _ => none, o.interpreter, o.host⟩
  | .report => let o := m.reportStatus h; ⟨o.result.map fun _ => none, o.interpreter, o.host⟩
  | .terminate => let r := m.terminate h; ⟨.ok none, r.1, r.2⟩

/-- Does operations in order, whatever their results. -/
def performAll (m : Interpreter) (h : σ) : List Operation → Interpreter × σ
  | [] => (m, h)
  | op :: ops => performAll (m.perform h op).interpreter (m.perform h op).host ops

/-- The calls that a host receives from an operation, in order. -/
def callsOf (m : Interpreter) (h : σ) (op : Operation) : List HostCall :=
  (m.perform (⟨h, []⟩ : Traced σ) op).host.calls.reverse

/-- Each operation of a run with the calls that the host receives from it. -/
def log (m : Interpreter) (h : σ) : List Operation → List (Operation × List HostCall)
  | [] => []
  | op :: ops =>
    (op, m.callsOf h op) :: log (m.perform h op).interpreter (m.perform h op).host ops

/-- All calls that a host receives during a run, in order. -/
def calls (m : Interpreter) (h : σ) (ops : List Operation) : List HostCall :=
  (m.log h ops).flatMap (·.2)

end Interpreter

end

theorem erase_eq_eraseP {p : Pending} {id : TimerId} : ∀ {l : List Pending},
    l.find? (·.id = id) = some p → l.erase p = l.eraseP (·.id = id)
  | [], h => by simp at h
  | q :: rest, h => by
    by_cases hq : q.id = id
    · rw [List.find?_cons_of_pos (by simpa using hq)] at h
      cases h
      rw [List.erase_cons_head, List.eraseP_cons_of_pos (by simpa using hq)]
    · rw [List.find?_cons_of_neg (by simpa using hq)] at h
      have hqp : q ≠ p := by
        rintro rfl
        exact hq (by simpa using List.find?_some h)
      rw [List.erase_cons_tail (by simpa using hqp), List.eraseP_cons_of_neg (by simpa using hq),
        erase_eq_eraseP h]

theorem map_id_eraseP (l : List Pending) (id : TimerId) :
    (l.eraseP (·.id = id)).map (·.id) = (l.map (·.id)).erase id := by
  rw [List.erase_eq_eraseP', List.eraseP_map]
  congr 2

theorem Running.release_eq_self {a : Running} {id : TimerId}
    (h : a.timers.find? (·.id = id) = none) : a.release id = a := by
  have : a.timers.eraseP (·.id = id) = a.timers :=
    List.eraseP_of_forall_not fun p hp => by simpa using List.find?_eq_none.1 h p hp
  rw [Running.release, this]

theorem Definition.hasState_iff {d : Definition} {name : String} :
    d.hasState name ↔ name ∈ d.stateNames := by
  simp [Definition.hasState, Definition.stateNames]

theorem Definition.hasVariable_iff {d : Definition} {name : String} :
    d.hasVariable name ↔ name ∈ d.variableNames := by
  simp [Definition.hasVariable, Definition.variableNames]

theorem Definition.hasOutput_iff {d : Definition} {name : String} :
    d.hasOutput name ↔ name ∈ d.outputs := by
  simp [Definition.hasOutput]

namespace Interpreter

variable {σ : Type} [Host σ] {m : Interpreter} {h : σ} {op : Operation}

theorem machine_moveTo (m : Interpreter) (h : σ) (target : String) :
    (m.moveTo h target).interpreter.definition = m.definition
      ∧ (m.moveTo h target).interpreter.evaluator = m.evaluator := by
  unfold moveTo
  repeat' split
  all_goals exact ⟨rfl, rfl⟩

/-- Only the values of an automaton change. -/
theorem machine_perform (m : Interpreter) (h : σ) (op : Operation) :
    (m.perform h op).interpreter.definition = m.definition
      ∧ (m.perform h op).interpreter.evaluator = m.evaluator := by
  cases op with
  | moveTo target => exact machine_moveTo m h target
  | fire id =>
    simp only [perform, fireTimer]
    repeat' split
    all_goals first | exact ⟨rfl, rfl⟩ | exact machine_moveTo (m.withRunning _) _ _
  | start | step | input | report | terminate =>
    simp only [perform, start, step, processInput, reportStatus, terminate, withRunning, refuse,
      resolved, answered]
    repeat' split
    all_goals exact ⟨rfl, rfl⟩

@[simp] theorem definition_perform :
    (m.perform h op).interpreter.definition = m.definition :=
  (machine_perform m h op).1

@[simp] theorem evaluator_perform :
    (m.perform h op).interpreter.evaluator = m.evaluator :=
  (machine_perform m h op).2

@[simp] theorem definition_performAll : ∀ (ops : List Operation) (m : Interpreter) (h : σ),
    (m.performAll h ops).1.definition = m.definition
  | [], _, _ => rfl
  | _ :: ops, _, _ => (definition_performAll ops _ _).trans definition_perform

@[simp] theorem evaluator_performAll : ∀ (ops : List Operation) (m : Interpreter) (h : σ),
    (m.performAll h ops).1.evaluator = m.evaluator
  | [], _, _ => rfl
  | _ :: ops, _, _ => (evaluator_performAll ops _ _).trans evaluator_perform

theorem performAll_append : ∀ (ops ops' : List Operation) (m : Interpreter) (h : σ),
    m.performAll h (ops ++ ops') = (m.performAll h ops).1.performAll (m.performAll h ops).2 ops'
  | [], _, _, _ => rfl
  | _ :: ops, ops', _, _ => performAll_append ops ops' _ _

theorem calls_cons (ops : List Operation) : m.calls h (op :: ops)
    = m.callsOf h op ++ (m.perform h op).interpreter.calls (m.perform h op).host ops :=
  rfl

/-- Before the start nothing is done, and neither is a start without an initial state. -/
theorem perform_of_not_started (hm : m.running = none)
    (hop : op = .start → m.definition.initial = none) :
    (m.perform h op).interpreter = m ∧ (m.perform h op).host = h := by
  cases op with
  | start => simp [perform, start, hm, hop rfl, refuse]
  | step | input | fire | moveTo | report | terminate =>
    simp [perform, step, processInput, fireTimer, moveTo, reportStatus, terminate, hm, refuse]

theorem perform_start_of_started {a : Running} (hm : m.running = some a) :
    (m.perform h .start).interpreter = m ∧ (m.perform h .start).host = h := by
  simp [perform, start, hm, refuse]

theorem start_of_initial {s : String} (hm : m.running = none)
    (hs : m.definition.initial = some s) :
    m.start h
      = m.resolved ((Running.initially m.definition s).moveTo m.definition m.evaluator h s) := by
  have hmem : m.definition.hasState s :=
    Definition.hasState_iff.2 (m.definition.initial_mem s hs)
  simp only [start, hm, hs, if_pos hmem]

/-! ### Timers -/

section Fire

variable {a : Running} {id : TimerId}

theorem fireTimer_of_not_active (hm : m.running = some a) (ha : ¬ a.Active) :
    m.fireTimer h id = ⟨.ok a.alive, m, h⟩ := by
  simp only [fireTimer, hm]
  split_ifs with halive hend
  · rw [halive]
  · exact absurd ⟨halive, hend⟩ ha
  · rw [Bool.eq_false_iff.2 halive]

theorem fireTimer_of_not_pending (hm : m.running = some a)
    (hp : a.timers.find? (·.id = id) = none) : m.fireTimer h id = ⟨.ok a.alive, m, h⟩ := by
  by_cases ha : a.Active
  · simp only [fireTimer, hm, hp]
    rw [if_neg (not_not_intro ha.1), if_neg ha.2, ha.1]
  · exact fireTimer_of_not_active hm ha

/-- A transition that can be followed leads to a declared state. -/
theorem moveTo_of_firstEligible {trigger : Option String} {l : List Nat} {t : Transition}
    {h' : σ} (ht : a.firstEligible m.definition m.evaluator trigger h l = (some t, h')) :
    (m.withRunning a).moveTo h' t.target
      = m.resolved (a.moveTo m.definition m.evaluator h' t.target) := by
  have hmem := Running.mem_of_firstEligible (congrArg Prod.fst ht)
  have hstate : m.definition.hasState t.target :=
    Definition.hasState_iff.2 (m.definition.transitions_fit t hmem).target_mem
  exact if_pos hstate

/-- The transition of a timer is followed if its guard passes. -/
theorem fireTimer_of_pending {p : Pending} (hm : m.running = some a) (ha : a.Active)
    (hp : a.timers.find? (·.id = id) = some p) :
    m.fireTimer h id =
      match (a.release id).firstEligible m.definition m.evaluator none h [p.transition] with
      | (none, h) => ⟨.ok a.alive, m.withRunning (a.release id), h⟩
      | (some t, h) =>
        m.answered ((a.release id).moveTo m.definition m.evaluator h t.target) := by
  have hrelease : { a with timers := a.timers.erase p } = a.release id := by
    rw [Running.release, erase_eq_eraseP hp]
  simp only [fireTimer, hm, hp, if_neg (not_not_intro ha.1), if_neg ha.2, hrelease]
  rcases hs : (a.release id).firstEligible m.definition m.evaluator none h [p.transition]
    with ⟨_ | t, h'⟩
  · rfl
  · dsimp only
    rw [moveTo_of_firstEligible hs]
    rfl

end Fire

section Stable

variable {P : Running → σ → Prop} (hP : Running.Stable m.definition m.evaluator P)

include hP

theorem stable_step {a : Running} {event : Option (String × String)} (hm : m.running = some a)
    (ha : P a h) :
    ∃ a', (m.step h event).interpreter.running = some a' ∧ P a' (m.step h event).host := by
  unfold step
  rw [hm]
  simp only
  split_ifs
  · exact ⟨a, hm, ha⟩
  · cases event with
    | none => exact ⟨_, rfl, hP.settle ha⟩
    | some event => exact ⟨_, rfl, hP.react ha⟩
  · exact ⟨a, hm, ha⟩

theorem stable_fireTimer {a : Running} {id : TimerId} (hm : m.running = some a)
    (ha : P (if a.Active then a.release id else a) h) :
    ∃ a', (m.fireTimer h id).interpreter.running = some a' ∧ P a' (m.fireTimer h id).host := by
  by_cases hact : a.Active
  · rw [if_pos hact] at ha
    rcases hp : a.timers.find? (·.id = id) with _ | p
    · rw [Running.release_eq_self hp] at ha
      rw [fireTimer_of_not_pending hm hp]
      exact ⟨a, hm, ha⟩
    · rw [fireTimer_of_pending hm hact hp]
      split
      · rename_i h' hs
        exact ⟨_, rfl, hP.select hs ha⟩
      · rename_i t h' hs
        exact ⟨_, rfl, hP.settle (hP.follow hs ha)⟩
  · rw [if_neg hact] at ha
    rw [fireTimer_of_not_active hm hact]
    exact ⟨a, hm, ha⟩

/-- A stable property that holds of a started automaton once an operation is prepared holds after
the operation. -/
theorem stable_perform {a : Running} (hm : m.running = some a)
    (ha : P (op.prepare m.definition a h).1 (op.prepare m.definition a h).2) :
    ∃ a', (m.perform h op).interpreter.running = some a' ∧ P a' (m.perform h op).host := by
  cases op with
  | start =>
    obtain ⟨hm', hh⟩ := perform_start_of_started (h := h) hm
    exact ⟨a, by rw [hm', hm], by rwa [hh]⟩
  | step event => exact stable_step hP hm ha
  | input name value =>
    simp only [perform, processInput, hm]
    exact stable_step (m := m.withRunning _) hP rfl ha
  | fire id => exact stable_fireTimer hP hm ha
  | moveTo target =>
    simp only [perform, moveTo, hm]
    split
    · rename_i ht
      exact ⟨_, rfl, hP.moveTo (Definition.hasState_iff.1 ht) ha⟩
    · exact ⟨a, hm, ha⟩
  | report =>
    simp only [perform, reportStatus, hm]
    exact ⟨a, rfl, ha⟩
  | terminate =>
    simp only [perform, terminate, hm]
    exact ⟨_, rfl, ha⟩

/-- A stable property that holds once the initial state has been entered holds after the start. -/
theorem stable_start {s : String} (hm : m.running = none) (hs : m.definition.initial = some s)
    (ha : P ((Running.initially m.definition s).enter m.definition m.evaluator h s).1
      ((Running.initially m.definition s).enter m.definition m.evaluator h s).2) :
    ∃ a', (m.perform h .start).interpreter.running = some a' ∧ P a' (m.perform h .start).host := by
  simp only [perform, start_of_initial hm hs]
  exact ⟨_, rfl, hP.settle ha⟩

/-- A stable property that holds once the initial state has been entered, and once the operation is
prepared if the automaton has been started, holds after the operation if the automaton has been
started then. -/
theorem stable_started
    (hstart : ∀ s, m.definition.initial = some s →
      P ((Running.initially m.definition s).enter m.definition m.evaluator h s).1
        ((Running.initially m.definition s).enter m.definition m.evaluator h s).2)
    (hprep : ∀ a, m.running = some a →
      P (op.prepare m.definition a h).1 (op.prepare m.definition a h).2)
    {a : Running} (ha : (m.perform h op).interpreter.running = some a) :
    P a (m.perform h op).host := by
  have hsome : ∀ {a' : Running}, (m.perform h op).interpreter.running = some a' →
      P a' (m.perform h op).host → P a (m.perform h op).host := by
    intro a' hrun ha'
    rw [hrun] at ha
    cases ha
    exact ha'
  rcases hm : m.running with _ | b
  · by_cases hop : op = .start → m.definition.initial = none
    · rw [(perform_of_not_started hm hop).1, hm] at ha
      cases ha
    · obtain ⟨rfl, hinit⟩ := Classical.not_imp.1 hop
      obtain ⟨s, hs⟩ := Option.ne_none_iff_exists'.1 hinit
      obtain ⟨a', hrun, ha'⟩ := stable_start hP hm hs (hstart s hs)
      exact hsome hrun ha'
  · obtain ⟨a', hrun, ha'⟩ := stable_perform hP hm (hprep b hm)
    exact hsome hrun ha'

end Stable

/-- What holds before the initial state is entered, survives entries and is kept by what operations
do before any transition holds of a started automaton throughout a run. -/
theorem invariant_performAll {d : Definition} {P : Running → Prop}
    (hP : ∀ e, Running.Stable d e fun a (_ : σ) => P a)
    (hinit : ∀ s, d.initial = some s → P (.initially d s))
    (hprep : ∀ (op : Operation) a (h : σ), P a → P (op.prepare d a h).1) :
    ∀ (ops : List Operation) {m : Interpreter} {h : σ}, m.definition = d →
      (∀ a, m.running = some a → P a) → ∀ a, (m.performAll h ops).1.running = some a → P a
  | [], _, _, _, hm => hm
  | op :: ops, m, h, hd, hm => by
    subst hd
    refine invariant_performAll hP hinit hprep ops definition_perform fun a ha => ?_
    exact stable_started (P := fun a _ => P a) (hP _)
      (fun s hs => (hP _).enter (h := h) (m.definition.initial_mem s hs) (hinit s hs))
      (fun b hb => hprep op b h (hm b hb)) ha

end Interpreter

end RemoteAutomaton.Automaton
