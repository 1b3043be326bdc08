import RemoteAutomaton.Proofs.Numeral
import RemoteAutomaton.Proofs.Passage

/-!
# What an entry tells its host

An entry cancels the timers of the state before it, tells what its action does, reports the state
and then tries to schedule the delayed transitions of the state.  An `Attempt` is what comes of one
of them: its timer is granted, or refused by the host, or not asked for since the variable holds no
delay.  `Delay.Lasts` says for how long a timer is asked, and that is read off the values that the
entry action leaves.

So the calls of an entry are known exactly (`exists_attempts`), and with them the timers that are
pending after it.
-/

namespace RemoteAutomaton.Machine

/-- A delay lasts so many milliseconds, where variables have these values: a fixed one as many as
are declared, and another as many as its variable's value denotes, if that is a positive integer of
64 bits. -/
def Delay.Lasts (vars : Automaton.Values) : Delay → Nat → Prop
  | fixed n, ms => ms = n
  | held name, ms =>
    ∃ value, vars.get? name = some value ∧ Text.Denotes value.toList ms ∧ 1 ≤ ms
      ∧ ms < 0x8000000000000000

end RemoteAutomaton.Machine

namespace RemoteAutomaton.Automaton

open Machine (Definition Transition Delay)

/-- The call that an effect makes.  Only declared names take a value, and asking for the end makes
no call. -/
def Effect.call? (d : Definition) : Effect → Option HostCall
  | assign name value =>
    if name ∈ d.variableNames then some (.notice (.var name value))
    else some (.notice (.failure (.unknownVariable name)))
  | write name value =>
    if name ∈ d.outputs then some (.notice (.output name value))
    else some (.notice (.failure (.unknownOutput name)))
  | log text => some (.notice (.log text))
  | terminate => none

/-- The calls that the entry action of a state makes, in order. -/
def Running.actionCalls (d : Definition) (e : Evaluator) (a : Running) (target : String) :
    List HostCall :=
  match d.actionOf? target with
  | none => []
  | some action =>
    match e.action action a.bindings with
    | .ok effects => effects.filterMap (·.call? d)
    | .error reason => [.notice (.failure (.actionFailed action reason))]

/-- What comes of a delayed transition, which is given by its number, when its state is entered. -/
inductive Attempt where
  | granted (transition milliseconds : Nat) (target : String) (id : TimerId)
  | refused (transition milliseconds : Nat) (target : String) (error : Error)
  /-- The variable holds no delay. -/
  | unasked (transition : Nat) (reason : String)

namespace Attempt

def transition : Attempt → Nat
  | granted i .. | refused i .. | unasked i _ => i

/-- The milliseconds and the state that the host is asked for. -/
def asked? : Attempt → Option (Nat × String)
  | granted _ ms target _ | refused _ ms target _ => some (ms, target)
  | unasked .. => none

/-- The calls that the host receives, in order. -/
def calls : Attempt → List HostCall
  | granted _ ms target id => [.schedule ms target (.ok id)]
  | refused _ ms target x => [.schedule ms target (.error x), .notice (.failure x)]
  | unasked _ reason => [.notice (.failure (.invalidDelay reason))]

def timer? : Attempt → Option Pending
  | granted i _ _ id => some ⟨id, i⟩
  | refused .. | unasked .. => none

/-- The host is asked for as long as the transition's delay lasts and for the state that the
transition leads to, or for nothing if the delay does not last for any time. -/
def Fits (d : Definition) (vars : Values) (y : Attempt) : Prop :=
  ∃ t delay, d.transitions[y.transition]? = some t ∧ t.trigger = .delayed delay
    ∧ ∀ ms target, y.asked? = some (ms, target) ↔ delay.Lasts vars ms ∧ target = t.target

end Attempt

section

variable {σ : Type} [Host σ] {d : Definition} {e : Evaluator} {a : Running} {t : Traced σ}

/-! ### Actions -/

theorem calls_apply (x : Effect) :
    (a.apply d t x).2.calls = (x.call? d).toList ++ t.calls := by
  cases x with
  | assign name value =>
    simp only [Running.apply, Effect.call?, Definition.hasVariable_iff]
    split <;> rfl
  | write name value =>
    simp only [Running.apply, Effect.call?, Definition.hasOutput_iff]
    split <;> rfl
  | log => rfl
  | terminate => rfl

theorem calls_applyAll : ∀ (l : List Effect) (a : Running) (t : Traced σ),
    (a.applyAll d t l).2.calls = (l.filterMap (·.call? d)).reverse ++ t.calls
  | [], _, _ => rfl
  | x :: rest, a, t => by
    rw [Running.applyAll, calls_applyAll rest, calls_apply, List.filterMap_cons]
    cases x.call? d <;> simp

theorem calls_arrive (target : String) : (a.arrive d e t target).2.calls
    = ((a.timers.map fun p => HostCall.cancel p.id) ++ a.actionCalls d e target).reverse
      ++ t.calls := by
  have hrelocated : (a.relocate target).bindings = a.bindings := rfl
  rw [List.reverse_append, List.append_assoc, ← calls_cancelAll, Running.arrive, Running.runEntry,
    Running.actionCalls]
  rcases d.actionOf? target with _ | action
  · rfl
  · simp only [Running.runAction, hrelocated]
    rcases e.action action a.bindings with reason | effects
    · rfl
    · exact calls_applyAll effects _ _

/-! ### Delays -/

omit [Host σ] in
theorem resolve_held_eq_ok_iff {name : String} {ms : Nat} :
    a.resolve (.held name) = .ok ms ↔ ∃ value n, a.vars.get? name = some value
      ∧ Text.readInt64? (Text.trim value.toList) = some n ∧ 0 < n ∧ n.toNat = ms := by
  rw [Running.resolve]
  rcases a.vars.get? name with _ | value
  · simp
  · rcases hn : Text.readInt64? (Text.trim value.toList) with _ | n
    · simp [hn]
    · by_cases hpos : n ≤ 0
      · simp [hn, hpos, Int.not_lt.2 hpos]
      · simp [hn, hpos, Int.not_le.1 hpos]

omit [Host σ] in
theorem resolve_eq_ok_iff {delay : Delay} {ms : Nat} :
    a.resolve delay = .ok ms ↔ delay.Lasts a.vars ms := by
  cases delay with
  | fixed n =>
    rw [Running.resolve, Delay.Lasts, Except.ok.injEq]
    exact eq_comm
  | held name =>
    simp only [resolve_held_eq_ok_iff, Delay.Lasts, Text.readInt64?_trim_eq_some_iff, Text.IsInt64]
    constructor
    · rintro ⟨value, n, hvalue, ⟨hden, -, hlt⟩, hpos, hms⟩
      obtain rfl : n = ms := by omega
      exact ⟨value, hvalue, hden, by omega, by omega⟩
    · rintro ⟨value, hvalue, hden, hpos, hlt⟩
      exact ⟨value, ms, hvalue, ⟨hden, by omega, by omega⟩, by omega, Int.toNat_natCast ms⟩

omit [Host σ] in
/-- Where the variables are the declared ones, a delay fails only for its variable's value. -/
theorem invalidDelay_of_resolve {delay : Delay} {x : Error} (ha : a.Declares d)
    (hfit : delay.Fits d.variableNames) (hx : a.resolve delay = .error x) :
    ∃ reason, x = .invalidDelay reason := by
  cases delay with
  | fixed => cases hx
  | held name =>
    have hname : name ∈ a.vars.names := ha ▸ hfit
    obtain ⟨value, hvalue⟩ := Values.exists_get? hname
    simp only [Running.resolve, hvalue] at hx
    split at hx
    · cases hx
      exact ⟨_, rfl⟩
    · split_ifs at hx
      cases hx
      exact ⟨_, rfl⟩

/-- One delayed transition makes one attempt, and then the others are tried.  A variable that is
declared has a value, so what is no delay is an invalid one. -/
theorem exists_attempt {i : Nat} {u : Transition} {delay : Delay} (ha : a.Declares d)
    (hi : d.transitions[i]? = some u) (hu : u.trigger = .delayed delay) (t : Traced σ) :
    ∃ (y : Attempt) (t' : Traced σ), y.transition = i ∧ y.Fits d a.vars
      ∧ t'.calls = y.calls.reverse ++ t.calls
      ∧ ∀ rest, a.scheduleAll d t (i :: rest)
        = { a with timers := a.timers ++ y.timer?.toList }.scheduleAll d t' rest := by
  rcases hms : a.resolve delay with x | ms
  · obtain ⟨reason, rfl⟩ := invalidDelay_of_resolve ha
      ((d.transitions_fit u (Array.mem_of_getElem? hi)).delay_fits delay hu) hms
    refine ⟨.unasked i reason, Host.notify t (.failure (.invalidDelay reason)), rfl,
      ⟨u, delay, hi, hu, fun ms target => ?_⟩, rfl, fun rest => ?_⟩
    · rw [← resolve_eq_ok_iff, hms]
      exact ⟨nofun, fun h => nomatch h.1⟩
    · simp [Running.scheduleAll, Running.request, hi, hu, hms, Attempt.timer?]
  · have hasked : ∀ ms' target, some (ms, u.target) = some (ms', target)
        ↔ delay.Lasts a.vars ms' ∧ target = u.target := fun ms' target => by
      rw [← resolve_eq_ok_iff, hms, Option.some_inj, Prod.mk.injEq, Except.ok.injEq,
        @eq_comm _ u.target]
    rcases hs : Host.schedule t ms u.target with ⟨x | id, t'⟩
    · refine ⟨.refused i ms u.target x, Host.notify t' (.failure x), rfl,
        ⟨u, delay, hi, hu, hasked⟩, ?_, fun rest => ?_⟩
      · exact congrArg (.notice (.failure x) :: ·) (calls_schedule hs)
      · simp [Running.scheduleAll, Running.request, hi, hu, hms, hs, Attempt.timer?]
    · refine ⟨.granted i ms u.target id, t', rfl, ⟨u, delay, hi, hu, hasked⟩,
        calls_schedule hs, fun rest => ?_⟩
      simp [Running.scheduleAll, Running.request, hi, hu, hms, hs, Attempt.timer?]

/-- Delayed transitions make one attempt each, in order, and the timers that are granted become
pending. -/
theorem exists_attempts_scheduleAll : ∀ (l : List Nat) (a : Running) (t : Traced σ), a.Declares d →
    (∀ i ∈ l, ∃ u delay, d.transitions[i]? = some u ∧ u.trigger = .delayed delay) →
    ∃ attempts : List Attempt, attempts.map (·.transition) = l
      ∧ (∀ y ∈ attempts, y.Fits d a.vars)
      ∧ (a.scheduleAll d t l).2.calls = (attempts.flatMap Attempt.calls).reverse ++ t.calls
      ∧ (a.scheduleAll d t l).1
        = { a with timers := a.timers ++ attempts.filterMap Attempt.timer? }
  | [], a, t, _, _ => ⟨[], rfl, List.forall_mem_nil _, rfl, by simp [Running.scheduleAll]⟩
  | i :: rest, a, t, ha, hl => by
    obtain ⟨⟨u, delay, hi, hu⟩, hrest⟩ := List.forall_mem_cons.1 hl
    obtain ⟨y, t', rfl, hfit, hcalls, hstep⟩ := exists_attempt ha hi hu t
    obtain ⟨attempts, hmap, hfits, hcalls', hafter⟩ := exists_attempts_scheduleAll rest
      { a with timers := a.timers ++ y.timer?.toList } t' ha hrest
    refine ⟨y :: attempts, by rw [List.map_cons, hmap], List.forall_mem_cons.2 ⟨hfit, hfits⟩,
      ?_, ?_⟩
    · rw [hstep, hcalls', hcalls, List.flatMap_cons, List.reverse_append, List.append_assoc]
    · rw [hstep, hafter, List.filterMap_cons]
      cases y.timer? <;> simp

/-! ### Entries -/

theorem mem_delayedFrom {i : Nat} {s : String} (hi : i ∈ d.delayedFrom s) :
    ∃ u delay, d.transitions[i]? = some u ∧ u.trigger = .delayed delay := by
  obtain ⟨-, htrigger⟩ := List.mem_filter.1 hi
  obtain ⟨u, hu, hdelayed⟩ := (Option.any_eq_true _ _).1 htrigger
  cases hk : u.trigger with
  | delayed delay => exact ⟨u, delay, hu, hk⟩
  | immediate => simp [hk, Machine.Trigger.isDelayed] at hdelayed
  | event => simp [hk, Machine.Trigger.isDelayed] at hdelayed

/-- The calls of an entry are cancellations, those of the action, the report of the state and those
of the attempts. -/
theorem exists_attempts (e : Evaluator) (x : Entry σ) (hx : x.automaton.Declares d) :
    ∃ attempts : List Attempt, attempts.map (·.transition) = d.delayedFrom x.target
      ∧ (∀ y ∈ attempts, y.Fits d (x.arrival d e).vars)
      ∧ x.calls d e = (x.automaton.timers.map fun p => .cancel p.id)
        ++ x.automaton.actionCalls d e x.target
        ++ .notice (.state x.target) :: attempts.flatMap Attempt.calls
      ∧ x.after d e = { x.arrival d e with timers := attempts.filterMap Attempt.timer? } := by
  set t : Traced σ := ⟨x.host, []⟩
  obtain ⟨harrive, -⟩ := simulation_host.arrive (d := d) (e := e) (h := t) (k := x.host) x.target
    (Running.alike_eq_iff.2 (rfl : x.automaton = x.automaton)) rfl
  obtain ⟨attempts, hmap, hfits, hcalls, hafter⟩ := exists_attempts_scheduleAll
    (d.delayedFrom x.target) (x.automaton.arrive d e t x.target).1
    (Host.notify (x.automaton.arrive d e t x.target).2 (.state x.target)) hx.arrive
    fun i hi => mem_delayedFrom hi
  rw [← Running.enter_eq] at hcalls hafter
  rw [Running.timers_arrive, List.nil_append, (enter_traced _ t _).1, harrive] at hafter
  rw [harrive] at hfits
  refine ⟨attempts, hmap, hfits, ?_, hafter⟩
  have hstate : (Host.notify (x.automaton.arrive d e t x.target).2 (.state x.target)).calls
      = .notice (.state x.target) :: (x.automaton.arrive d e t x.target).2.calls := rfl
  rw [Entry.calls, Running.entryCalls, hcalls, hstate, calls_arrive]
  simp [t]

/-- An action makes reports, and none of a state. -/
theorem notice_of_mem_actionCalls {c : HostCall} {target : String}
    (hc : c ∈ a.actionCalls d e target) : ∃ n, c = .notice n ∧ ∀ s, n ≠ .state s := by
  unfold Running.actionCalls at hc
  split at hc
  · cases hc
  · split at hc
    · obtain ⟨x, -, hx⟩ := List.mem_filterMap.1 hc
      cases x with
      | assign name value | write name value =>
        simp only [Effect.call?] at hx
        split_ifs at hx
        all_goals
          cases hx
          exact ⟨_, rfl, nofun⟩
      | log text =>
        cases hx
        exact ⟨_, rfl, nofun⟩
      | terminate => cases hx
    · cases List.mem_singleton.1 hc
      exact ⟨_, rfl, nofun⟩

end

/-- Throughout a run, an entry makes one attempt for each delayed transition of the state that it
enters, in order of declaration, after it has reported the state and not before.  The host is asked
for a timer if the delay lasts for some time with the values that the entry action leaves, and hears
of one invalid delay otherwise; a refusal is reported once.  The timers that are granted, and no
others, are pending after the entry. -/
theorem one_attempt_each {σ : Type} [Host σ] (d : Definition) (e : Evaluator) (h : σ)
    (ops : List Operation) (op : Operation) :
    let m := ((Interpreter.ofDefinition d e).performAll h ops).1
    let k := ((Interpreter.ofDefinition d e).performAll h ops).2
    ∃ entries : List (Entry σ), m.Makes k op entries
      ∧ (op ≠ .report → entered (m.callsOf k op) = entries.map (·.target))
      ∧ ∀ x ∈ entries, ∃ (before : List HostCall) (attempts : List Attempt),
        (attempts.map (·.transition) = (List.range d.transitions.size).filter fun i =>
            d.transitions[i]?.any fun t => t.source == x.target && t.trigger.isDelayed)
          ∧ (∀ y ∈ attempts, y.Fits d (x.arrival d e).vars)
          ∧ x.calls d e = before ++ .notice (.state x.target) :: attempts.flatMap Attempt.calls
          ∧ (∀ c ∈ before, (∃ id, c = .cancel id) ∨ ∃ n, c = .notice n ∧ ∀ s, n ≠ .state s)
          ∧ (x.after d e).timers = attempts.filterMap Attempt.timer? := by
  intro m k
  obtain ⟨entries, hmakes, hentered, hvalid⟩ := exists_entries d e h ops op
  refine ⟨entries, hmakes, hentered, fun x hx => ?_⟩
  obtain ⟨attempts, hmap, hfits, hcalls, hafter⟩ := exists_attempts e x (hvalid x hx).declares
  rw [Definition.delayedFrom, Running.filter_outgoing] at hmap
  refine ⟨_, attempts, hmap, hfits, hcalls, fun c hc => ?_, by rw [hafter]⟩
  rcases List.mem_append.1 hc with hc | hc
  · obtain ⟨p, -, rfl⟩ := List.mem_map.1 hc
    exact .inl ⟨p.id, rfl⟩
  · exact .inr (notice_of_mem_actionCalls hc)

end RemoteAutomaton.Automaton
