import Mathlib.Data.List.Perm.Subperm
import RemoteAutomaton.CommandLine.Blink
import RemoteAutomaton.Proofs.Opening

/-!
# How operations end

The states that an operation enters form a path: no state comes twice, each follows from the one
before by an immediate transition, and the automaton is left in the last one
(`path_of_operation`).

A resolution ends because an action has asked for the end, because no immediate transition is
possible any more, or because the one that is possible leads back into the path
(`resolution_outcome`).
-/

namespace RemoteAutomaton.Automaton

open Machine (Definition Transition)

namespace Opening

variable {σ : Type} [Host σ] {d : Definition} {e : Evaluator} {o : Opening} {t : Traced σ}
  {rounds : List Round}

def Enters (d : Definition) (e : Evaluator) (x : String) : Opening → Prop
  | entry _ target => target = x
  | selection a s => ∃ u, Takes d e a s u ∧ u.target = x

theorem distinct (hc : o.Course d e t rounds) : (o.visited ++ path rounds).Nodup := by
  obtain ⟨hnodup, hnew⟩ := hc.distinct
  cases o with
  | entry a target => exact List.nodup_cons.2 ⟨fun hmem => hnew _ hmem List.mem_cons_self, hnodup⟩
  | selection => exact hnodup

theorem chain (hc : o.Course d e t rounds) : (o.visited ++ path rounds).IsChain (Leads d) := by
  cases o with
  | entry a target =>
    have hchain := hc.chain.2 rfl
    rwa [begin, Running.current_enter] at hchain
  | selection => exact hc.chain.1

theorem head_iff (hc : o.Course d e t rounds) (ho : ∀ a s, o = .selection a s → a.Active)
    (x : String) : (o.visited ++ path rounds).head? = some x ↔ o.Enters d e x := by
  cases o with
  | entry a target => simp [visited, Enters]
  | selection a s =>
    rw [visited, List.nil_append, hc.head_iff]
    exact and_iff_right (ho a s rfl)

theorem current_eq (hc : o.Course d e t rounds) : (o.resolve d e t).2.1.current
    = (o.visited ++ path rounds).getLast?.getD o.automaton.current := by
  rw [hc.current_eq]
  cases o with
  | entry a target =>
    rw [begin, Running.current_enter, visited, List.singleton_append, List.getLast?_cons]
    rfl
  | selection => rfl

end Opening

section Operations

variable {σ : Type} [Host σ] {d : Definition} {e : Evaluator} {m : Interpreter} {op : Operation}
  {o : Opening} {h : σ} {t : Traced σ} {rounds : List Round}

theorem Opening.entered_append (h : σ) :
    entered (o.calls d e h ++ rounds.flatMap Round.calls) = o.visited ++ path rounds := by
  rw [Automaton.entered_append, Opening.entered_calls, path]

theorem Opening.declared (ho : m.opening? op = some o)
    (hc : o.Course m.definition m.evaluator t rounds) :
    ∀ x ∈ o.visited ++ path rounds, x ∈ m.definition.stateNames := by
  cases o with
  | entry a target => exact List.forall_mem_cons.2 ⟨entry_of_opening ho, hc.declared⟩
  | selection => exact hc.declared

theorem current_of_opening (hplaced : ∀ a, m.running = some a → a.Placed m.definition)
    (ho : m.opening? op = some o) (hc : o.Course m.definition m.evaluator t rounds) :
    (m.perform t op).interpreter.current? = (o.visited ++ path rounds).getLast?.or m.current? := by
  have hcurrent : (m.perform t op).interpreter.current?
      = some ((o.visited ++ path rounds).getLast?.getD o.automaton.current) := by
    rw [perform_of_opening hplaced ho, ← Opening.current_eq hc]
    rfl
  rw [hcurrent]
  cases hlast : (o.visited ++ path rounds).getLast? with
  | some x => rfl
  | none =>
    cases o with
    | entry => simp [Opening.visited] at hlast
    | selection a s => exact (selection_of_opening ho).2.symm

end Operations

/-- Throughout a run, the states that an operation enters are declared and all different.  The first
is the one that the operation opens with, or that the first selection leads to; each of the others
follows from the one before by an immediate transition; and the automaton is left in the last one,
or where it was. -/
theorem path_of_operation {σ : Type} [Host σ] (d : Definition) (e : Evaluator) (h : σ)
    (ops : List Operation) (op : Operation) (hop : op ≠ .report) :
    let m := ((Interpreter.ofDefinition d e).performAll h ops).1
    let k := ((Interpreter.ofDefinition d e).performAll h ops).2
    let states := entered (m.callsOf k op)
    states.Nodup ∧ (∀ x ∈ states, x ∈ d.stateNames) ∧ states.length ≤ d.stateNames.length
      ∧ (∀ x, states.head? = some x ↔ ∃ o ∈ m.opening? op, o.Enters d e x)
      ∧ states.IsChain (Leads d)
      ∧ (m.perform k op).interpreter.current? = states.getLast?.or m.current? := by
  intro m k states
  obtain ⟨hd, he, hplaced, -⟩ := reached_performAll d e h ops
  have hfits : states.Nodup → (∀ x ∈ states, x ∈ d.stateNames) →
      states.length ≤ d.stateNames.length :=
    fun hnodup hsub => (hnodup.subperm hsub).length_le
  cases ho : m.opening? op with
  | none =>
    obtain ⟨hnone, hcurrent⟩ := entered_of_idle (h := k) ho hop
    have hstates : states = [] := hnone
    rw [hstates, hcurrent]
    simp
  | some o =>
    obtain ⟨rounds, hc, hcalls⟩ := exists_course k hplaced ho
    have hstates : states = o.visited ++ path rounds := by
      rw [← Opening.entered_append (d := m.definition) (e := m.evaluator) k, ← hcalls]
    have hcurrent := current_of_opening hplaced ho hc
    rw [(Interpreter.perform_traced []).1] at hcurrent
    have hdeclared := Opening.declared ho hc
    rw [hd] at hdeclared
    rw [hd, he] at hc
    rw [hstates] at hfits ⊢
    refine ⟨Opening.distinct hc, hdeclared, hfits (Opening.distinct hc) hdeclared, fun x => ?_,
      Opening.chain hc, hcurrent⟩
    rw [Opening.head_iff hc fun a s heq => (selection_of_opening (heq ▸ ho)).1]
    simp

open CommandLine in
theorem path_of_operation_blink :
    let m := Interpreter.ofDefinition Blink.definition Blink.registry.evaluator
    let after := m.performAll ({} : Recorder) [.start, .input "start" "1"]
    let op : Operation := .fire ⟨0, 1⟩
    let states := entered (after.1.callsOf after.2 op)
    op ≠ .report ∧ states = ["Blinking"]
      ∧ (after.1.perform after.2 op).interpreter.current? = some "Blinking"
      ∧ ∃ o ∈ after.1.opening? op,
        o.Enters Blink.definition Blink.registry.evaluator "Blinking" := by
  intro m after op states
  have hop : op ≠ .report := by decide
  have hstates : states = ["Blinking"] := by decide +kernel
  obtain ⟨-, -, -, hhead, -, hcurrent⟩ := path_of_operation Blink.definition
    Blink.registry.evaluator ({} : Recorder) [.start, .input "start" "1"] op hop
  refine ⟨hop, hstates, hcurrent.trans ?_, (hhead "Blinking").1 ?_⟩
  · change states.getLast?.or _ = _
    rw [hstates]
    rfl
  · change states.head? = _
    rw [hstates]
    rfl

/-! ### Outcomes -/

section Outcomes

variable {σ : Type} [Host σ] {d : Definition} {e : Evaluator} {m : Interpreter} {op : Operation}
  {o : Opening} {h : σ} {t : Traced σ} {rounds : List Round}

/-- The operations that resolve, where `states` are those that it enters: the start of an automaton
with an initial state, and of one whose end has not been asked for a step without an event, a move
to a declared state, and whatever else enters a state. -/
def Interpreter.Resolves (m : Interpreter) (states : List String) : Operation → Prop
  | .start => m.running = none ∧ m.definition.initial ≠ none
  | .step none => m.isStarted ∧ ¬ m.isTerminating
  | .moveTo target => m.isStarted ∧ ¬ m.isTerminating ∧ target ∈ m.definition.stateNames
  | .step (some _) | .input .. | .fire _ => m.isStarted ∧ ¬ m.isTerminating ∧ states ≠ []
  | .report | .terminate => False

/-- The ways in which a resolution ends. -/
inductive Ending where
  /-- An action has asked for the end. -/
  | halted
  /-- No immediate transition is possible. -/
  | settled
  /-- The immediate transition that is possible leads back. -/
  | cycled (target : String)

/-- What is left at an end: the calls of the host, the outcome of the operation, and in it the
automaton. -/
def Ending.Holds (d : Definition) (e : Evaluator) (op : Operation) (calls : List HostCall)
    (out : Outcome σ (Option Bool)) (a : Running) : Ending → Prop
  | halted => a.terminating ∧ out.result = .ok (op.answer a)
    ∧ ∃ x ∈ (entered calls).getLast?, ∃ a₀, LastEntry d e a₀ x a ⟨out.host, calls.reverse⟩
      ∧ a₀.Asks d e x
  | settled => ¬ a.terminating ∧ out.result = .ok (op.answer a)
    ∧ ∀ i ∈ a.candidates d .immediate, a.answer d e .immediate i ≠ .ok true
  | cycled target => ¬ a.terminating ∧ out.result = .error (.cycleDetected target)
    ∧ target ∈ entered calls ∧ (∃ u, Takes d e a .immediate u ∧ u.target = target)
    ∧ ∃ x ∈ (entered calls).getLast?, ∃ a₀, LastEntry d e a₀ x a ⟨out.host, calls.reverse⟩

theorem Ending.unique {calls : List HostCall} {out : Outcome σ (Option Bool)} {a : Running}
    {x y : Ending} (hx : x.Holds d e op calls out a) (hy : y.Holds d e op calls out a) : y = x := by
  cases x with
  | halted =>
    cases y with
    | halted => rfl
    | settled | cycled => exact absurd hx.1 hy.1
  | settled =>
    cases y with
    | halted => exact absurd hy.1 hx.1
    | settled => rfl
    | cycled => exact absurd (hx.2.1.symm.trans hy.2.1) (by simp)
  | cycled target =>
    cases y with
    | halted => exact absurd hy.1 hx.1
    | settled => exact absurd (hx.2.1.symm.trans hy.2.1) (by simp)
    | cycled target' =>
      cases hx.2.1.symm.trans hy.2.1
      rfl

theorem active_of_not_terminating (halive : ∀ a, m.running = some a → ¬ a.terminating → a.alive)
    (hstarted : m.isStarted) (hend : ¬ m.isTerminating) : ∃ a, m.running = some a ∧ a.Active := by
  obtain ⟨a, hm⟩ := Option.isSome_iff_exists.1 hstarted
  have ha : ¬ a.terminating := by simpa [Interpreter.isTerminating, hm] using hend
  exact ⟨a, hm, halive a hm ha, ha⟩

theorem opening_of_resolves (halive : ∀ a, m.running = some a → ¬ a.terminating → a.alive)
    (hop : m.Resolves (entered (m.callsOf h op)) op) :
    ∃ o, m.opening? op = some o ∧ o.automaton.Active
      ∧ (o.stimulus = .immediate ∨ entered (m.callsOf h op) ≠ []) := by
  cases op with
  | start =>
    obtain ⟨hm, hinit⟩ := hop
    obtain ⟨s, hs⟩ := Option.ne_none_iff_exists'.1 hinit
    exact ⟨.entry (.initially m.definition s) s, by simp [Interpreter.opening?, hm, hs],
      ⟨rfl, by simp [Opening.automaton, Running.initially]⟩, .inl rfl⟩
  | moveTo target =>
    obtain ⟨hstarted, hend, ht⟩ := hop
    obtain ⟨a, hm, ha⟩ := active_of_not_terminating halive hstarted hend
    exact ⟨.entry a target, by simp [Interpreter.opening?, hm, ht], ha, .inl rfl⟩
  | step event =>
    rcases event with _ | ⟨name, value⟩
    · obtain ⟨a, hm, ha⟩ := active_of_not_terminating halive hop.1 hop.2
      exact ⟨.selection a .immediate, by simp [Interpreter.opening?, hm, ha, Stimulus.ofEvent?],
        ha, .inl rfl⟩
    · obtain ⟨hstarted, hend, hne⟩ := hop
      obtain ⟨a, hm, ha⟩ := active_of_not_terminating halive hstarted hend
      exact ⟨.selection a (.event name value),
        by simp [Interpreter.opening?, hm, ha, Stimulus.ofEvent?], ha, .inr hne⟩
  | input name value =>
    obtain ⟨hstarted, hend, hne⟩ := hop
    obtain ⟨a, hm, ha⟩ := active_of_not_terminating halive hstarted hend
    exact ⟨.selection { a with inputs := a.inputs.set name value } (.event name value),
      by simp [Interpreter.opening?, hm, ha], ha, .inr hne⟩
  | fire id =>
    obtain ⟨hstarted, hend, hne⟩ := hop
    obtain ⟨a, hm, ha⟩ := active_of_not_terminating halive hstarted hend
    cases hp : a.timers.find? (·.id = id) with
    | none =>
      have hidle : m.opening? (.fire id) = none := by simp [Interpreter.opening?, hm, hp]
      exact absurd (entered_of_idle hidle (by simp)).1 hne
    | some p =>
      exact ⟨.selection (a.release id) (.expiry p.transition),
        by simp [Interpreter.opening?, hm, ha, hp], ha, .inr hne⟩
  | report => exact hop.elim
  | terminate => exact hop.elim

namespace Opening

theorem of_path_eq_nil (hc : o.Course d e t rounds) (hpath : o.visited ++ path rounds = []) :
    (o.resolve d e t).2.1 = o.automaton := by
  cases o with
  | entry => cases hpath
  | selection => exact (hc.of_path_eq_nil hpath).1

theorem lastEntry (hc : o.Course d e t rounds) (ho : o.automaton.Active) :
    ∀ x ∈ (o.visited ++ path rounds).getLast?,
      ∃ a₀, LastEntry d e a₀ x (o.resolve d e t).2.1 (o.resolve d e t).2.2 := by
  cases o with
  | entry a target =>
    rw [visited, List.singleton_append, List.getLast?_cons]
    intro x hx
    cases hx
    cases hlast : (path rounds).getLast? with
    | some x => exact hc.lastEntry x hlast
    | none =>
      obtain ⟨hsame, failures, hhost⟩ := hc.of_path_eq_nil (List.getLast?_eq_none_iff.1 hlast)
      exact ⟨a, ho.2, t, failures, hsame, hhost⟩
  | selection => exact hc.lastEntry

theorem alive_eq (hc : o.Course d e t rounds) :
    (o.resolve d e t).2.1.alive = o.automaton.alive := by
  rw [hc.alive_eq]
  cases o with
  | entry => exact Running.alive_enter
  | selection => rfl

end Opening

/-- Where a resolution opens, the outcome on a host is that on the host with its calls. -/
theorem perform_eq_resolve (h : σ) (hplaced : ∀ a, m.running = some a → a.Placed m.definition)
    (ho : m.opening? op = some o) {out : Except Error Unit × Running × Traced σ}
    (hout : o.resolve m.definition m.evaluator ⟨h, []⟩ = out) :
    (m.perform h op).result = out.1.map (fun _ => op.answer out.2.1)
      ∧ (m.perform h op).interpreter = m.withRunning out.2.1
      ∧ (⟨(m.perform h op).host, (m.callsOf h op).reverse⟩ : Traced σ) = out.2.2 := by
  have htraced := perform_of_opening (h := (⟨h, []⟩ : Traced σ)) hplaced ho
  rw [hout] at htraced
  obtain ⟨hresult, hsame, hhost⟩ :=
    simulation_host.perform_eq (m := m) op (rfl : (⟨h, []⟩ : Traced σ).host = h)
  rw [htraced] at hresult hsame hhost
  have hcalls : m.callsOf h op = out.2.2.calls.reverse := by
    rw [Interpreter.callsOf, htraced]
    rfl
  refine ⟨hresult.symm, hsame.symm, ?_⟩
  rw [hcalls, List.reverse_reverse, ← hhost]
  rfl

/-- The last selection of an operation that resolves is made for the state that it ends in. -/
theorem stimulus_of_resolves (hentered : entered (m.callsOf h op) = o.visited ++ path rounds)
    (hop : o.stimulus = .immediate ∨ entered (m.callsOf h op) ≠ []) :
    (if path rounds = [] then o.stimulus else .immediate) = .immediate := by
  split
  · rename_i hpath
    rcases hop with hop | hop
    · exact hop
    · rw [hentered, hpath, List.append_nil] at hop
      cases o with
      | entry => rfl
      | selection => exact absurd rfl hop
  · rfl

end Outcomes

/-- Throughout a run, an operation that resolves ends in exactly one way: an action has asked for
the end, or no immediate transition is possible with the values that the automaton has now, or the
one that is possible leads back to a state entered before in the same operation.  In the last case
the automaton stays as the last entry has left it. -/
theorem resolution_outcome {σ : Type} [Host σ] (d : Definition) (e : Evaluator) (h : σ)
    (ops : List Operation) (op : Operation) {m : Interpreter} {k : σ}
    (hm : (Interpreter.ofDefinition d e).performAll h ops = (m, k))
    (hop : m.Resolves (entered (m.callsOf k op)) op) :
    ∃ a, (m.perform k op).interpreter.running = some a
      ∧ ∃! x : Ending, x.Holds d e op (m.callsOf k op) (m.perform k op) a := by
  have hreached := reached_performAll d e h ops
  rw [hm] at hreached
  obtain ⟨hd, he, hplaced, halive⟩ := hreached
  obtain ⟨o, ho, hactive, hstimulus⟩ := opening_of_resolves halive hop
  obtain ⟨rounds, hc, hcalls⟩ := exists_course k hplaced ho
  obtain ⟨hresult, hinterpreter, hhost⟩ := perform_eq_resolve k hplaced ho rfl
  have hentered : entered (m.callsOf k op) = o.visited ++ path rounds := by
    rw [hcalls, Opening.entered_append]
  have hlast := Opening.lastEntry hc hactive
  have hends := hc.ends
  have hbare := Opening.of_path_eq_nil hc
  have hkept := Opening.alive_eq hc
  rw [stimulus_of_resolves hentered hstimulus] at hends
  rw [← hentered] at hlast hends hbare
  rw [← hhost] at hlast
  set b := (o.resolve m.definition m.evaluator (⟨k, []⟩ : Traced σ)).2.1
  refine ⟨b, by rw [hinterpreter]; rfl, ?_⟩
  suffices hsome : ∃ x : Ending, x.Holds d e op (m.callsOf k op) (m.perform k op) b by
    obtain ⟨x, hx⟩ := hsome
    exact ⟨x, hx, fun y hy => Ending.unique hx hy⟩
  rw [← hd, ← he]
  rcases hends with ⟨hb, hok⟩ | ⟨hb, hok, failures, hs⟩ | ⟨hb, u, hu, hmem, hcycle⟩
  · have hend : b.terminating := by
      by_contra hnot
      exact hb ⟨hkept.trans hactive.1, hnot⟩
    rw [hok] at hresult
    obtain ⟨x, hx⟩ : ∃ x, (entered (m.callsOf k op)).getLast? = some x := by
      refine Option.ne_none_iff_exists'.1 fun hnone => hactive.2 ?_
      rw [← hbare (List.getLast?_eq_none_iff.1 hnone)]
      exact hend
    obtain ⟨a₀, hentry⟩ := hlast x hx
    obtain ⟨hbefore, t₀, failures, heq, -⟩ := id hentry
    have hasks : a₀.Asks m.definition m.evaluator x := by
      rw [heq] at hend
      exact (Running.terminating_enter.1 hend).resolve_left hbefore
    exact ⟨.halted, hend, hresult, x, hx, a₀, hentry, hasks⟩
  · rw [hok] at hresult
    exact ⟨.settled, hb.2, hresult, hs.not_of_none rfl⟩
  · rw [hcycle] at hresult
    obtain ⟨x, hx⟩ := Option.ne_none_iff_exists'.1
      (mt List.getLast?_eq_none_iff.1 (List.ne_nil_of_mem hmem))
    exact ⟨.cycled u.target, hb.2, hresult, hmem, ⟨u, hu, rfl⟩, x, hx, hlast x hx⟩

open CommandLine in
theorem resolution_outcome_blink :
    let after := (Interpreter.ofDefinition Blink.definition Blink.registry.evaluator).performAll
      ({} : Recorder) [.start, .input "start" "1"]
    let op : Operation := .fire ⟨0, 1⟩
    after.1.Resolves (entered (after.1.callsOf after.2 op)) op
      ∧ ∃ a, (after.1.perform after.2 op).interpreter.running = some a
        ∧ ∃! x : Ending, x.Holds Blink.definition Blink.registry.evaluator op
          (after.1.callsOf after.2 op) (after.1.perform after.2 op) a := by
  intro after op
  have hstarted : after.1.isStarted = true := by decide +kernel
  have hend : after.1.isTerminating = false := by decide +kernel
  have hstates : entered (after.1.callsOf after.2 op) = ["Blinking"] := by decide +kernel
  have hop : after.1.Resolves (entered (after.1.callsOf after.2 op)) op := by
    rw [hstates]
    exact ⟨hstarted, by simp [hend], List.cons_ne_nil _ _⟩
  exact ⟨hop, resolution_outcome Blink.definition Blink.registry.evaluator ({} : Recorder)
    [.start, .input "start" "1"] op rfl hop⟩

end RemoteAutomaton.Automaton
