import RemoteAutomaton.Proofs.Attempts

/-!
# What effects leave

The effects that an entry action asks for are applied in order, each to the values that those before
it have left, so a name has the value of the last effect that names it, or the value that it had
(`get?_applyAll`).  What an entry tells and leaves then depends only on the list that the action
returns, and an action that fails is one that returns no effects (`Entry.Applies`).

Since effects give values to declared names only, the outputs that have a value are declared
throughout a run, as the variables are.
-/

namespace RemoteAutomaton.Automaton

open Machine (Definition)

namespace Effect

/-- The value that an effect gives to a variable, if that is a declared one. -/
def assigned? (d : Definition) (name : String) : Effect → Option String
  | assign other value => if other = name ∧ name ∈ d.variableNames then some value else none
  | write .. | log _ | terminate => none

/-- The value that an effect gives to an output, if that is a declared one. -/
def written? (d : Definition) (name : String) : Effect → Option String
  | write other value => if other = name ∧ name ∈ d.outputs then some value else none
  | assign .. | log _ | terminate => none

end Effect

/-- Between the cancellations and the report of the state an entry makes these calls, and it applies
these effects. -/
structure Entry.Applies {σ : Type} [Host σ] (d : Definition) (e : Evaluator) (x : Entry σ)
    (reports : List HostCall) (effects : List Effect) : Prop where
  calls : ∃ later, x.calls d e = (x.automaton.timers.map fun p => .cancel p.id) ++ reports
      ++ .notice (.state x.target) :: later
    ∧ ∀ c ∈ later, (∃ ms s r, c = .schedule ms s r) ∨ ∃ y, c = .notice (.failure y)
  vars : ∀ name, (x.after d e).vars.get? name
    = (effects.filterMap (·.assigned? d name)).getLast?.or (x.automaton.vars.get? name)
  outputs : ∀ name, (x.after d e).outputs.get? name
    = (effects.filterMap (·.written? d name)).getLast?.or (x.automaton.outputs.get? name)
  terminating : (x.after d e).terminating = true
    ↔ x.automaton.terminating = true ∨ Effect.terminate ∈ effects
  alive : (x.after d e).alive = x.automaton.alive
  inputs : (x.after d e).inputs = x.automaton.inputs
  current : (x.after d e).current = x.target

section

variable {σ : Type} [Host σ] {d : Definition} {e : Evaluator} {a : Running} {h : σ}
  {target name : String}

theorem get?_vars_apply (x : Effect) :
    (a.apply d h x).1.vars.get? name = (x.assigned? d name).or (a.vars.get? name) := by
  cases x with
  | assign other value =>
    simp only [Running.apply, Effect.assigned?, Definition.hasVariable_iff]
    by_cases hname : other = name
    · subst hname
      split_ifs <;> simp_all
    · split_ifs <;> simp_all [Ne.symm hname]
  | write => simp only [Running.apply]; split <;> rfl
  | log | terminate => rfl

theorem get?_outputs_apply (x : Effect) :
    (a.apply d h x).1.outputs.get? name = (x.written? d name).or (a.outputs.get? name) := by
  cases x with
  | write other value =>
    simp only [Running.apply, Effect.written?, Definition.hasOutput_iff]
    by_cases hname : other = name
    · subst hname
      split_ifs <;> simp_all
    · split_ifs <;> simp_all [Ne.symm hname]
  | assign => simp only [Running.apply]; split <;> rfl
  | log | terminate => rfl

/-- What every effect writes over, a list of effects leaves with the last value written. -/
theorem get?_applyAll {f : Running → Values} {g : Effect → Option String}
    (hstep : ∀ {a : Running} {h : σ} (x : Effect),
      (f (a.apply d h x).1).get? name = (g x).or ((f a).get? name)) :
    ∀ (l : List Effect) (a : Running) (h : σ),
      (f (a.applyAll d h l).1).get? name = (l.filterMap g).getLast?.or ((f a).get? name)
  | [], _, _ => rfl
  | x :: rest, a, h => by
    rw [Running.applyAll, get?_applyAll hstep rest, hstep, Values.getLast?_filterMap_cons_or]

/-! ### Entries -/

theorem get?_vars_enter : (a.enter d e h target).1.vars.get? name
    = ((a.actionEffects d e target).filterMap (·.assigned? d name)).getLast?.or
        (a.vars.get? name) := by
  obtain ⟨ts, hts, -⟩ := Running.enter_fst d e a h target
  rw [hts, Running.arrive_fst]
  exact get?_applyAll (f := (·.vars)) get?_vars_apply _ _ _

theorem get?_outputs_enter : (a.enter d e h target).1.outputs.get? name
    = ((a.actionEffects d e target).filterMap (·.written? d name)).getLast?.or
        (a.outputs.get? name) := by
  obtain ⟨ts, hts, -⟩ := Running.enter_fst d e a h target
  rw [hts, Running.arrive_fst]
  exact get?_applyAll (f := (·.outputs)) get?_outputs_apply _ _ _

theorem bindings_enter_of_no_effects (hnone : a.actionEffects d e target = []) :
    (a.enter d e h target).1.bindings = a.bindings := by
  obtain ⟨ts, hts, -⟩ := Running.enter_fst d e a h target
  rw [hts, Running.arrive_fst, hnone]
  rfl

theorem Attempt.schedule_or_failure {y : Attempt} {c : HostCall} (hc : c ∈ y.calls) :
    (∃ ms s r, c = .schedule ms s r) ∨ ∃ x, c = .notice (.failure x) := by
  cases y with
  | granted i ms s id =>
    obtain rfl := List.mem_singleton.1 hc
    exact .inl ⟨_, _, _, rfl⟩
  | refused i ms s x =>
    rcases List.mem_cons.1 hc with rfl | hc
    · exact .inl ⟨_, _, _, rfl⟩
    · exact .inr ⟨x, List.mem_singleton.1 hc⟩
  | unasked i reason => exact .inr ⟨_, List.mem_singleton.1 hc⟩

/-- An entry makes the calls of its action and applies the effects that the action asks for. -/
theorem Entry.applies (e : Evaluator) (x : Entry σ) (hx : x.automaton.Declares d) :
    x.Applies d e (x.automaton.actionCalls d e x.target)
      (x.automaton.actionEffects d e x.target) where
  calls := by
    obtain ⟨attempts, -, -, hcalls, -⟩ := exists_attempts e x hx
    refine ⟨_, hcalls, fun c hc => ?_⟩
    obtain ⟨y, -, hy⟩ := List.mem_flatMap.1 hc
    exact y.schedule_or_failure hy
  vars _ := get?_vars_enter
  outputs _ := get?_outputs_enter
  terminating := Running.terminating_enter.trans (or_congr_right Running.asks_iff)
  alive := Running.alive_enter
  inputs := Running.inputs_enter
  current := Running.current_enter

/-! ### Outputs over a run -/

omit [Host σ] in
theorem Effect.mem_outputs_of_written? {x : Effect} {value : String}
    (hx : x.written? d name = some value) : name ∈ d.outputs := by
  cases x with
  | write other v =>
    rw [Effect.written?] at hx
    split_ifs at hx with hname
    exact hname.2
  | assign | log | terminate => cases hx

/-- The outputs that have a value are declared. -/
def Running.OutputsDeclared (d : Definition) (a : Running) : Prop :=
  ∀ name value, a.outputs.get? name = some value → name ∈ d.outputs

theorem Running.stable_outputsDeclared :
    Running.Stable d e fun a (_ : σ) => a.OutputsDeclared d where
  guardFailed _ _ ha := ha
  enter _ ha name value hvalue := by
    rw [get?_outputs_enter] at hvalue
    rcases Option.or_eq_some_iff.1 hvalue with hlast | ⟨-, hbefore⟩
    · obtain ⟨x, -, hx⟩ := List.mem_filterMap.1 (List.mem_of_getLast? hlast)
      exact x.mem_outputs_of_written? hx
    · exact ha name value hbefore

theorem Running.OutputsDeclared.prepare {op : Operation} (ha : a.OutputsDeclared d) :
    (op.prepare d a h).1.OutputsDeclared d := by
  rw [OutputsDeclared, values_prepare.2]
  exact ha

theorem outputsDeclared_performAll {m : Interpreter} (ops : List Operation)
    (hm : m.running = none) :
    ∀ a, (m.performAll h ops).1.running = some a → a.OutputsDeclared m.definition :=
  Interpreter.invariant_performAll (fun _ => Running.stable_outputsDeclared)
    (fun _ _ => nofun) (fun _ _ _ ha => ha.prepare) ops rfl (by simp [hm])

end

/-- Throughout a run, an entry of a state with an action makes one call for each effect that the
action returns, in order and before it reports the state, save that asking for the end makes none.
An effect for a name that is not declared makes the report of that and has no other consequence.  A
name has the value of the last effect for it afterwards, or the value that it had.  If the action
fails, the host hears of that instead, and nothing else is changed.  So the variables that have a
value are always the declared ones, and the outputs that have one are declared. -/
theorem effects_applied {σ : Type} [Host σ] (d : Definition) (e : Evaluator) (h : σ)
    (ops : List Operation) (op : Operation) :
    let m := ((Interpreter.ofDefinition d e).performAll h ops).1
    let k := ((Interpreter.ofDefinition d e).performAll h ops).2
    (∃ entries : List (Entry σ), m.Makes k op entries
        ∧ (op ≠ .report → entered (m.callsOf k op) = entries.map (·.target))
        ∧ ∀ x ∈ entries, ∀ action, d.actionOf? x.target = some action →
          match e.action action x.automaton.bindings with
          | .ok effects => x.Applies d e (effects.filterMap (·.call? d)) effects
          | .error reason =>
            x.Applies d e [.notice (.failure (.actionFailed action reason))] []
              ∧ (x.after d e).bindings = x.automaton.bindings)
      ∧ ∀ a, m.running = some a → a.vars.names = d.variableNames ∧ a.outputs.names ⊆ d.outputs := by
  intro m k
  obtain ⟨entries, hmakes, hentered, hvalid⟩ := exists_entries d e h ops op
  refine ⟨⟨entries, hmakes, hentered, fun x hx action haction => ?_⟩, fun a ha => ⟨?_, ?_⟩⟩
  · have happlies := x.applies e (hvalid x hx).declares
    simp only [Running.actionCalls, Running.actionEffects, haction] at happlies
    split
    · rename_i effects hok
      rwa [hok] at happlies
    · rename_i reason hfailed
      rw [hfailed] at happlies
      refine ⟨happlies, bindings_enter_of_no_effects ?_⟩
      simp only [Running.actionEffects, haction, hfailed]
  · exact (valid_performAll ops rfl a ha).declares
  · intro name hname
    obtain ⟨value, hvalue⟩ := Values.exists_get? hname
    exact outputsDeclared_performAll ops rfl a ha name value hvalue

end RemoteAutomaton.Automaton
