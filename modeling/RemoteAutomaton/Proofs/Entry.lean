import RemoteAutomaton.Automaton.Interpreter

/-!
# Entering a state

An entry goes through four phases: the timers of the state before it are cancelled and the entry
action runs (`arrive`), the state is reported and the delayed transitions are scheduled
(`enter_eq`).  An action changes the automaton by its effects only (`arrive_fst`), so nothing but
variables, outputs and whether the end has been asked for, and scheduling changes only the timers.
-/

namespace RemoteAutomaton.Automaton

open Machine (Definition Transition)

namespace Running

variable {σ : Type} [Host σ] {d : Definition} {e : Evaluator} {a : Running} {h : σ}

/-- The automaton in another state, whose timers have not been scheduled. -/
def relocate (a : Running) (target : String) : Running := { a with current := target, timers := [] }

/-- Runs the entry action of a state, if it has one. -/
def runEntry (d : Definition) (e : Evaluator) (a : Running) (h : σ) (target : String) :
    Running × σ :=
  match d.actionOf? target with
  | some action => a.runAction d e h action
  | none => (a, h)

/-- Leaves the current state for another: cancels the timers and runs the entry action. -/
def arrive (d : Definition) (e : Evaluator) (a : Running) (h : σ) (target : String) : Running × σ :=
  (a.relocate target).runEntry d e (cancelAll h a.timers) target

theorem enter_eq (d : Definition) (e : Evaluator) (a : Running) (h : σ) (target : String) :
    a.enter d e h target
      = (a.arrive d e h target).1.scheduleAll d
          (Host.notify (a.arrive d e h target).2 (.state target)) (d.delayedFrom target) :=
  rfl

/-- The effects that the entry action of a state asks for.  One that fails asks for none. -/
def actionEffects (d : Definition) (e : Evaluator) (a : Running) (target : String) : List Effect :=
  match d.actionOf? target with
  | none => []
  | some action =>
    match e.action action a.bindings with
    | .ok effects => effects
    | .error _ => []

/-- An action changes the automaton by its effects only. -/
theorem arrive_fst (d : Definition) (e : Evaluator) (a : Running) (h : σ) (target : String) :
    (a.arrive d e h target).1
      = ((a.relocate target).applyAll d (cancelAll h a.timers) (a.actionEffects d e target)).1 := by
  have hrelocated : (a.relocate target).bindings = a.bindings := rfl
  rw [arrive, runEntry, actionEffects]
  rcases d.actionOf? target with _ | action
  · rfl
  · simp only [runAction, hrelocated]
    rcases e.action action a.bindings with reason | effects
    · rfl
    · rfl

/-- Two automata that differ at most in what an action can change. -/
structure SameButEffects (a b : Running) : Prop where
  current : b.current = a.current
  inputs : b.inputs = a.inputs
  alive : b.alive = a.alive
  timers : b.timers = a.timers

theorem sameButEffects_apply (x : Effect) : SameButEffects a (a.apply d h x).1 := by
  cases x <;> simp only [apply]
  · split <;> constructor <;> rfl
  · split <;> constructor <;> rfl
  · constructor <;> rfl
  · constructor <;> rfl

theorem sameButEffects_applyAll : ∀ (l : List Effect) (a : Running) (h : σ),
    SameButEffects a (a.applyAll d h l).1
  | [], _, _ => ⟨rfl, rfl, rfl, rfl⟩
  | x :: rest, a, h => by
    have hx : SameButEffects a (a.apply d h x).1 := sameButEffects_apply x
    have hrest := sameButEffects_applyAll rest (a.apply d h x).1 (a.apply d h x).2
    exact ⟨hrest.current.trans hx.current, hrest.inputs.trans hx.inputs,
      hrest.alive.trans hx.alive, hrest.timers.trans hx.timers⟩

theorem sameButEffects_arrive {target : String} :
    SameButEffects (a.relocate target) (a.arrive d e h target).1 := by
  rw [arrive_fst]
  exact sameButEffects_applyAll _ _ _

/-- A delayed transition of a machine waits for some time. -/
theorem resolve_pos {t : Transition} {delay : Machine.Delay} {ms : Nat} (ht : t ∈ d.transitions)
    (hd : t.trigger = .delayed delay) (h : a.resolve delay = .ok ms) : 0 < ms := by
  have hfit := (d.transitions_fit t ht).delay_fits delay hd
  cases delay with
  | fixed n =>
    cases h
    exact Nat.pos_of_ne_zero hfit
  | held name =>
    simp only [resolve] at h
    split at h
    · cases h
    · split at h
      · cases h
      · split at h
        · cases h
        · cases h
          omega

/-- Scheduling adds timers for some of the transitions, in order, and changes nothing else. -/
theorem scheduleAll_fst : ∀ (l : List Nat) (a : Running) (h : σ), ∃ ts : List Pending,
    (a.scheduleAll d h l).1 = { a with timers := a.timers ++ ts }
      ∧ (ts.map (·.transition)).Sublist l
  | [], a, h => ⟨[], by simp [scheduleAll], .slnil⟩
  | i :: rest, a, h => by
    have hskip : ∀ h', ∃ ts : List Pending,
        (a.scheduleAll d h' rest).1 = { a with timers := a.timers ++ ts }
          ∧ (ts.map (·.transition)).Sublist (i :: rest) := fun h' => by
      obtain ⟨ts, hts, hsub⟩ := scheduleAll_fst rest a h'
      exact ⟨ts, hts, hsub.cons i⟩
    simp only [scheduleAll]
    split
    · exact hskip h
    · split
      · split
        · rename_i id h' _
          obtain ⟨ts, hts, hsub⟩ :=
            scheduleAll_fst rest { a with timers := a.timers ++ [⟨id, i⟩] } h'
          refine ⟨⟨id, i⟩ :: ts, ?_, hsub.cons_cons i⟩
          rw [hts, List.append_assoc, List.singleton_append]
        · exact hskip _
      · exact hskip h

theorem current_arrive {target : String} : (a.arrive d e h target).1.current = target :=
  sameButEffects_arrive.current

theorem timers_arrive {target : String} : (a.arrive d e h target).1.timers = [] :=
  sameButEffects_arrive.timers

/-- After an entry the automaton is what the entry action leaves, with timers for some of the
delayed transitions of the new state, in the order of declaration. -/
theorem enter_fst (d : Definition) (e : Evaluator) (a : Running) (h : σ) (target : String) :
    ∃ ts : List Pending,
      (a.enter d e h target).1 = { (a.arrive d e h target).1 with timers := ts }
        ∧ (ts.map (·.transition)).Sublist (d.delayedFrom target) := by
  obtain ⟨ts, hts, hsub⟩ := scheduleAll_fst (d := d) (d.delayedFrom target)
    (a.arrive d e h target).1 (Host.notify (a.arrive d e h target).2 (.state target))
  rw [timers_arrive, List.nil_append] at hts
  exact ⟨ts, hts, hsub⟩

theorem current_enter {target : String} : (a.enter d e h target).1.current = target := by
  obtain ⟨ts, hts, -⟩ := enter_fst d e a h target
  rw [hts]
  exact current_arrive

theorem alive_enter {target : String} : (a.enter d e h target).1.alive = a.alive := by
  obtain ⟨ts, hts, -⟩ := enter_fst d e a h target
  rw [hts]
  exact sameButEffects_arrive.alive

theorem inputs_enter {target : String} : (a.enter d e h target).1.inputs = a.inputs := by
  obtain ⟨ts, hts, -⟩ := enter_fst d e a h target
  rw [hts]
  exact sameButEffects_arrive.inputs

theorem terminating_applyAll : ∀ (l : List Effect) (a : Running) (h : σ),
    (a.applyAll d h l).1.terminating = true ↔ a.terminating = true ∨ Effect.terminate ∈ l
  | [], _, _ => by simp [applyAll]
  | x :: rest, a, h => by
    have hx : (a.apply d h x).1.terminating = true ↔ a.terminating = true ∨ .terminate = x := by
      cases x <;> simp only [apply]
      · split <;> simp
      · split <;> simp
      · simp
      · simp
    rw [applyAll, terminating_applyAll rest, hx, List.mem_cons, or_assoc]

/-- The entry action of a state asks for the end of the automaton that enters it. -/
def Asks (d : Definition) (e : Evaluator) (a : Running) (target : String) : Prop :=
  ∃ action effects, d.actionOf? target = some action ∧ e.action action a.bindings = .ok effects
    ∧ Effect.terminate ∈ effects

omit [Host σ] in
theorem asks_iff {target : String} :
    a.Asks d e target ↔ Effect.terminate ∈ a.actionEffects d e target := by
  rw [Asks, actionEffects]
  rcases d.actionOf? target with _ | action
  · simp
  · rcases hact : e.action action a.bindings with reason | effects <;> simp [hact]

/-- After an entry the end has been asked for if it had been before, or if the entry action has
asked for it. -/
theorem terminating_enter {target : String} : (a.enter d e h target).1.terminating = true
    ↔ a.terminating = true ∨ a.Asks d e target := by
  obtain ⟨ts, hts, -⟩ := enter_fst d e a h target
  rw [hts, arrive_fst, asks_iff]
  exact terminating_applyAll _ _ _

end Running

end RemoteAutomaton.Automaton
