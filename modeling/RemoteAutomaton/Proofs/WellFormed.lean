import Mathlib.Tactic.SplitIfs
import RemoteAutomaton.Automaton.Loading

/-!
# Which declarations are machines

`Declaration.WellFormed` says what is wanted of a declaration, one condition after the other.  The
checks go through a declaration and stop at the first defect; they let it pass exactly if it is well
formed (`Definition.exists_ofDeclaration_iff`).  The machine then has what was declared, and each of
its transitions the trigger that the declaration calls for (`Definition.matches_of_ofDeclaration`).
-/

namespace RemoteAutomaton.Machine

/-- What is wanted of a declared transition between the given states: they are declared, and at most
one is given of an event, a delay in milliseconds, which is not zero, and a declared variable that
holds the delay. -/
structure Arrow.WellFormed (states vars : List String) (t : Arrow) : Prop where
  source_mem : t.source ∈ states
  target_mem : t.target ∈ states
  not_twoDelays : ¬ (t.delay.isSome ∧ t.delayVariable.isSome)
  delay_ne_zero : t.delay ≠ some 0
  delayVariable_mem : ∀ v ∈ t.delayVariable, v ∈ vars
  not_eventAndDelay : ¬ (t.event.isSome ∧ (t.delay.isSome ∨ t.delayVariable.isSome))

/-- What is wanted of a declaration. -/
structure Declaration.WellFormed (r : Declaration) : Prop where
  states_named : ∀ s ∈ r.states, s.name ≠ ""
  states_distinct : (r.states.map (·.name)).Nodup
  initial_mem : ∀ s ∈ r.initial, s ∈ r.states.map (·.name)
  variables_distinct : (r.vars.map (·.name)).Nodup
  inputs_distinct : r.inputs.Nodup
  outputs_distinct : r.outputs.Nodup
  transitions : ∀ t ∈ r.transitions, t.WellFormed (r.states.map (·.name)) (r.vars.map (·.name))

/-- The delay that a declared transition calls for. -/
def Arrow.delay? (t : Arrow) : Option Delay :=
  match t.delay, t.delayVariable with
  | some n, _ => some (.fixed n)
  | none, some v => some (.held v)
  | none, none => none

/-- The trigger that a declared transition calls for. -/
def Arrow.trigger (t : Arrow) : Trigger :=
  match t.event, t.delay? with
  | some e, _ => .event e
  | none, some d => .delayed d
  | none, none => .immediate

def Arrow.transition (t : Arrow) : Transition := ⟨t.source, t.target, t.trigger, t.guard⟩

/-- A machine has what was declared, in the order of declaration. -/
structure Definition.Matches (d : Definition) (r : Declaration) : Prop where
  name : d.name = r.name
  initial : d.initial = r.initial
  states : d.states = r.states
  transitions : d.transitions.toList = r.transitions.map Arrow.transition
  vars : d.vars = r.vars
  inputs : d.inputs = r.inputs
  outputs : d.outputs = r.outputs

/-! ### Transitions -/

section Transitions

variable {states vars : List String} {t : Arrow}

theorem Arrow.checkDelay_eq_ok_iff {delay : Option Delay} :
    t.checkDelay vars = .ok delay ↔
      (¬ (t.delay.isSome ∧ t.delayVariable.isSome) ∧ t.delay ≠ some 0
        ∧ ∀ v ∈ t.delayVariable, v ∈ vars) ∧ delay = t.delay? := by
  unfold checkDelay delay?
  rcases t.delay with _ | n <;> rcases t.delayVariable with _ | v
  · simp [eq_comm]
  · by_cases hv : v ∈ vars <;> simp [hv, eq_comm]
  · by_cases hn : n = 0 <;> simp [hn, eq_comm]
  · simp

theorem Arrow.checkTrigger_eq_ok_iff {trigger : Trigger} :
    t.checkTrigger t.delay? = .ok trigger ↔
      ¬ (t.event.isSome ∧ (t.delay.isSome ∨ t.delayVariable.isSome)) ∧ trigger = t.trigger := by
  unfold checkTrigger Arrow.trigger delay?
  rcases t.event with _ | e <;> rcases t.delay with _ | n <;> rcases t.delayVariable with _ | v
  all_goals simp [eq_comm]

/-- A transition passes the checks exactly if it is well formed, and it gets the trigger that it
calls for. -/
theorem Arrow.check_eq_ok_iff {u : Transition} :
    t.check states vars = .ok u ↔ t.WellFormed states vars ∧ u = t.transition := by
  unfold check
  split_ifs with hs ht
  · constructor
    · intro h
      split at h
      · cases h
      rename_i delay hd
      split at h
      · cases h
      rename_i trigger htr
      obtain ⟨⟨htwo, hzero, hvar⟩, rfl⟩ := checkDelay_eq_ok_iff.1 hd
      obtain ⟨hboth, rfl⟩ := checkTrigger_eq_ok_iff.1 htr
      cases h
      exact ⟨⟨hs, ht, htwo, hzero, hvar, hboth⟩, rfl⟩
    · rintro ⟨h, rfl⟩
      rw [checkDelay_eq_ok_iff.2 ⟨⟨h.not_twoDelays, h.delay_ne_zero, h.delayVariable_mem⟩, rfl⟩]
      dsimp only
      rw [checkTrigger_eq_ok_iff.2 ⟨h.not_eventAndDelay, rfl⟩]
      rfl
  · exact ⟨nofun, fun h => absurd h.1.target_mem ht⟩
  · exact ⟨nofun, fun h => absurd h.1.source_mem hs⟩

theorem Graph.transitions_foldl_add (us : List Transition) (g : Graph) :
    (us.foldl (Graph.add states) g).transitions.toList = g.transitions.toList ++ us := by
  induction us generalizing g with
  | nil => simp
  | cons u us ih => simp [ih, add]

/-- Transitions pass the checks one after the other exactly if each of them is well formed, and they
are added in order. -/
theorem Graph.addAll_eq_ok_iff : ∀ {l : List Arrow} {g g' : Graph},
    addAll states vars g l = .ok g' ↔
      (∀ t ∈ l, t.WellFormed states vars) ∧ g' = (l.map Arrow.transition).foldl (add states) g
  | [], g, g' => by simp [addAll, eq_comm]
  | t :: l, g, g' => by
    rw [addAll, List.forall_mem_cons, List.map_cons, List.foldl_cons]
    rcases hu : t.check states vars with x | u
    · have hno : ¬ t.WellFormed states vars := fun ht => by
        have hok := Arrow.check_eq_ok_iff.2 ⟨ht, rfl⟩
        rw [hu] at hok
        cases hok
      simp [hno]
    · obtain ⟨ht, rfl⟩ := Arrow.check_eq_ok_iff.1 hu
      dsimp only
      rw [addAll_eq_ok_iff, and_iff_right ht]

end Transitions

/-! ### Machines -/

namespace Definition

variable {r : Declaration} {d : Definition}

theorem Matches.stateNames (hr : d.Matches r) : d.stateNames = r.states.map (·.name) := by
  rw [Definition.stateNames, hr.states]

theorem Matches.getElem?_transitions (hr : d.Matches r) (i : Nat) :
    d.transitions[i]? = r.transitions[i]?.map Arrow.transition := by
  rw [← Array.getElem?_toList, hr.transitions, List.getElem?_map]

theorem matches_of_ofDeclaration (h : ofDeclaration r = .ok d) : r.WellFormed ∧ d.Matches r := by
  unfold ofDeclaration at h
  split at h
  · cases h
  rename_i hstates
  split_ifs at h with hinitial
  split at h
  · cases h
  rename_i hvars
  split at h
  · cases h
  rename_i hinputs
  split at h
  · cases h
  rename_i houtputs
  split at h
  · cases h
  rename_i g hgraph
  obtain ⟨htransitions, rfl⟩ := Graph.addAll_eq_ok_iff.1 hgraph
  obtain ⟨hnamed, hdistinct, -⟩ := stateDefect?_eq_none_iff.1 hstates
  cases h
  exact ⟨⟨hnamed, hdistinct, hinitial, (firstRepeat?_eq_none_iff.1 hvars).1,
    (firstRepeat?_eq_none_iff.1 hinputs).1, (firstRepeat?_eq_none_iff.1 houtputs).1, htransitions⟩,
    ⟨rfl, rfl, rfl, Graph.transitions_foldl_add _ _, rfl, rfl, rfl⟩⟩

theorem firstRepeat?_of_nodup {l : List String} (h : l.Nodup) : firstRepeat? [] l = none :=
  firstRepeat?_eq_none_iff.2 ⟨h, fun _ _ => List.not_mem_nil⟩

theorem exists_ofDeclaration_iff : (∃ d, ofDeclaration r = .ok d) ↔ r.WellFormed := by
  constructor
  · rintro ⟨d, h⟩
    exact (matches_of_ofDeclaration h).1
  · intro h
    have hstates : stateDefect? [] r.states = none :=
      stateDefect?_eq_none_iff.2
        ⟨h.states_named, h.states_distinct, fun _ _ => List.not_mem_nil⟩
    have hgraph := (Graph.addAll_eq_ok_iff (g := Graph.blank (r.states.map (·.name)))).2
      ⟨h.transitions, rfl⟩
    have hvars := firstRepeat?_of_nodup h.variables_distinct
    have hinputs := firstRepeat?_of_nodup h.inputs_distinct
    have houtputs := firstRepeat?_of_nodup h.outputs_distinct
    unfold ofDeclaration
    split
    · simp_all
    split
    · split
      · simp_all
      split
      · simp_all
      split
      · simp_all
      split
      · simp_all
      · exact ⟨_, rfl⟩
    · exact absurd h.initial_mem ‹_›

end Definition

end RemoteAutomaton.Machine

namespace RemoteAutomaton.Automaton

open Machine (Declaration Definition)

/-- A declaration is accepted exactly if it is well formed, and is refused as an invalid definition
otherwise.  What it is accepted as has all that was declared, in order, and each transition has the
trigger that its declaration calls for. -/
theorem accepted_iff_wellFormed (r : Declaration) :
    ((∃ d, checkDeclaration r = .ok d) ↔ r.WellFormed)
      ∧ (¬ r.WellFormed → ∃ reason, checkDeclaration r = .error (.invalidDefinition reason))
      ∧ ∀ d, checkDeclaration r = .ok d → d.Matches r := by
  simp only [checkDeclaration_eq_ok_iff]
  refine ⟨Definition.exists_ofDeclaration_iff, fun hr => ?_,
    fun d h => (Definition.matches_of_ofDeclaration h).2⟩
  rw [← Definition.exists_ofDeclaration_iff] at hr
  rw [checkDeclaration]
  cases h : Definition.ofDeclaration r with
  | ok d => exact absurd ⟨d, h⟩ hr
  | error x => exact ⟨x.message, rfl⟩

end RemoteAutomaton.Automaton
