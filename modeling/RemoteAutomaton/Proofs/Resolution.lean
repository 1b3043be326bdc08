import RemoteAutomaton.Automaton.Interpreter

/-!
# What a resolution keeps

All that a resolution does to an automaton and its host is report guards that fail and enter
declared states.  So a property that survives both (`Stable`) survives a resolution, however many
states it enters and whether or not it ends in a cycle (`Stable.settle`).
-/

namespace RemoteAutomaton.Automaton

open Machine (Definition Transition)

namespace Running

/-- Whether the automaton takes inputs and expiries: it has not been terminated, and nothing has
asked for its end. -/
abbrev Active (a : Running) : Prop := a.alive ∧ ¬ a.terminating

variable {σ : Type} [Host σ] {d : Definition} {e : Evaluator} {a : Running} {h h' : σ}
  {visited : List String} {t : Transition}

theorem settle_of_not_active (ha : ¬ a.Active) : a.settle d e h visited = (.ok (), a, h) := by
  rw [settle, if_neg ha]

theorem settle_of_none (ha : a.Active)
    (hs : firstEligible d e a none h (d.immediateFrom a.current) = (none, h')) :
    a.settle d e h visited = (.ok (), a, h') := by
  rw [settle, if_pos ha]
  split
  · rename_i h₁ h₂
    rw [hs] at h₂
    obtain ⟨-, rfl⟩ := Prod.mk.inj h₂
    rfl
  · rename_i h₂
    rw [hs] at h₂
    cases h₂

theorem settle_of_mem (ha : a.Active)
    (hs : firstEligible d e a none h (d.immediateFrom a.current) = (some t, h'))
    (hv : t.target ∈ visited) :
    a.settle d e h visited = (.error (.cycleDetected t.target), a, h') := by
  rw [settle, if_pos ha]
  split
  · rename_i h₂
    rw [hs] at h₂
    cases h₂
  · rename_i h₂
    rw [hs] at h₂
    cases h₂
    rw [dif_pos hv]

theorem settle_of_notMem (ha : a.Active)
    (hs : firstEligible d e a none h (d.immediateFrom a.current) = (some t, h'))
    (hv : t.target ∉ visited) :
    a.settle d e h visited
      = (a.enter d e h' t.target).1.settle d e (a.enter d e h' t.target).2
          (t.target :: visited) := by
  rw [settle, if_pos ha]
  split
  · rename_i h₂
    rw [hs] at h₂
    cases h₂
  · rename_i h₂
    rw [hs] at h₂
    cases h₂
    rw [dif_neg hv]

/-- A resolution fails only in a cycle. -/
theorem cycled_of_settle {x : Error} (hx : (a.settle d e h visited).1 = .error x) :
    ∃ s, x = .cycleDetected s := by
  fun_induction Running.settle d e a h visited with
  | case1 a h visited hact h' hs => cases hx
  | case2 a h visited hact t h' hs hv =>
    cases hx
    exact ⟨_, rfl⟩
  | case3 a h visited hact t h' hs hv a₁ h₁ he ih => exact ih hx
  | case4 a h visited hact => cases hx

theorem cycled_of_react {name value : String} {x : Error}
    (hx : (a.react d e h name value).1 = .error x) : ∃ s, x = .cycleDetected s := by
  unfold react at hx
  split at hx
  · cases hx
  · exact cycled_of_settle hx

/-- A property of an automaton and its host that survives the report of a failed guard and the
entry of a declared state. -/
structure Stable (d : Definition) (e : Evaluator) (P : Running → σ → Prop) : Prop where
  guardFailed : ∀ {a h} (g m : String), P a h → P a (Host.notify h (.failure (.guardFailed g m)))
  enter : ∀ {a h} {target : String}, target ∈ d.stateNames → P a h →
    P (a.enter d e h target).1 (a.enter d e h target).2

theorem Stable.and {P Q : Running → σ → Prop} (hP : Stable d e P) (hQ : Stable d e Q) :
    Stable d e fun a h => P a h ∧ Q a h where
  guardFailed g m h := ⟨hP.guardFailed g m h.1, hQ.guardFailed g m h.2⟩
  enter ht h := ⟨hP.enter ht h.1, hQ.enter ht h.2⟩

namespace Stable

variable {P : Running → σ → Prop} (hP : Stable d e P)

include hP

theorem firstEligible {trigger : Option String} : ∀ (l : List Nat) {h : σ}, P a h →
    P a (Running.firstEligible d e a trigger h l).2
  | [], _, ha => ha
  | i :: rest, h, ha => by
    simp only [Running.firstEligible]
    split
    · exact firstEligible rest ha
    · split
      · exact ha
      · split
        · exact ha
        · exact firstEligible rest ha
        · exact firstEligible rest (hP.guardFailed _ _ ha)

theorem select {trigger : Option String} {l : List Nat} {r : Option Transition}
    (hs : Running.firstEligible d e a trigger h l = (r, h')) (ha : P a h) : P a h' := by
  have hl : P a (Running.firstEligible d e a trigger h l).2 := hP.firstEligible l ha
  rwa [hs] at hl

/-- A transition that is selected leads to a declared state, so its entry keeps the property. -/
theorem follow {trigger : Option String} {l : List Nat}
    (hs : Running.firstEligible d e a trigger h l = (some t, h')) (ha : P a h) :
    P (a.enter d e h' t.target).1 (a.enter d e h' t.target).2 :=
  hP.enter (d.transitions_fit t (mem_of_firstEligible (congrArg Prod.fst hs))).target_mem
    (hP.select hs ha)

theorem settle (ha : P a h) :
    P (a.settle d e h visited).2.1 (a.settle d e h visited).2.2 := by
  fun_induction Running.settle d e a h visited with
  | case1 a h visited hact h' hs => exact hP.select hs ha
  | case2 a h visited hact t h' hs hv => exact hP.select hs ha
  | case3 a h visited hact t h' hs hv a₁ h₁ he ih =>
    have hent := hP.follow hs ha
    rw [he] at hent
    exact ih hent
  | case4 a h visited hact => exact ha

theorem moveTo {target : String} (ht : target ∈ d.stateNames) (ha : P a h) :
    P (a.moveTo d e h target).2.1 (a.moveTo d e h target).2.2 :=
  hP.settle (hP.enter ht ha)

theorem react {name value : String} (ha : P a h) :
    P (a.react d e h name value).2.1 (a.react d e h name value).2.2 := by
  unfold Running.react
  split
  · rename_i h' hs
    exact hP.select hs ha
  · rename_i t h' hs
    exact hP.settle (hP.follow hs ha)

end Stable

end Running

end RemoteAutomaton.Automaton
