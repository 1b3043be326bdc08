import RemoteAutomaton.Automaton.Interpreter
import RemoteAutomaton.Proofs.Outgoing

/-!
# Selecting a transition

A transition is selected for a `Stimulus`: an event with its value, an entry that is over, or the
expiry of a timer.  The candidates are the transitions of the current state that wait for the
stimulus, by their declaration numbers, and each candidate's guard has an answer (`answer`).

`Selects` says what a selection comes to, on its own and not as the search does it: the least
candidate whose guard passes is taken, and the guards of those before it that fail are reported, in
order.  The search of the interpreter comes to that (`exists_selects`), and to nothing else
(`Selects.unique`).
-/

namespace RemoteAutomaton.Automaton

open Machine (Definition Transition Trigger)

/-- What a transition is selected for. -/
inductive Stimulus where
  | event (name value : String)
  /-- Nothing but a state that the automaton is in. -/
  | immediate
  /-- The expiry of the timer of a transition, which is given by its number. -/
  | expiry (transition : Nat)
  deriving DecidableEq, Repr

/-- The value that guards see beside the automaton's own. -/
def Stimulus.trigger? : Stimulus → Option String
  | event _ value => some value
  | immediate | expiry _ => none

/-- Whether the transition of number `i`, with this trigger, waits for a stimulus. -/
def Stimulus.starts (s : Stimulus) (i : Nat) (t : Trigger) : Bool :=
  match s with
  | event name _ => t == .event name
  | immediate => t == .immediate
  | expiry j => t.isDelayed && i == j

def complain {σ : Type} [Host σ] (h : σ) (failures : List Error) : σ :=
  failures.foldl (fun h x => Host.notify h (.failure x)) h

/-- What is to be reported of an answer. -/
def complaint? : Except Error Bool → Option Error
  | .error x => some x
  | .ok _ => none

/-- What a selection comes to, where `ask` tells the answers of guards: the least transition whose
guard passes is taken, and the failures of those before it, or of all if none is taken, are to be
reported. -/
structure SelectsFrom (ask : Nat → Except Error Bool) (l : List Nat) (taken : Option Nat)
    (failures : List Error) : Prop where
  first : ∀ i ∈ taken, i ∈ l ∧ ask i = .ok true ∧ ∀ j ∈ l, j < i → ask j ≠ .ok true
  not_of_none : taken = none → ∀ j ∈ l, ask j ≠ .ok true
  failures_eq :
    failures = (l.filter fun j => taken.all (j < ·)).filterMap fun j => complaint? (ask j)

namespace SelectsFrom

variable {ask : Nat → Except Error Bool} {i : Nat} {l : List Nat} {taken : Option Nat}
  {failures : List Error}

theorem nil : SelectsFrom ask [] none [] :=
  ⟨nofun, fun _ _ h => (nomatch h), rfl⟩

theorem here (hask : ask i = .ok true) (hl : ∀ j ∈ l, i < j) :
    SelectsFrom ask (i :: l) (some i) [] := by
  refine ⟨fun j hj => ?_, nofun, ?_⟩
  · obtain rfl : i = j := Option.mem_some_iff.1 hj
    refine ⟨List.mem_cons_self, hask, fun j hj hlt => ?_⟩
    rcases List.mem_cons.1 hj with rfl | hj
    · omega
    · have := hl j hj
      omega
  · have hnone : (i :: l).filter (fun j => (some i).all (j < ·)) = [] := by
      refine List.filter_eq_nil_iff.2 fun j hj => ?_
      have hle : i ≤ j := by
        rcases List.mem_cons.1 hj with rfl | hj
        · exact Nat.le_refl _
        · exact Nat.le_of_lt (hl j hj)
      simpa using hle
    rw [hnone]
    rfl

/-- A transition whose guard does not pass is passed over, and its failure is reported first. -/
theorem cons (h : SelectsFrom ask l taken failures) (hask : ask i ≠ .ok true)
    (hl : ∀ j ∈ l, i < j) :
    SelectsFrom ask (i :: l) taken ((complaint? (ask i)).toList ++ failures) := by
  refine ⟨fun k hk => ?_, fun hk => ?_, ?_⟩
  · obtain ⟨hmem, hpass, hleast⟩ := h.first k hk
    exact ⟨List.mem_cons_of_mem _ hmem, hpass, List.forall_mem_cons.2 ⟨fun _ => hask, hleast⟩⟩
  · exact List.forall_mem_cons.2 ⟨hask, h.not_of_none hk⟩
  · have hbefore : taken.all (i < ·) = true := by
      rw [Option.all_eq_true]
      exact fun k hk => decide_eq_true (hl k (h.first k hk).1)
    rw [h.failures_eq, List.filter_cons, if_pos hbefore, List.filterMap_cons]
    cases complaint? (ask i) with
    | none => rfl
    | some x => rfl

theorem unique {taken' : Option Nat} {failures' : List Error} (h : SelectsFrom ask l taken failures)
    (h' : SelectsFrom ask l taken' failures') : taken' = taken ∧ failures' = failures := by
  have htaken : taken' = taken := by
    cases hi : taken with
    | none =>
      cases hj : taken' with
      | none => rfl
      | some j =>
        obtain ⟨hmem, hpass, -⟩ := h'.first j hj
        exact absurd hpass (h.not_of_none hi j hmem)
    | some i =>
      obtain ⟨hmem, hpass, hleast⟩ := h.first i hi
      cases hj : taken' with
      | none => exact absurd hpass (h'.not_of_none hj i hmem)
      | some j =>
        obtain ⟨hmem', hpass', hleast'⟩ := h'.first j hj
        rcases Nat.lt_trichotomy i j with hlt | rfl | hlt
        · exact absurd hpass (hleast' i hmem hlt)
        · rfl
        · exact absurd hpass' (hleast j hmem' hlt)
  exact ⟨htaken, by rw [h'.failures_eq, h.failures_eq, htaken]⟩

theorem exists_answer {x : Error} (h : SelectsFrom ask l taken failures) (hx : x ∈ failures) :
    ∃ j ∈ l, ask j = .error x := by
  rw [h.failures_eq] at hx
  obtain ⟨j, hj, hask⟩ := List.mem_filterMap.1 hx
  refine ⟨j, (List.mem_filter.1 hj).1, ?_⟩
  rcases hj' : ask j with y | b
  · rw [hj'] at hask
    cases hask
    rfl
  · rw [hj'] at hask
    cases hask

end SelectsFrom

namespace Running

/-- The transitions of the current state that wait for a stimulus, by their declaration numbers. -/
def candidates (d : Definition) (a : Running) (s : Stimulus) : List Nat :=
  (List.range d.transitions.size).filter fun i =>
    d.transitions[i]?.any fun t => t.source == a.current && s.starts i t.trigger

/-- What the guard of a transition answers with the values that the automaton has now.  Without a
guard the answer is yes. -/
def answer (d : Definition) (e : Evaluator) (a : Running) (s : Stimulus) (i : Nat) :
    Except Error Bool :=
  match d.transitions[i]? with
  | none => .ok false
  | some t =>
    match t.guard with
    | none => .ok true
    | some g => (e.guard g a.bindings s.trigger?).mapError (.guardFailed g)

end Running

abbrev Selects (d : Definition) (e : Evaluator) (a : Running) (s : Stimulus) :
    Option Nat → List Error → Prop :=
  SelectsFrom (a.answer d e s) (a.candidates d s)

/-- The transition that is taken for a stimulus. -/
def Takes (d : Definition) (e : Evaluator) (a : Running) (s : Stimulus) (u : Transition) : Prop :=
  ∃ i failures, Selects d e a s (some i) failures ∧ d.transitions[i]? = some u

namespace Running

variable {d : Definition} {e : Evaluator} {a : Running} {s : Stimulus} {i : Nat}

theorem candidates_increasing : (a.candidates d s).Pairwise (· < ·) :=
  List.pairwise_lt_range.filter _

theorem mem_candidates_iff : i ∈ a.candidates d s ↔
    ∃ t, d.transitions[i]? = some t ∧ t.source = a.current ∧ s.starts i t.trigger := by
  rw [candidates, List.mem_filter, List.mem_range, Option.any_eq_true]
  constructor
  · rintro ⟨-, t, ht, h⟩
    rw [Bool.and_eq_true, beq_iff_eq] at h
    exact ⟨t, ht, h⟩
  · rintro ⟨t, ht, hsource, hstarts⟩
    refine ⟨(Array.getElem?_eq_some_iff.1 ht).1, t, ht, ?_⟩
    rw [hsource, hstarts, beq_self_eq_true]
    rfl

/-- The transitions that leave a state and whose trigger has some property, by their numbers. -/
theorem filter_outgoing (d : Definition) (state : String) (p : Trigger → Bool) :
    (d.outgoing state).filter (d.triggerIs p)
      = (List.range d.transitions.size).filter fun i =>
          d.transitions[i]?.any fun t => t.source == state && p t.trigger := by
  rw [Definition.outgoing_eq, Machine.Graph.leaving, List.filter_filter]
  refine List.filter_congr fun i _ => ?_
  rw [Definition.triggerIs]
  cases d.transitions[i]? with
  | none => rfl
  | some t => exact Bool.and_comm _ _

theorem eventFrom_eq (d : Definition) (a : Running) (name value : String) :
    d.eventFrom a.current name = a.candidates d (.event name value) :=
  filter_outgoing d a.current _

theorem immediateFrom_eq (d : Definition) (a : Running) :
    d.immediateFrom a.current = a.candidates d .immediate :=
  filter_outgoing d a.current _

/-- The one candidate at an expiry is the transition of the timer, if it leaves the current state
after a delay. -/
theorem candidates_expiry (hi : i ∈ d.delayedFrom a.current) :
    a.candidates d (.expiry i) = [i] := by
  rw [Definition.delayedFrom, filter_outgoing, List.mem_filter] at hi
  obtain ⟨hrange, hdelayed⟩ := hi
  have hsame : a.candidates d (.expiry i) = (List.range d.transitions.size).filter (· == i) := by
    refine List.filter_congr fun j _ => ?_
    by_cases hj : j = i
    · subst hj
      simpa [Stimulus.starts] using hdelayed
    · have hne : (j == i) = false := beq_eq_false_iff_ne.2 hj
      simp [Stimulus.starts, hne]
  rw [hsame, List.filter_beq, List.nodup_range.count, if_pos hrange]
  rfl

/-- A guard answers with a failure of its own. -/
theorem guardFailed_of_answer {x : Error} (hx : a.answer d e s i = .error x) :
    ∃ g reason, x = .guardFailed g reason := by
  unfold answer at hx
  split at hx
  · cases hx
  · split at hx
    · cases hx
    · rename_i g _
      rcases hg : e.guard g a.bindings s.trigger? with reason | b
      · rw [hg] at hx
        cases hx
        exact ⟨g, reason, rfl⟩
      · rw [hg] at hx
        cases hx

variable {σ : Type} [Host σ]

theorem firstEligible_cons (s : Stimulus) (h : σ) (i : Nat) (rest : List Nat) :
    firstEligible d e a s.trigger? h (i :: rest)
      = match a.answer d e s i with
        | .ok true => (d.transitions[i]?, h)
        | .ok false => firstEligible d e a s.trigger? h rest
        | .error x => firstEligible d e a s.trigger? (Host.notify h (.failure x)) rest := by
  rw [firstEligible, answer]
  rcases d.transitions[i]? with _ | t
  · rfl
  · dsimp only
    rcases t.guard with _ | g
    · rfl
    · dsimp only
      rcases e.guard g a.bindings s.trigger? with m | _ | _ <;> rfl

theorem exists_selectsFrom (s : Stimulus) : ∀ (l : List Nat) (h : σ), l.Pairwise (· < ·) →
    ∃ taken failures, SelectsFrom (a.answer d e s) l taken failures
      ∧ firstEligible d e a s.trigger? h l
        = (taken.bind fun i => d.transitions[i]?, complain h failures)
  | [], _, _ => ⟨none, [], .nil, rfl⟩
  | i :: rest, h, hl => by
    obtain ⟨hlt, hrest⟩ := List.pairwise_cons.1 hl
    rw [firstEligible_cons]
    rcases hask : a.answer d e s i with x | _ | _
    · obtain ⟨taken, failures, hsel, heq⟩ :=
        exists_selectsFrom s rest (Host.notify h (.failure x)) hrest
      have hcons := hsel.cons (i := i) (by simp [hask]) hlt
      rw [hask] at hcons
      exact ⟨taken, _, hcons, heq⟩
    · obtain ⟨taken, failures, hsel, heq⟩ := exists_selectsFrom s rest h hrest
      have hcons := hsel.cons (i := i) (by simp [hask]) hlt
      rw [hask] at hcons
      exact ⟨taken, _, hcons, heq⟩
    · exact ⟨some i, [], .here hask hlt, rfl⟩

end Running

section Selects

variable {d : Definition} {e : Evaluator} {a : Running} {s : Stimulus} {i : Nat}
  {failures : List Error}

theorem Selects.exists_transition (h : Selects d e a s (some i) failures) :
    ∃ t, d.transitions[i]? = some t ∧ t.source = a.current ∧ s.starts i t.trigger :=
  Running.mem_candidates_iff.1 (h.first i rfl).1

theorem Selects.guardFailed {taken : Option Nat} {x : Error} (h : Selects d e a s taken failures)
    (hx : x ∈ failures) : ∃ g reason, x = .guardFailed g reason := by
  obtain ⟨j, -, hj⟩ := h.exists_answer hx
  exact Running.guardFailed_of_answer hj

theorem Takes.unique {u u' : Transition} (h : Takes d e a s u) (h' : Takes d e a s u') :
    u' = u := by
  obtain ⟨i, failures, hs, hi⟩ := h
  obtain ⟨j, failures', hs', hj⟩ := h'
  obtain rfl := Option.some.inj (hs.unique hs').1
  exact Option.some.inj (hj.symm.trans hi)

theorem Selects.not_takes (h : Selects d e a s none failures) (u : Transition) :
    ¬ Takes d e a s u := by
  rintro ⟨i, failures', hs, -⟩
  cases (h.unique hs).1

/-- A selection for no stimulus from outside takes an immediate transition of the current state. -/
theorem Takes.immediate {u : Transition} (h : Takes d e a .immediate u) :
    u ∈ d.transitions ∧ u.source = a.current ∧ u.trigger = .immediate := by
  obtain ⟨i, failures, hs, hi⟩ := h
  obtain ⟨u', hi', hsource, hstarts⟩ := hs.exists_transition
  obtain rfl : u = u' := Option.some.inj (hi.symm.trans hi')
  exact ⟨Array.mem_of_getElem? hi, hsource, eq_of_beq hstarts⟩

variable {σ : Type} [Host σ] {h h' : σ} {l : List Nat}

/-- Where the search finds nothing, no candidate's guard passes. -/
theorem selects_of_none (hl : l = a.candidates d s)
    (hs : Running.firstEligible d e a s.trigger? h l = (none, h')) :
    ∃ failures, Selects d e a s none failures ∧ h' = complain h failures := by
  subst hl
  obtain ⟨taken, failures, hsel, heq⟩ :=
    Running.exists_selectsFrom (e := e) s _ h (Running.candidates_increasing (d := d) (a := a))
  obtain ⟨htaken, rfl⟩ := Prod.mk.inj (hs.symm.trans heq)
  cases taken with
  | none => exact ⟨failures, hsel, rfl⟩
  | some i =>
    obtain ⟨t, ht, -⟩ := Selects.exists_transition hsel
    exact absurd (htaken.trans ht) nofun

theorem selects_of_some {t : Transition} (hl : l = a.candidates d s)
    (hs : Running.firstEligible d e a s.trigger? h l = (some t, h')) :
    ∃ i failures, Selects d e a s (some i) failures ∧ d.transitions[i]? = some t
      ∧ h' = complain h failures := by
  subst hl
  obtain ⟨taken, failures, hsel, heq⟩ :=
    Running.exists_selectsFrom (e := e) s _ h (Running.candidates_increasing (d := d) (a := a))
  obtain ⟨htaken, rfl⟩ := Prod.mk.inj (hs.symm.trans heq)
  cases taken with
  | none => exact absurd htaken nofun
  | some i => exact ⟨i, failures, hsel, htaken.symm, rfl⟩

end Selects

end RemoteAutomaton.Automaton
