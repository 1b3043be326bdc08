import RemoteAutomaton.Proofs.Accounts
import RemoteAutomaton.Proofs.Selection

/-!
# The course of a resolution

A resolution goes in rounds.  In each the automaton selects a transition, and if it takes one that
leads to a state not visited yet, it enters that state and goes on.  `Course` describes this on its
own: what the rounds are, what the host is told in each of them and how the resolution ends.  Every
resolution has a course (`course_settle`, `course_respond`).

What a course keeps is proved by induction on it: the calls of the host are those of the rounds
(`Course.calls_eq`), and the states entered are all different, each reached by an immediate
transition of the one before (`Course.distinct`, `Course.chain`).
-/

namespace RemoteAutomaton.Automaton

open Machine (Definition Transition)

/-! ### What an entry tells -/

def entered (calls : List HostCall) : List String := calls.filterMap (·.state?)

@[simp] theorem entered_nil : entered [] = [] :=
  rfl

theorem entered_append (calls calls' : List HostCall) :
    entered (calls ++ calls') = entered calls ++ entered calls' :=
  List.filterMap_append

theorem entered_failures (failures : List Error) :
    entered (failures.map fun x => .notice (.failure x)) = [] :=
  List.filterMap_eq_nil_iff.2 fun c hc => by
    obtain ⟨x, -, rfl⟩ := List.mem_map.1 hc
    rfl

/-- A report that a guard has failed is there only if the host has refused a timer with that very
failure. -/
def Echoed (calls : List HostCall) : Prop :=
  ∀ g x, .notice (.failure (.guardFailed g x)) ∈ calls →
    ∃ ms target, .schedule ms target (.error (.guardFailed g x)) ∈ calls

/-- A call that reports neither a state nor that a guard has failed. -/
structure HostCall.Ordinary (c : HostCall) : Prop where
  state? : c.state? = none
  ne_guardFailed : ∀ g x, c ≠ .notice (.failure (.guardFailed g x))

/-- Some calls, the last one first, and ordinary calls after them. -/
inductive Adds (base : List HostCall) : List HostCall → Prop
  | nil : Adds base base
  | cons {c : HostCall} {calls : List HostCall} (hc : c.Ordinary) (h : Adds base calls) :
    Adds base (c :: calls)

theorem Adds.entered_eq {base calls : List HostCall} (h : Adds base calls) :
    entered calls = entered base := by
  induction h with
  | nil => rfl
  | cons hc _ ih =>
    rw [entered, List.filterMap_cons, hc.state?]
    exact ih

theorem Echoed.cons {c : HostCall} {calls : List HostCall} (h : Echoed calls)
    (hc : ∀ g x, c ≠ .notice (.failure (.guardFailed g x))) : Echoed (c :: calls) := by
  intro g x hmem
  rcases List.mem_cons.1 hmem with rfl | hmem
  · exact absurd rfl (hc g x)
  · obtain ⟨ms, target, hs⟩ := h g x hmem
    exact ⟨ms, target, List.mem_cons_of_mem _ hs⟩

theorem Adds.echoed {base calls : List HostCall} (h : Adds base calls) (hbase : Echoed base) :
    Echoed calls := by
  induction h with
  | nil => exact hbase
  | cons hc _ ih => exact ih.cons hc.ne_guardFailed

theorem Echoed.refused {calls : List HostCall} (h : Echoed calls) (ms : Nat) (target : String)
    (e : Error) : Echoed (.notice (.failure e) :: .schedule ms target (.error e) :: calls) := by
  intro g x hmem
  rcases List.mem_cons.1 hmem with heq | hmem
  · cases heq
    exact ⟨ms, target, List.mem_cons_of_mem _ List.mem_cons_self⟩
  · obtain ⟨ms', target', hs⟩ := h.cons (by simp) g x hmem
    exact ⟨ms', target', List.mem_cons_of_mem _ hs⟩

section Entered

variable {σ : Type} [Host σ] {d : Definition} {e : Evaluator} {a : Running} {t : Traced σ}

theorem calls_complain (failures : List Error) (t : Traced σ) : (complain t failures).calls
    = (failures.map fun x => HostCall.notice (.failure x)).reverse ++ t.calls := by
  induction failures generalizing t with
  | nil => rfl
  | cons x rest ih =>
    have hrest : complain t (x :: rest) = complain (Host.notify t (.failure x)) rest := rfl
    rw [hrest, ih, List.map_cons, List.reverse_cons, List.append_assoc]
    rfl

theorem adds_cancelAll {base : List HostCall} : ∀ (l : List Pending) {t : Traced σ},
    Adds base t.calls → Adds base (Running.cancelAll t l).calls
  | [], _, ht => ht
  | p :: rest, t, ht =>
    adds_cancelAll rest (t := Host.cancel t p.id) (ht.cons ⟨rfl, by simp⟩)

theorem adds_applyAll {base : List HostCall} : ∀ (l : List Effect) {a : Running} {t : Traced σ},
    Adds base t.calls → Adds base (a.applyAll d t l).2.calls
  | [], _, _, ht => ht
  | x :: rest, a, t, ht => by
    have hx : Adds base (a.apply d t x).2.calls := by
      cases x <;> simp only [Running.apply]
      · split <;> exact ht.cons ⟨rfl, by simp⟩
      · split <;> exact ht.cons ⟨rfl, by simp⟩
      · exact ht.cons ⟨rfl, by simp⟩
      · exact ht
    exact adds_applyAll rest hx

/-- Before an entry reports its state it makes ordinary calls only. -/
theorem adds_arrive (target : String) : Adds t.calls (a.arrive d e t target).2.calls := by
  have hnone : Adds t.calls (Running.cancelAll t a.timers).calls := adds_cancelAll a.timers .nil
  unfold Running.arrive Running.runEntry
  split
  · unfold Running.runAction
    split
    · exact adds_applyAll _ hnone
    · exact hnone.cons ⟨rfl, by simp⟩
  · exact hnone

theorem scheduling_entered (states : List String) :
    Scheduling d fun (t : Traced σ) _ => entered t.calls = states where
  failure _ hl := hl
  refused hs hl := by
    rw [calls_schedule hs]
    exact hl
  granted _ _ hs hl := by
    rw [calls_schedule hs]
    exact hl

theorem entered_enter (target : String) :
    entered (a.enter d e t target).2.calls = target :: entered t.calls := by
  rw [← (adds_arrive (d := d) (e := e) (a := a) (t := t) target).entered_eq]
  exact (scheduling_entered _).scheduleAll (d.delayedFrom target) rfl

/-- The calls that a host receives from an entry, in order. -/
def Running.entryCalls (d : Definition) (e : Evaluator) (a : Running) (h : σ) (target : String) :
    List HostCall :=
  (a.enter d e (⟨h, []⟩ : Traced σ) target).2.calls.reverse

theorem calls_enter (target : String) : (a.enter d e t target).2.calls
    = (a.entryCalls d e t.host target).reverse ++ t.calls := by
  obtain ⟨-, hsame⟩ := (simulation_calls t.calls).enter (d := d) (e := e)
    (h := (⟨t.host, []⟩ : Traced σ)) (k := t) target (Running.alike_eq_iff.2 (rfl : a = a)) rfl
  rw [hsame, Running.entryCalls, List.reverse_reverse]

@[simp] theorem entered_entryCalls (h : σ) (target : String) :
    entered (a.entryCalls d e h target) = [target] := by
  rw [Running.entryCalls, entered, List.filterMap_reverse]
  exact congrArg List.reverse (entered_enter (t := (⟨h, []⟩ : Traced σ)) target)

theorem resolve_ne_guardFailed {delay : Machine.Delay} (g x : String) :
    a.resolve delay ≠ .error (.guardFailed g x) := by
  cases delay with
  | fixed => simp [Running.resolve]
  | held name =>
    simp only [Running.resolve]
    repeat' split
    all_goals simp [Error.ofDelay]

theorem echoed_request {delay : Machine.Delay} {target : String} {r : Except Error TimerId}
    {t' : Traced σ} (hr : a.request t delay target = (r, t')) (ht : Echoed t.calls) :
    match r with
    | .ok _ => Echoed t'.calls
    | .error x => Echoed (Host.notify t' (.failure x)).calls := by
  unfold Running.request at hr
  split at hr
  · rename_i x hx
    cases hr
    refine ht.cons fun g y heq => ?_
    cases heq
    exact resolve_ne_guardFailed g y hx
  · rename_i ms _
    have hcalls := calls_schedule hr
    cases r with
    | ok id =>
      dsimp only
      rw [hcalls]
      exact ht.cons (by simp)
    | error x =>
      have hrefused := ht.refused ms target x
      rw [← hcalls] at hrefused
      exact hrefused

theorem echoed_scheduleAll : ∀ (l : List Nat) {a : Running} {t : Traced σ}, Echoed t.calls →
    Echoed (a.scheduleAll d t l).2.calls
  | [], _, _, ht => ht
  | i :: rest, a, t, ht => by
    simp only [Running.scheduleAll]
    split
    · exact echoed_scheduleAll rest ht
    · split
      · split
        · rename_i hr
          exact echoed_scheduleAll rest (echoed_request hr ht)
        · rename_i hr
          exact echoed_scheduleAll rest (echoed_request hr ht)
      · exact echoed_scheduleAll rest ht

theorem echoed_entryCalls (h : σ) (target : String) : Echoed (a.entryCalls d e h target) := by
  have henter : Echoed (a.enter d e (⟨h, []⟩ : Traced σ) target).2.calls :=
    echoed_scheduleAll _ (((adds_arrive target).echoed (by simp [Echoed])).cons (by simp))
  intro g x hmem
  obtain ⟨ms, s, hs⟩ := henter g x (List.mem_reverse.1 hmem)
  exact ⟨ms, s, List.mem_reverse.2 hs⟩

end Entered

/-! ### Rounds -/

/-- A selection, made by an automaton with the values that it has then, and the calls of the entry
that follows it, if one does. -/
structure Round where
  automaton : Running
  stimulus : Stimulus
  taken : Option Nat
  failures : List Error
  entry : List HostCall

def Round.calls (r : Round) : List HostCall :=
  r.failures.map (fun x => .notice (.failure x)) ++ r.entry

/-- The states that are entered in some rounds. -/
def path (rounds : List Round) : List String := entered (rounds.flatMap Round.calls)

@[simp] theorem path_nil : path [] = [] :=
  rfl

@[simp] theorem path_cons (r : Round) (rounds : List Round) :
    path (r :: rounds) = entered r.entry ++ path rounds := by
  rw [path, List.flatMap_cons, entered_append, Round.calls, entered_append, entered_failures]
  rfl

section Course

variable {σ : Type} [Host σ]

/-- The rounds of a resolution for a stimulus that has visited some states already, and how it ends:
its result, the automaton and the host. -/
inductive Course (d : Definition) (e : Evaluator) : Stimulus → List String → Running → Traced σ →
    List Round → Except Error Unit × Running × Traced σ → Prop
  /-- The automaton has ended, or its end has been asked for. -/
  | halt {s visited a t} (ha : ¬ a.Active) : Course d e s visited a t [] (.ok (), a, t)
  /-- No transition is taken. -/
  | rest {s visited a t failures} (ha : a.Active) (hs : Selects d e a s none failures) :
    Course d e s visited a t [⟨a, s, none, failures, []⟩] (.ok (), a, complain t failures)
  /-- The transition taken leads to a state that has been visited. -/
  | cycle {s visited a t i failures u} (ha : a.Active) (hs : Selects d e a s (some i) failures)
    (hi : d.transitions[i]? = some u) (hv : u.target ∈ visited) :
    Course d e s visited a t [⟨a, s, some i, failures, []⟩]
      (.error (.cycleDetected u.target), a, complain t failures)
  /-- The state that the transition taken leads to is entered. -/
  | follow {s visited a t i failures u rounds out} (ha : a.Active)
    (hs : Selects d e a s (some i) failures) (hi : d.transitions[i]? = some u)
    (hv : u.target ∉ visited)
    (hrest : Course d e .immediate (u.target :: visited)
      (a.enter d e (complain t failures) u.target).1
      (a.enter d e (complain t failures) u.target).2 rounds out) :
    Course d e s visited a t
      (⟨a, s, some i, failures, a.entryCalls d e (complain t failures).host u.target⟩ :: rounds)
      out

variable {d : Definition} {e : Evaluator} {s : Stimulus} {visited : List String} {a : Running}
  {t : Traced σ} {rounds : List Round} {out : Except Error Unit × Running × Traced σ}

theorem course_settle (d : Definition) (e : Evaluator) (a : Running) (t : Traced σ)
    (visited : List String) :
    ∃ rounds, Course d e .immediate visited a t rounds (a.settle d e t visited) := by
  fun_induction Running.settle d e a t visited with
  | case1 a t visited hact t' hs =>
    obtain ⟨failures, hsel, rfl⟩ := selects_of_none (Running.immediateFrom_eq d a) hs
    exact ⟨_, .rest hact hsel⟩
  | case2 a t visited hact u t' hs hv =>
    obtain ⟨i, failures, hsel, hi, rfl⟩ := selects_of_some (Running.immediateFrom_eq d a) hs
    exact ⟨_, .cycle hact hsel hi hv⟩
  | case3 a t visited hact u t' hs hv b t₁ he ih =>
    obtain ⟨i, failures, hsel, hi, rfl⟩ := selects_of_some (Running.immediateFrom_eq d a) hs
    obtain ⟨rounds, hrest⟩ := ih
    refine ⟨_ :: rounds, .follow hact hsel hi hv ?_⟩
    rw [he]
    exact hrest
  | case4 a t visited hact => exact ⟨[], .halt hact⟩

/-- Takes the transition that a stimulus selects, if there is one, and follows immediate transitions
from there. -/
def Running.respond {τ : Type} [Host τ] (d : Definition) (e : Evaluator) (a : Running) (h : τ)
    (s : Stimulus) : Except Error Unit × Running × τ :=
  match firstEligible d e a s.trigger? h (a.candidates d s) with
  | (none, h) => (.ok (), a, h)
  | (some u, h) => a.moveTo d e h u.target

theorem course_respond (d : Definition) (e : Evaluator) (t : Traced σ) (s : Stimulus)
    (ha : a.Active) : ∃ rounds, Course d e s [] a t rounds (a.respond d e t s) := by
  unfold Running.respond
  split
  · rename_i t' hs
    obtain ⟨failures, hsel, rfl⟩ := selects_of_none rfl hs
    exact ⟨_, .rest ha hsel⟩
  · rename_i u t' hs
    obtain ⟨i, failures, hsel, hi, rfl⟩ := selects_of_some rfl hs
    obtain ⟨rounds, hrest⟩ := course_settle d e (a.enter d e (complain t failures) u.target).1
      (a.enter d e (complain t failures) u.target).2 [u.target]
    exact ⟨_, .follow ha hsel hi List.not_mem_nil hrest⟩

/-! ### What a course keeps -/

theorem path_follow (h : σ) (u : Transition) (s : Stimulus) (i : Nat) (failures : List Error) :
    path (⟨a, s, some i, failures, a.entryCalls d e h u.target⟩ :: rounds)
      = u.target :: path rounds := by
  rw [path_cons, entered_entryCalls]
  rfl

/-- An immediate transition leads from one state to another. -/
def Leads (d : Definition) (x y : String) : Prop :=
  ∃ u ∈ d.transitions, u.source = x ∧ u.target = y ∧ u.trigger = .immediate

/-- An automaton and its host as the entry of a state by `a₀`, whose end had not been asked for, has
left them, but for the guards that have failed since. -/
def LastEntry (d : Definition) (e : Evaluator) (a₀ : Running) (target : String) (a : Running)
    (t : Traced σ) : Prop :=
  ¬ a₀.terminating ∧ ∃ (t₀ : Traced σ) (failures : List Error),
    a = (a₀.enter d e t₀ target).1 ∧ t = complain (a₀.enter d e t₀ target).2 failures

namespace Course

/-- The host receives the calls of the rounds, one round after the other. -/
theorem calls_eq (h : Course d e s visited a t rounds out) :
    out.2.2.calls = (rounds.flatMap Round.calls).reverse ++ t.calls := by
  induction h with
  | halt => rfl
  | rest => simp [calls_complain, Round.calls]
  | cycle => simp [calls_complain, Round.calls]
  | follow _ _ _ _ _ ih => simp [ih, calls_enter, calls_complain, Round.calls]

theorem selects (h : Course d e s visited a t rounds out) :
    ∀ r ∈ rounds, Selects d e r.automaton r.stimulus r.taken r.failures := by
  induction h with
  | halt => simp
  | rest _ hs => simpa using hs
  | cycle _ hs => simpa using hs
  | follow _ hs _ _ _ ih => exact List.forall_mem_cons.2 ⟨hs, ih⟩

theorem echoed (h : Course d e s visited a t rounds out) : ∀ r ∈ rounds, Echoed r.entry := by
  induction h with
  | halt => simp
  | rest => simp [Echoed]
  | cycle => simp [Echoed]
  | follow _ _ _ _ _ ih => exact List.forall_mem_cons.2 ⟨echoed_entryCalls _ _, ih⟩

/-- Only the first selection is made for the stimulus; the others are made for the state entered. -/
theorem stimuli (h : Course d e s visited a t rounds out) :
    (∀ r ∈ rounds.head?, r.stimulus = s) ∧ ∀ r ∈ rounds.tail, r.stimulus = .immediate := by
  induction h with
  | halt => simp
  | rest => simp
  | cycle => simp
  | @follow s _ _ _ _ _ _ rounds _ _ _ _ _ _ ih =>
    obtain ⟨hhead, htail⟩ := ih
    refine ⟨by simp, fun r hr => ?_⟩
    cases rounds with
    | nil => exact absurd hr List.not_mem_nil
    | cons x rest =>
      rcases List.mem_cons.1 hr with rfl | hr
      · exact hhead r rfl
      · exact htail r hr

theorem distinct (h : Course d e s visited a t rounds out) :
    (path rounds).Nodup ∧ ∀ x ∈ path rounds, x ∉ visited := by
  induction h with
  | halt => simp
  | rest => simp
  | cycle => simp
  | follow _ _ _ hv _ ih =>
    obtain ⟨hnodup, hnew⟩ := ih
    rw [path_follow]
    refine ⟨List.nodup_cons.2 ⟨fun hmem => hnew _ hmem List.mem_cons_self, hnodup⟩, ?_⟩
    exact List.forall_mem_cons.2 ⟨hv, fun x hx hmem => hnew x hx (List.mem_cons_of_mem _ hmem)⟩

theorem declared (h : Course d e s visited a t rounds out) :
    ∀ x ∈ path rounds, x ∈ d.stateNames := by
  induction h with
  | halt => simp
  | rest => simp
  | cycle => simp
  | follow _ _ hi _ _ ih =>
    rw [path_follow]
    have hfit := d.transitions_fit _ (Array.mem_of_getElem? hi)
    exact List.forall_mem_cons.2 ⟨hfit.target_mem, ih⟩

theorem current_eq (h : Course d e s visited a t rounds out) :
    out.2.1.current = (path rounds).getLast?.getD a.current := by
  induction h with
  | halt => rfl
  | rest => simp
  | cycle => simp
  | follow _ _ _ _ _ ih =>
    rw [ih, path_follow, List.getLast?_cons, Running.current_enter]
    rfl

/-- An immediate transition leads to each state entered from the one before it.  If nothing else is
at hand, the first is led to from the state that the automaton was in. -/
theorem chain (h : Course d e s visited a t rounds out) :
    (path rounds).IsChain (Leads d)
      ∧ (s = .immediate → (a.current :: path rounds).IsChain (Leads d)) := by
  induction h with
  | halt => simp
  | rest => simp
  | cycle => simp
  | follow _ hs hi _ _ ih =>
    have htail := ih.2 rfl
    rw [Running.current_enter] at htail
    rw [path_follow]
    refine ⟨htail, ?_⟩
    rintro rfl
    obtain ⟨hmem, hsource, htrigger⟩ := Takes.immediate ⟨_, _, hs, hi⟩
    exact .cons_cons ⟨_, hmem, hsource, rfl, htrigger⟩ htail

theorem head_iff (h : Course d e s [] a t rounds out) (x : String) :
    (path rounds).head? = some x ↔ a.Active ∧ ∃ u, Takes d e a s u ∧ u.target = x := by
  cases h with
  | halt ha => simp [ha]
  | rest ha hs => simp [hs.not_takes]
  | cycle _ _ _ hv => exact absurd hv List.not_mem_nil
  | follow ha hs hi =>
    have htakes : Takes d e a s _ := ⟨_, _, hs, hi⟩
    rw [path_follow, List.head?_cons, Option.some_inj]
    constructor
    · rintro rfl
      exact ⟨ha, _, htakes, rfl⟩
    · rintro ⟨-, u, hu, rfl⟩
      rw [htakes.unique hu]

theorem alive_eq (h : Course d e s visited a t rounds out) : out.2.1.alive = a.alive := by
  induction h with
  | halt | rest | cycle => rfl
  | follow _ _ _ _ _ ih => exact ih.trans Running.alive_enter

/-- A resolution that enters no state leaves the automaton as it is, and its host only hears of
guards that fail. -/
theorem of_path_eq_nil (h : Course d e s visited a t rounds out) (hpath : path rounds = []) :
    out.2.1 = a ∧ ∃ failures, out.2.2 = complain t failures := by
  cases h with
  | halt => exact ⟨rfl, [], rfl⟩
  | rest => exact ⟨rfl, _, rfl⟩
  | cycle => exact ⟨rfl, _, rfl⟩
  | follow =>
    rw [path_follow] at hpath
    cases hpath

theorem guardFailed_of_path_eq_nil (h : Course d e s visited a t rounds out)
    (hpath : path rounds = []) : ∀ c ∈ rounds.flatMap Round.calls,
      ∃ g reason, c = .notice (.failure (.guardFailed g reason)) := by
  have hcalls : ∀ {taken : Option Nat} {failures : List Error}, Selects d e a s taken failures →
      ∀ c ∈ [Round.mk a s taken failures []].flatMap Round.calls,
        ∃ g reason, c = .notice (.failure (.guardFailed g reason)) := by
    intro taken failures hs c hc
    simp only [List.flatMap_cons, List.flatMap_nil, Round.calls, List.append_nil] at hc
    obtain ⟨x, hx, rfl⟩ := List.mem_map.1 hc
    obtain ⟨g, reason, rfl⟩ := hs.guardFailed hx
    exact ⟨g, reason, rfl⟩
  cases h with
  | halt => simp
  | rest _ hs => exact hcalls hs
  | cycle _ hs => exact hcalls hs
  | follow =>
    rw [path_follow] at hpath
    cases hpath

theorem lastEntry (h : Course d e s visited a t rounds out) :
    ∀ x ∈ (path rounds).getLast?, ∃ a₀, LastEntry d e a₀ x out.2.1 out.2.2 := by
  induction h with
  | halt => simp
  | rest => simp
  | cycle => simp
  | @follow s visited a t i failures u rounds out ha _ _ _ hrest ih =>
    rw [path_follow, List.getLast?_cons]
    intro x hx
    cases hx
    cases hlast : (path rounds).getLast? with
    | some x => exact ih x hlast
    | none =>
      obtain ⟨hsame, failures', hhost⟩ := hrest.of_path_eq_nil (List.getLast?_eq_none_iff.1 hlast)
      exact ⟨a, ha.2, _, _, hsame, hhost⟩

/-- How a resolution ends: the automaton has been ended, or no transition is taken, or the one that
is taken leads to a state visited before. -/
theorem ends (h : Course d e s visited a t rounds out) :
    (¬ out.2.1.Active ∧ out.1 = .ok ())
      ∨ (out.2.1.Active ∧ out.1 = .ok () ∧ ∃ failures,
        Selects d e out.2.1 (if path rounds = [] then s else .immediate) none failures)
      ∨ (out.2.1.Active ∧ ∃ u, Takes d e out.2.1 (if path rounds = [] then s else .immediate) u
        ∧ u.target ∈ visited ++ path rounds ∧ out.1 = .error (.cycleDetected u.target)) := by
  induction h with
  | halt ha => exact .inl ⟨ha, rfl⟩
  | rest ha hs => exact .inr (.inl ⟨ha, rfl, _, by simpa using hs⟩)
  | cycle ha hs hi hv =>
    exact .inr (.inr ⟨ha, _, by simpa using ⟨_, _, hs, hi⟩, by simpa using hv, rfl⟩)
  | follow _ _ _ _ _ ih =>
    rw [path_follow, if_neg (List.cons_ne_nil _ _)]
    rw [ite_self] at ih
    rcases ih with hhalt | hrest | ⟨ha, u', hu, hmem, hres⟩
    · exact .inl hhalt
    · exact .inr (.inl hrest)
    · refine .inr (.inr ⟨ha, u', hu, ?_, hres⟩)
      rw [List.mem_append, List.mem_cons]
      rcases List.mem_append.1 hmem with hmem | hmem
      · rcases List.mem_cons.1 hmem with heq | hmem
        · exact .inr (.inl heq)
        · exact .inl hmem
      · exact .inr (.inr hmem)

end Course

end Course

end RemoteAutomaton.Automaton
