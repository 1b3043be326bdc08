import Mathlib.Data.List.Forall2
import RemoteAutomaton.Proofs.Entry
import RemoteAutomaton.Proofs.Operation

/-!
# Hosts that answer alike

An automaton cannot tell two hosts apart that give the same answers, up to how they name their
timers (`Simulation`): whatever it does with one it does with the other, the hosts stay related, and
the interpreters stay alike (`Interpreter.Alike`, `Simulation.perform`).  With a host beside itself
this says that what its calls keep every operation keeps (`Interpreter.perform_invariant`).

Tracing a host is such a case, so the calls that `log` tells are those of the host as it is
(`perform_traced`), and what is stable on traced hosts holds of the calls (`stable_traced`).
-/

namespace RemoteAutomaton.Automaton

open Machine (Definition Transition Delay)

variable {σ τ : Type} [Host σ] [Host τ]

/-- Two answers to a request for a timer: the same failure, or timers that belong together. -/
def SameAnswer (I : TimerId → TimerId → Prop) : Except Error TimerId → Except Error TimerId → Prop
  | .ok i, .ok j => I i j
  | .error e, .error e' => e = e'
  | _, _ => False

/-- Related hosts stay related and answer alike.  A timer that waits for no time is never asked
for. -/
structure Simulation (R : σ → τ → Prop) (I : TimerId → TimerId → Prop) : Prop where
  notify : ∀ {h k} (n : Notice), R h k → R (Host.notify h n) (Host.notify k n)
  cancel : ∀ {h k i j}, R h k → I i j → R (Host.cancel h i) (Host.cancel k j)
  schedule : ∀ {h k ms} (target : String), R h k → 0 < ms →
    SameAnswer I (Host.schedule h ms target).1 (Host.schedule k ms target).1
      ∧ R (Host.schedule h ms target).2 (Host.schedule k ms target).2

/-- Timers of the same transitions that belong together. -/
abbrev SameTimers (I : TimerId → TimerId → Prop) : List Pending → List Pending → Prop :=
  List.Forall₂ fun p q => I p.id q.id ∧ p.transition = q.transition

/-- Two automata that differ at most in the names of their timers. -/
def Running.Alike (I : TimerId → TimerId → Prop) (a b : Running) : Prop :=
  ∃ ts, b = { a with timers := ts } ∧ SameTimers I a.timers ts

theorem SameTimers.eq : ∀ {l l' : List Pending}, SameTimers Eq l l' → l = l'
  | _, _, .nil => rfl
  | ⟨_, _⟩ :: _, ⟨_, _⟩ :: _, .cons ⟨rfl, rfl⟩ h => congrArg _ (SameTimers.eq h)

theorem sameTimers_refl : ∀ l : List Pending, SameTimers Eq l l
  | [] => .nil
  | _ :: l => .cons ⟨rfl, rfl⟩ (sameTimers_refl l)

theorem Running.alike_eq_iff {a b : Running} : Running.Alike Eq a b ↔ a = b := by
  constructor
  · rintro ⟨ts, rfl, h⟩
    rw [← h.eq]
  · rintro rfl
    exact ⟨a.timers, rfl, sameTimers_refl _⟩

namespace Running.Alike

variable {I : TimerId → TimerId → Prop} {a b : Running}

theorem current (hab : Alike I a b) : b.current = a.current := by
  obtain ⟨ts, rfl, -⟩ := hab
  rfl

theorem active (hab : Alike I a b) : b.Active ↔ a.Active := by
  obtain ⟨ts, rfl, -⟩ := hab
  rfl

theorem of_no_timers (ha : a.timers = []) : Alike I a a :=
  ⟨[], by rw [← ha], by rw [ha]; exact .nil⟩

end Running.Alike

namespace Simulation

open Running

variable {R : σ → τ → Prop} {I : TimerId → TimerId → Prop} (hS : Simulation R I)
  {d : Definition} {e : Evaluator} {a b : Running} {h : σ} {k : τ}

include hS

theorem firstEligible {trigger : Option String} {ts : List Pending} :
    ∀ (l : List Nat) {h : σ} {k : τ}, R h k →
      (Running.firstEligible d e a trigger h l).1
          = (Running.firstEligible d e { a with timers := ts } trigger k l).1
        ∧ R (Running.firstEligible d e a trigger h l).2
            (Running.firstEligible d e { a with timers := ts } trigger k l).2
  | [], _, _, hR => ⟨rfl, hR⟩
  | i :: rest, h, k, hR => by
    simp only [Running.firstEligible]
    rcases d.transitions[i]? with _ | t
    · exact firstEligible rest hR
    · dsimp only
      rcases t.guard with _ | g
      · exact ⟨rfl, hR⟩
      · dsimp only [Running.bindings]
        rcases e.guard g ⟨a.vars, a.inputs, a.outputs⟩ trigger with m | _ | _
        · exact firstEligible rest (hS.notify _ hR)
        · exact firstEligible rest hR
        · exact ⟨rfl, hR⟩

theorem apply (x : Effect) (hR : R h k) :
    (a.apply d h x).1 = (a.apply d k x).1 ∧ R (a.apply d h x).2 (a.apply d k x).2 := by
  cases x with
  | assign name value =>
    simp only [Running.apply]
    split
    all_goals exact ⟨rfl, hS.notify _ hR⟩
  | write name value =>
    simp only [Running.apply]
    split
    all_goals exact ⟨rfl, hS.notify _ hR⟩
  | log text => exact ⟨rfl, hS.notify _ hR⟩
  | terminate => exact ⟨rfl, hR⟩

theorem applyAll : ∀ (l : List Effect) {a : Running} {h : σ} {k : τ}, R h k →
    (a.applyAll d h l).1 = (a.applyAll d k l).1 ∧ R (a.applyAll d h l).2 (a.applyAll d k l).2
  | [], _, _, _, hR => ⟨rfl, hR⟩
  | x :: rest, a, h, k, hR => by
    obtain ⟨ha, hR'⟩ := hS.apply (d := d) (a := a) x hR
    simp only [Running.applyAll]
    rw [ha]
    exact applyAll rest hR'

theorem runAction (action : String) (hR : R h k) :
    (a.runAction d e h action).1 = (a.runAction d e k action).1
      ∧ R (a.runAction d e h action).2 (a.runAction d e k action).2 := by
  simp only [Running.runAction]
  split
  · exact hS.applyAll _ hR
  · exact ⟨rfl, hS.notify _ hR⟩

theorem runEntry (target : String) (hR : R h k) :
    (a.runEntry d e h target).1 = (a.runEntry d e k target).1
      ∧ R (a.runEntry d e h target).2 (a.runEntry d e k target).2 := by
  simp only [Running.runEntry]
  split
  · exact hS.runAction _ hR
  · exact ⟨rfl, hR⟩

theorem cancelAll : ∀ {l l' : List Pending} {h : σ} {k : τ}, SameTimers I l l' → R h k →
    R (Running.cancelAll h l) (Running.cancelAll k l')
  | _, _, _, _, .nil, hR => hR
  | _ :: _, _ :: _, _, _, .cons hp hl, hR => by
    simp only [Running.cancelAll]
    exact cancelAll hl (hS.cancel hR hp.1)

theorem request {delay : Delay} {t : Transition} (ts : List Pending) (ht : t ∈ d.transitions)
    (hd : t.trigger = .delayed delay) (hR : R h k) :
    SameAnswer I (a.request h delay t.target).1
        (({ a with timers := ts } : Running).request k delay t.target).1
      ∧ R (a.request h delay t.target).2
          (({ a with timers := ts } : Running).request k delay t.target).2 := by
  have hres : ({ a with timers := ts } : Running).resolve delay = a.resolve delay := by
    cases delay <;> rfl
  simp only [Running.request, hres]
  rcases hms : a.resolve delay with e | ms
  · exact ⟨rfl, hR⟩
  · exact hS.schedule _ hR (resolve_pos ht hd hms)

theorem scheduleAll : ∀ (l : List Nat) {a b : Running} {h : σ} {k : τ}, Alike I a b → R h k →
    Alike I (a.scheduleAll d h l).1 (b.scheduleAll d k l).1
      ∧ R (a.scheduleAll d h l).2 (b.scheduleAll d k l).2
  | [], _, _, _, _, hab, hR => ⟨hab, hR⟩
  | i :: rest, a, b, h, k, hab, hR => by
    simp only [Running.scheduleAll]
    rcases hi : d.transitions[i]? with _ | t
    · exact scheduleAll rest hab hR
    · dsimp only
      rcases ht : t.trigger with _ | _ | delay
      · exact scheduleAll rest hab hR
      · exact scheduleAll rest hab hR
      · dsimp only
        obtain ⟨ts, rfl, hts⟩ := hab
        have hreq := hS.request (a := a) ts (Array.mem_of_getElem? hi) ht hR
        generalize a.request h delay t.target = x at hreq ⊢
        generalize ({ a with timers := ts } : Running).request k delay t.target = y at hreq ⊢
        obtain ⟨r, h'⟩ := x
        obtain ⟨r', k'⟩ := y
        obtain ⟨hans, hR'⟩ := hreq
        cases r with
        | error e =>
          cases r' with
          | error e' =>
            cases hans
            exact scheduleAll rest ⟨ts, rfl, hts⟩ (hS.notify _ hR')
          | ok j => exact hans.elim
        | ok i' =>
          cases r' with
          | error e' => exact hans.elim
          | ok j =>
            refine scheduleAll rest ⟨ts ++ [⟨j, i⟩], rfl, ?_⟩ hR'
            exact List.rel_append hts (.cons ⟨hans, rfl⟩ .nil)

theorem select {trigger : Option String} {l : List Nat} {r : Option Transition} {h' : σ}
    (hs : Running.firstEligible d e a trigger h l = (r, h')) (hab : Alike I a b) (hR : R h k) :
    ∃ k', Running.firstEligible d e b trigger k l = (r, k') ∧ R h' k' := by
  obtain ⟨ts, rfl, -⟩ := hab
  obtain ⟨hr, hR'⟩ := hS.firstEligible (d := d) (e := e) (a := a) l hR
  rw [hs] at hr hR'
  exact ⟨_, Prod.ext hr.symm rfl, hR'⟩

theorem arrive (target : String) (hab : Alike I a b) (hR : R h k) :
    (a.arrive d e h target).1 = (b.arrive d e k target).1
      ∧ R (a.arrive d e h target).2 (b.arrive d e k target).2 := by
  obtain ⟨ts, rfl, hts⟩ := hab
  exact hS.runEntry target (hS.cancelAll hts hR)

theorem enter (target : String) (hab : Alike I a b) (hR : R h k) :
    Alike I (a.enter d e h target).1 (b.enter d e k target).1
      ∧ R (a.enter d e h target).2 (b.enter d e k target).2 := by
  obtain ⟨ha, hR'⟩ := hS.arrive (d := d) (e := e) target hab hR
  rw [enter_eq, enter_eq]
  refine hS.scheduleAll _ ?_ (hS.notify _ hR')
  rw [← ha]
  exact Alike.of_no_timers timers_arrive

theorem settle {visited : List String} (hab : Alike I a b) (hR : R h k) :
    (a.settle d e h visited).1 = (b.settle d e k visited).1
      ∧ Alike I (a.settle d e h visited).2.1 (b.settle d e k visited).2.1
      ∧ R (a.settle d e h visited).2.2 (b.settle d e k visited).2.2 := by
  fun_induction Running.settle d e a h visited generalizing b k with
  | case1 a h visited hact h' hs =>
    obtain ⟨k', hs', hR'⟩ := hS.select hs hab hR
    rw [settle_of_none (hab.active.2 hact) (hab.current ▸ hs')]
    exact ⟨rfl, hab, hR'⟩
  | case2 a h visited hact t h' hs hv =>
    obtain ⟨k', hs', hR'⟩ := hS.select hs hab hR
    rw [settle_of_mem (hab.active.2 hact) (hab.current ▸ hs') hv]
    exact ⟨rfl, hab, hR'⟩
  | case3 a h visited hact t h' hs hv a₁ h₁ he ih =>
    obtain ⟨k', hs', hR'⟩ := hS.select hs hab hR
    obtain ⟨ha₁, hR₁⟩ := hS.enter (d := d) (e := e) t.target hab hR'
    rw [settle_of_notMem (hab.active.2 hact) (hab.current ▸ hs') hv]
    rw [he] at ha₁ hR₁
    exact ih ha₁ hR₁
  | case4 a h visited hact =>
    rw [settle_of_not_active (mt hab.active.1 hact)]
    exact ⟨rfl, hab, hR⟩

theorem moveTo (target : String) (hab : Alike I a b) (hR : R h k) :
    (a.moveTo d e h target).1 = (b.moveTo d e k target).1
      ∧ Alike I (a.moveTo d e h target).2.1 (b.moveTo d e k target).2.1
      ∧ R (a.moveTo d e h target).2.2 (b.moveTo d e k target).2.2 := by
  obtain ⟨ha, hR'⟩ := hS.enter (d := d) (e := e) target hab hR
  exact hS.settle ha hR'

theorem react {name value : String} (hab : Alike I a b) (hR : R h k) :
    (a.react d e h name value).1 = (b.react d e k name value).1
      ∧ Alike I (a.react d e h name value).2.1 (b.react d e k name value).2.1
      ∧ R (a.react d e h name value).2.2 (b.react d e k name value).2.2 := by
  rcases hs : Running.firstEligible d e a (some value) h (d.eventFrom a.current name) with ⟨r, h'⟩
  obtain ⟨k', hs', hR'⟩ := hS.select hs hab hR
  rw [← hab.current] at hs'
  simp only [Running.react, hs, hs']
  cases r with
  | none => exact ⟨rfl, hab, hR'⟩
  | some t => exact hS.moveTo _ hab hR'

theorem notifyAll {α : Type} (f : α → Notice) : ∀ (l : List α) {h : σ} {k : τ}, R h k →
    R (l.foldl (fun h x => Host.notify h (f x)) h) (l.foldl (fun k x => Host.notify k (f x)) k)
  | [], _, _, hR => hR
  | x :: rest, _, _, hR => notifyAll f rest (hS.notify (f x) hR)

theorem report (hab : Alike I a b) (hR : R h k) : R (a.report d h) (b.report d k) := by
  obtain ⟨ts, rfl, -⟩ := hab
  exact hS.notifyAll _ _ (hS.notifyAll _ _ (hS.notify _ hR))

end Simulation

/-! ### Interpreters -/

/-- Two interpreters of the same machine that differ at most in the names of their timers. -/
structure Interpreter.Alike (I : TimerId → TimerId → Prop) (m n : Interpreter) : Prop where
  definition : n.definition = m.definition
  evaluator : n.evaluator = m.evaluator
  running : Option.Rel (Running.Alike I) m.running n.running

/-- Two ids of the same pending timer, or of none. -/
def Interpreter.SameId (m n : Interpreter) (i j : TimerId) : Prop :=
  ∀ a b, m.running = some a → n.running = some b →
    List.Forall₂ (fun p q : Pending => p.id = i ↔ q.id = j) a.timers b.timers

/-- The same operation, or expiries of timers that belong together. -/
inductive SameOperation (P : TimerId → TimerId → Prop) : Operation → Operation → Prop
  | fire {i j : TimerId} (h : P i j) : SameOperation P (.fire i) (.fire j)
  | other {op : Operation} (h : ∀ i, op ≠ .fire i) : SameOperation P op op

/-- Two outcomes that differ at most in related hosts and the names of timers. -/
structure SameOutcome {α : Type} (I : TimerId → TimerId → Prop) (R : σ → τ → Prop)
    (o : Outcome σ α) (o' : Outcome τ α) : Prop where
  result : o.result = o'.result
  interpreter : o.interpreter.Alike I o'.interpreter
  host : R o.host o'.host

omit [Host σ] [Host τ] in
theorem SameOutcome.map {α β : Type} {I : TimerId → TimerId → Prop} {R : σ → τ → Prop}
    {o : Outcome σ α} {o' : Outcome τ α} (ho : SameOutcome I R o o') (f : α → β) :
    SameOutcome I R ⟨o.result.map f, o.interpreter, o.host⟩
      ⟨o'.result.map f, o'.interpreter, o'.host⟩ :=
  ⟨by rw [ho.result], ho.interpreter, ho.host⟩

theorem Interpreter.Alike.cases {I : TimerId → TimerId → Prop} {m n : Interpreter}
    (h : m.Alike I n) : (m.running = none ∧ n.running = none)
      ∨ ∃ a b, m.running = some a ∧ n.running = some b ∧ Running.Alike I a b := by
  obtain ⟨-, -, h⟩ := h
  generalize m.running = x at h
  generalize n.running = y at h
  cases h with
  | none => exact .inl ⟨rfl, rfl⟩
  | some hab => exact .inr ⟨_, _, rfl, rfl, hab⟩

theorem Interpreter.Alike.isTerminating {I : TimerId → TimerId → Prop} {m n : Interpreter}
    (h : m.Alike I n) : n.isTerminating = m.isTerminating := by
  rcases h.cases with ⟨ha, hb⟩ | ⟨a, b, ha, hb, ts, rfl, -⟩
  all_goals rw [Interpreter.isTerminating, Interpreter.isTerminating, ha, hb]
  rfl

/-- A terminated automaton has no timers that could have other names. -/
theorem Interpreter.Alike.terminate {I : TimerId → TimerId → Prop} {m n : Interpreter}
    (hm : m.Alike I n) (h : σ) (k : τ) : (m.terminate h).1.Alike I (n.terminate k).1 := by
  rcases hm.cases with ⟨ha, hb⟩ | ⟨a, b, ha, hb, ts, rfl, -⟩
  · simp only [Interpreter.terminate, ha, hb]
    exact hm
  · simp only [Interpreter.terminate, ha, hb]
    exact ⟨hm.definition, hm.evaluator, .some ⟨[], rfl, .nil⟩⟩

theorem Interpreter.alike_eq_iff {m n : Interpreter} : m.Alike Eq n ↔ m = n := by
  constructor
  · obtain ⟨d, e, x⟩ := m
    obtain ⟨d', e', y⟩ := n
    rintro ⟨hd, he, hxy⟩
    cases hd
    cases he
    cases hxy with
    | none => rfl
    | some hab => rw [Running.alike_eq_iff.1 hab]
  · rintro rfl
    refine ⟨rfl, rfl, ?_⟩
    cases m.running with
    | none => exact .none
    | some a => exact .some (Running.alike_eq_iff.2 rfl)

theorem sameOperation_refl (m : Interpreter) (op : Operation) :
    SameOperation (m.SameId m) op op := by
  by_cases hop : ∀ i, op ≠ .fire i
  · exact .other hop
  · obtain ⟨i, rfl⟩ : ∃ i, op = .fire i := by simpa using hop
    refine .fire fun a b ha hb => ?_
    rw [ha] at hb
    cases hb
    exact List.forall₂_same.2 fun p _ => Iff.rfl

/-- Timers that belong together are found and taken out together. -/
theorem SameTimers.release {I : TimerId → TimerId → Prop} {i j : TimerId} :
    ∀ {l l' : List Pending}, SameTimers I l l' →
      List.Forall₂ (fun p q : Pending => p.id = i ↔ q.id = j) l l' →
      (l.find? (·.id = i)).map (·.transition) = (l'.find? (·.id = j)).map (·.transition)
        ∧ SameTimers I (l.eraseP (·.id = i)) (l'.eraseP (·.id = j))
  | [], [], .nil, .nil => ⟨rfl, .nil⟩
  | p :: l, q :: l', .cons hpq hl, .cons hid hids => by
    obtain ⟨hfind, herase⟩ := SameTimers.release hl hids
    by_cases hp : p.id = i
    · have hq : q.id = j := hid.1 hp
      rw [List.find?_cons_of_pos (by simpa using hp), List.find?_cons_of_pos (by simpa using hq),
        List.eraseP_cons_of_pos (by simpa using hp), List.eraseP_cons_of_pos (by simpa using hq)]
      exact ⟨congrArg some hpq.2, hl⟩
    · have hq : ¬ q.id = j := mt hid.2 hp
      rw [List.find?_cons_of_neg (by simpa using hp), List.find?_cons_of_neg (by simpa using hq),
        List.eraseP_cons_of_neg (by simpa using hp), List.eraseP_cons_of_neg (by simpa using hq)]
      exact ⟨hfind, .cons hpq herase⟩

namespace Simulation

variable {R : σ → τ → Prop} {I : TimerId → TimerId → Prop} (hS : Simulation R I)
  {m n : Interpreter} {h : σ} {k : τ}

omit [Host σ] [Host τ] in
theorem alike_withRunning {a b : Running} (hm : m.Alike I n) (hab : Running.Alike I a b) :
    (m.withRunning a).Alike I (n.withRunning b) :=
  ⟨hm.definition, hm.evaluator, .some hab⟩

omit [Host σ] [Host τ] in
theorem sameOutcome_of_resolution {r : Except Error Unit × Running × σ}
    {r' : Except Error Unit × Running × τ} (hm : m.Alike I n)
    (hr : r.1 = r'.1 ∧ Running.Alike I r.2.1 r'.2.1 ∧ R r.2.2 r'.2.2) :
    SameOutcome I R (m.resolved r) (n.resolved r')
      ∧ SameOutcome I R (m.answered r) (n.answered r') := by
  obtain ⟨hres, hab, hR⟩ := hr
  refine ⟨⟨hres, alike_withRunning hm hab, hR⟩, ⟨?_, alike_withRunning hm hab, hR⟩⟩
  obtain ⟨ts, hb, -⟩ := hab
  simp only [Interpreter.answered, hres, hb]

include hS

theorem step (event : Option (String × String)) (hm : m.Alike I n) (hR : R h k) :
    SameOutcome I R (m.step h event) (n.step k event) := by
  rcases hm.cases with ⟨ha, hb⟩ | ⟨a, b, ha, hb, hab⟩
  · simp only [Interpreter.step, ha, hb]
    exact ⟨rfl, hm, hR⟩
  · obtain ⟨ts, hbts, -⟩ := id hab
    have halive : b.alive = a.alive := by rw [hbts]
    have hend : b.terminating = a.terminating := by rw [hbts]
    simp only [Interpreter.step, ha, hb, halive, hend, hm.definition, hm.evaluator]
    split_ifs
    · exact ⟨rfl, hm, hR⟩
    · rcases event with _ | ⟨name, value⟩
      · exact (sameOutcome_of_resolution hm (hS.settle hab hR)).2
      · exact (sameOutcome_of_resolution hm (hS.react hab hR)).2
    · exact ⟨rfl, hm, hR⟩

theorem start (hm : m.Alike I n) (hR : R h k) : SameOutcome I R (m.start h) (n.start k) := by
  rcases hm.cases with ⟨ha, hb⟩ | ⟨a, b, ha, hb, hab⟩
  · simp only [Interpreter.start, ha, hb, hm.definition, hm.evaluator]
    rcases m.definition.initial with _ | s
    · exact ⟨rfl, hm, hR⟩
    · dsimp only
      split_ifs
      · exact (sameOutcome_of_resolution hm (hS.moveTo s (Running.Alike.of_no_timers rfl) hR)).1
      · exact ⟨rfl, hm, hR⟩
  · simp only [Interpreter.start, ha, hb]
    exact ⟨rfl, hm, hR⟩

theorem fireTimer {i j : TimerId} (hm : m.Alike I n) (hij : m.SameId n i j) (hR : R h k) :
    SameOutcome I R (m.fireTimer h i) (n.fireTimer k j) := by
  rcases hm.cases with ⟨ha, hb⟩ | ⟨a, b, ha, hb, hab⟩
  · simp only [Interpreter.fireTimer, ha, hb]
    exact ⟨rfl, hm, hR⟩
  · obtain ⟨ts, rfl, hts⟩ := id hab
    obtain ⟨hfind, herase⟩ := hts.release (hij a _ ha hb)
    by_cases hact : a.Active
    · rcases hp : a.timers.find? (·.id = i) with _ | p
      · rw [hp] at hfind
        rw [Interpreter.fireTimer_of_not_pending ha hp,
          Interpreter.fireTimer_of_not_pending hb (Option.map_eq_none_iff.1 hfind.symm)]
        exact ⟨rfl, hm, hR⟩
      · rw [hp] at hfind
        obtain ⟨q, hq, hpq⟩ := Option.map_eq_some_iff.1 hfind.symm
        have hab' : Running.Alike I (a.release i) (Running.release { a with timers := ts } j) :=
          ⟨_, rfl, herase⟩
        rw [Interpreter.fireTimer_of_pending ha hact hp,
          Interpreter.fireTimer_of_pending hb (hab.active.2 hact) hq, hpq, hm.definition,
          hm.evaluator]
        rcases hs : (a.release i).firstEligible m.definition m.evaluator none h [p.transition]
          with ⟨r, h'⟩
        obtain ⟨k', hs', hR'⟩ := hS.select hs hab' hR
        rw [hs']
        rcases r with _ | t
        · exact ⟨rfl, alike_withRunning hm hab', hR'⟩
        · exact (sameOutcome_of_resolution hm (hS.moveTo t.target hab' hR')).2
    · rw [Interpreter.fireTimer_of_not_active ha hact,
        Interpreter.fireTimer_of_not_active hb (mt hab.active.1 hact)]
      exact ⟨rfl, hm, hR⟩

theorem moveTo' (target : String) (hm : m.Alike I n) (hR : R h k) :
    SameOutcome I R (m.moveTo h target) (n.moveTo k target) := by
  rcases hm.cases with ⟨ha, hb⟩ | ⟨a, b, ha, hb, hab⟩
  · simp only [Interpreter.moveTo, ha, hb]
    exact ⟨rfl, hm, hR⟩
  · simp only [Interpreter.moveTo, ha, hb, hm.definition, hm.evaluator]
    split_ifs
    · exact (sameOutcome_of_resolution hm (hS.moveTo target hab hR)).1
    · exact ⟨rfl, hm, hR⟩

theorem input (name value : String) (hm : m.Alike I n) (hR : R h k) :
    SameOutcome I R (m.processInput h name value) (n.processInput k name value) := by
  rcases hm.cases with ⟨ha, hb⟩ | ⟨a, b, ha, hb, ts, rfl, hts⟩
  · simp only [Interpreter.processInput, ha, hb]
    exact ⟨rfl, hm, hR⟩
  · simp only [Interpreter.processInput, ha, hb]
    exact hS.step _ (alike_withRunning hm ⟨ts, rfl, hts⟩) hR

/-- Whatever the operation, the results are the same with both hosts, and the interpreters are alike
after it if they were before. -/
theorem perform {op op' : Operation} (hop : SameOperation (m.SameId n) op op')
    (hm : m.Alike I n) (hR : R h k) :
    SameOutcome I R (m.perform h op) (n.perform k op') := by
  cases hop with
  | fire hij => exact (hS.fireTimer hm hij hR).map _
  | other hne =>
    cases op with
    | start => exact (hS.start hm hR).map _
    | step event => exact (hS.step event hm hR).map _
    | input name value => exact (hS.input name value hm hR).map _
    | fire id => exact absurd rfl (hne id)
    | moveTo target => exact (hS.moveTo' target hm hR).map _
    | report =>
      rcases hm.cases with ⟨ha, hb⟩ | ⟨a, b, ha, hb, hab⟩
      · simp only [Interpreter.perform, Interpreter.reportStatus, ha, hb]
        exact ⟨rfl, hm, hR⟩
      · simp only [Interpreter.perform, Interpreter.reportStatus, ha, hb, hm.definition]
        exact ⟨rfl, hm, hS.report hab hR⟩
    | terminate =>
      refine ⟨rfl, hm.terminate h k, ?_⟩
      rcases hm.cases with ⟨ha, hb⟩ | ⟨a, b, ha, hb, ts, rfl, hts⟩
      · simp only [Interpreter.perform, Interpreter.terminate, ha, hb]
        exact hR
      · simp only [Interpreter.perform, Interpreter.terminate, ha, hb]
        exact hS.cancelAll hts hR

omit hS in
/-- With hosts that name their timers alike, the interpreters are the same after any operation. -/
theorem perform_eq (hS : Simulation R Eq) (op : Operation) (hR : R h k) :
    (m.perform h op).result = (m.perform k op).result
      ∧ (m.perform h op).interpreter = (m.perform k op).interpreter
      ∧ R (m.perform h op).host (m.perform k op).host := by
  obtain ⟨hres, hm, hR'⟩ :=
    hS.perform (sameOperation_refl m op) (Interpreter.alike_eq_iff.2 rfl) hR
  exact ⟨hres, Interpreter.alike_eq_iff.1 hm, hR'⟩

end Simulation

/-- What the calls of a host keep, every operation keeps. -/
theorem Interpreter.perform_invariant {P : σ → Prop}
    (hnotify : ∀ h n, P h → P (Host.notify h n)) (hcancel : ∀ h id, P h → P (Host.cancel h id))
    (hschedule : ∀ h ms target, P h → P (Host.schedule h ms target).2)
    (m : Interpreter) {h : σ} (op : Operation) (hP : P h) : P (m.perform h op).host := by
  have hS : Simulation (fun h k : σ => h = k ∧ P h) Eq := by
    refine ⟨?_, ?_, ?_⟩
    · rintro h _ n ⟨rfl, hP⟩
      exact ⟨rfl, hnotify h n hP⟩
    · rintro h _ i _ ⟨rfl, hP⟩ rfl
      exact ⟨rfl, hcancel h i hP⟩
    · rintro h _ ms target ⟨rfl, hP⟩ -
      refine ⟨?_, rfl, hschedule h ms target hP⟩
      rcases (Host.schedule h ms target).1 with e | id
      all_goals exact rfl
  exact (hS.perform_eq op ⟨rfl, hP⟩).2.2.2

/-! ### Traced hosts -/

/-- A traced host acts like the host. -/
theorem simulation_host : Simulation (fun (t : Traced σ) h => t.host = h) Eq where
  notify _ hR := by subst hR; rfl
  cancel hR hi := by subst hR hi; rfl
  schedule {t h ms} target hR _ := by
    subst hR
    simp only [Host.schedule]
    rcases Host.schedule t.host ms target with ⟨e | id, h'⟩
    all_goals exact ⟨rfl, trivial⟩

/-- The calls that a traced host received earlier stay behind those it receives. -/
theorem simulation_calls (calls : List HostCall) :
    Simulation (fun t u : Traced σ => u = ⟨t.host, t.calls ++ calls⟩) Eq where
  notify _ hR := by subst hR; rfl
  cancel hR hi := by subst hR hi; rfl
  schedule {t u ms} target hR _ := by
    subst hR
    simp only [Host.schedule]
    rcases Host.schedule t.host ms target with ⟨e | id, h'⟩
    all_goals exact ⟨rfl, rfl⟩

namespace Interpreter

variable {m : Interpreter} {h : σ} {op : Operation}

/-- On a traced host an operation does what it does on the host, and adds its calls. -/
theorem perform_traced (calls : List HostCall) :
    (m.perform (⟨h, calls⟩ : Traced σ) op).interpreter = (m.perform h op).interpreter
      ∧ (m.perform (⟨h, calls⟩ : Traced σ) op).host
        = ⟨(m.perform h op).host, (m.callsOf h op).reverse ++ calls⟩ := by
  obtain ⟨-, hm, hh⟩ := simulation_host.perform_eq (m := m) op (rfl : (⟨h, []⟩ : Traced σ).host = h)
  obtain ⟨-, hm', hh'⟩ := (simulation_calls calls).perform_eq (m := m)
    (h := (⟨h, []⟩ : Traced σ)) op rfl
  refine ⟨hm'.symm.trans hm, hh'.trans ?_⟩
  rw [hh, callsOf, List.reverse_reverse]

/-- A stable property of the traced host that holds once an operation is prepared holds after it,
of the automaton as the operation leaves it on the host itself. -/
theorem stable_traced {P : Running → Traced σ → Prop}
    (hP : Running.Stable m.definition m.evaluator P) {a : Running} (hm : m.running = some a)
    (ha : P (op.prepare m.definition a (⟨h, []⟩ : Traced σ)).1
      (op.prepare m.definition a (⟨h, []⟩ : Traced σ)).2) :
    ∃ a', (m.perform h op).interpreter.running = some a'
      ∧ P a' ⟨(m.perform h op).host, (m.callsOf h op).reverse⟩ := by
  obtain ⟨a', hrun, ha'⟩ := stable_perform hP hm ha
  obtain ⟨hm', hh⟩ := perform_traced (m := m) (h := h) []
  rw [hm'] at hrun
  rw [hh, List.append_nil] at ha'
  exact ⟨a', hrun, ha'⟩

theorem stable_traced_start {P : Running → Traced σ → Prop}
    (hP : Running.Stable m.definition m.evaluator P) {s : String} (hm : m.running = none)
    (hs : m.definition.initial = some s)
    (ha : P ((Running.initially m.definition s).enter m.definition m.evaluator
        (⟨h, []⟩ : Traced σ) s).1
      ((Running.initially m.definition s).enter m.definition m.evaluator
        (⟨h, []⟩ : Traced σ) s).2) :
    ∃ a', (m.perform h .start).interpreter.running = some a'
      ∧ P a' ⟨(m.perform h .start).host, (m.callsOf h .start).reverse⟩ := by
  obtain ⟨a', hrun, ha'⟩ := stable_start hP hm hs ha
  obtain ⟨hm', hh⟩ := perform_traced (m := m) (h := h) []
  rw [hm'] at hrun
  rw [hh, List.append_nil] at ha'
  exact ⟨a', hrun, ha'⟩

theorem stable_traced_started {P : Running → Traced σ → Prop}
    (hP : Running.Stable m.definition m.evaluator P)
    (hstart : ∀ s, P ((Running.initially m.definition s).enter m.definition m.evaluator
        (⟨h, []⟩ : Traced σ) s).1
      ((Running.initially m.definition s).enter m.definition m.evaluator
        (⟨h, []⟩ : Traced σ) s).2)
    (hprep : ∀ a, m.running = some a →
      P (op.prepare m.definition a (⟨h, []⟩ : Traced σ)).1
        (op.prepare m.definition a (⟨h, []⟩ : Traced σ)).2)
    {a : Running} (ha : (m.perform h op).interpreter.running = some a) :
    P a ⟨(m.perform h op).host, (m.callsOf h op).reverse⟩ := by
  obtain ⟨hm', hh⟩ := perform_traced (m := m) (h := h) []
  rw [← hm'] at ha
  have ha' := stable_started hP (fun s _ => hstart s) hprep ha
  rwa [hh, List.append_nil] at ha'

end Interpreter

end RemoteAutomaton.Automaton
