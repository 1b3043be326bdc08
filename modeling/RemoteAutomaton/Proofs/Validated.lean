import RemoteAutomaton.CommandLine.Blink
import RemoteAutomaton.Proofs.Attempts
import RemoteAutomaton.Proofs.Frame
import RemoteAutomaton.Proofs.Refusal
import RemoteAutomaton.Proofs.TimerMap
import RemoteAutomaton.Proofs.WellFormed

/-!
# What an accepted declaration rules out

An interpreter looks up states, transitions and variables by name or number and has an answer for
what it does not find.  Where the machine comes from an accepted declaration these answers are never
given.  `Moment` lists the times of an operation at which something is looked up, and at each of
them the automaton is `Sound`: its state is declared, the transitions that it uses are declared ones
that leave this state, and the variables of their delays have values.

So the host is asked only for timers that the declaration calls for (`Wants`), which neither the
recorder nor the schedule turns down for want of a delay.
-/

namespace RemoteAutomaton.Machine

variable {d : Definition} {r : Declaration}

/-- A timer of so many milliseconds for a state is what some transition of a declaration calls
for. -/
structure Declaration.Wants (r : Declaration) (ms : Nat) (target : String) : Prop where
  target_mem : target ∈ r.states.map (·.name)
  pos : 1 ≤ ms
  declared : ∃ t ∈ r.transitions, t.target = target
    ∧ (t.delay = some ms ∨ ∃ v, t.delayVariable = some v ∧ ms < 0x8000000000000000)

theorem Arrow.eq_delay_of_lasts {t : Arrow} {delay : Delay} {vars : Automaton.Values} {ms : Nat}
    (ht : t.trigger = .delayed delay) (hms : delay.Lasts vars ms) :
    t.delay = some ms ∨ ∃ v, t.delayVariable = some v ∧ ms < 0x8000000000000000 := by
  rw [Arrow.trigger] at ht
  split at ht
  · cases ht
  · rename_i hdelay
    cases ht
    rw [Arrow.delay?] at hdelay
    split at hdelay
    · rename_i hfixed
      cases hdelay
      exact .inl (hfixed.trans (congrArg some hms.symm))
    · rename_i v _ hheld
      cases hdelay
      obtain ⟨value, -, -, -, hlt⟩ := hms
      exact .inr ⟨v, hheld, hlt⟩
    · cases hdelay
  · cases ht

end RemoteAutomaton.Machine

namespace RemoteAutomaton.Automaton

open Machine (Declaration Definition)

/-- The numbers of the transitions that an automaton looks up: those of its state that wait for
nothing, for an event or for a time, and those that its timers are for. -/
inductive Running.Uses (d : Definition) (a : Running) : Nat → Prop
  | immediate {i : Nat} (hi : i ∈ d.immediateFrom a.current) : Uses d a i
  | event {i : Nat} {name : String} (hi : i ∈ d.eventFrom a.current name) : Uses d a i
  | delayed {i : Nat} (hi : i ∈ d.delayedFrom a.current) : Uses d a i
  | pending {p : Pending} (hp : p ∈ a.timers) : Uses d a p.transition

/-- Whatever an automaton looks up is there, as the declaration has it. -/
structure Running.Sound (r : Declaration) (d : Definition) (a : Running) : Prop where
  current_mem : a.current ∈ r.states.map (·.name)
  used : ∀ i, a.Uses d i → ∃ t, r.transitions[i]? = some t
    ∧ d.transitions[i]? = some t.transition ∧ t.source = a.current
    ∧ t.target ∈ r.states.map (·.name)
  resolves : ∀ t ∈ d.transitions, ∀ delay, t.trigger = .delayed delay →
    ∀ name, a.resolve delay ≠ .error (.unknownVariable name)

/-- The automaton at some time of an operation that makes these entries: before the operation, once
it is prepared, and at the beginning of an entry, after its action and at its end. -/
inductive Moment {σ : Type} [Host σ] (m : Interpreter) (h : σ) (op : Operation)
    (entries : List (Entry σ)) : Running → Prop
  | before {a : Running} (ha : m.running = some a) : Moment m h op entries a
  | prepared {a : Running} {t : Traced σ} (hp : m.prepared? (⟨h, []⟩ : Traced σ) op = some (a, t)) :
    Moment m h op entries a
  | begun {x : Entry σ} (hx : x ∈ entries) : Moment m h op entries x.automaton
  | arrived {x : Entry σ} (hx : x ∈ entries) :
    Moment m h op entries (x.arrival m.definition m.evaluator)
  | entered {x : Entry σ} (hx : x ∈ entries) :
    Moment m h op entries (x.after m.definition m.evaluator)

section

variable {r : Declaration} {d : Definition} {a : Running} {i : Nat}

theorem Running.Uses.mem_outgoing (ha : a.Placed d) (hi : a.Uses d i) :
    i ∈ d.outgoing a.current := by
  cases hi with
  | immediate hi | event hi | delayed hi => exact List.mem_of_mem_filter hi
  | pending hp => exact List.mem_of_mem_filter (ha.mem hp)

theorem Running.Valid.sound (ha : a.Valid d) (hplaced : a.Placed d) (hr : d.Matches r) :
    a.Sound r d where
  current_mem := hr.stateNames ▸ ha.current_mem
  used i hi := by
    obtain ⟨u, hu, hsource⟩ := Definition.mem_outgoing_iff.1 (hi.mem_outgoing hplaced)
    have htarget := (d.transitions_fit u (Array.mem_of_getElem? hu)).target_mem
    have hdeclared := hu
    rw [hr.getElem?_transitions, Option.map_eq_some_iff] at hdeclared
    obtain ⟨t, ht, rfl⟩ := hdeclared
    exact ⟨t, ht, hu, hsource, hr.states ▸ htarget⟩
  resolves t ht delay hdelay name hx := by
    obtain ⟨reason, heq⟩ :=
      invalidDelay_of_resolve ha.declares ((d.transitions_fit t ht).delay_fits delay hdelay) hx
    cases heq

variable {σ : Type} [Host σ] {e : Evaluator} {m : Interpreter} {h : σ} {op : Operation}
  {entries : List (Entry σ)} {ms : Nat} {target : String}

/-- What a run keeps, an operation keeps all the time. -/
theorem Moment.valid (hmoment : Moment m h op entries a) (hmakes : m.Makes h op entries)
    (hm : ∀ b, m.running = some b → b.Valid m.definition ∧ b.Placed m.definition) :
    a.Valid m.definition ∧ a.Placed m.definition := by
  have hstable := (Running.stable_valid (σ := σ) (d := m.definition) (e := m.evaluator)).and
    Running.stable_placed
  have hprep : ∀ b t, m.prepared? (⟨h, []⟩ : Traced σ) op = some (b, t) →
      b.Valid m.definition ∧ b.Placed m.definition := fun b t =>
    Interpreter.invariant_of_prepared
      (fun _ hs => ⟨Running.valid_initially hs, List.nil_sublist _⟩)
      (fun _ hb => ⟨hb.1.prepare, hb.2.prepare⟩) hm
  have hbegun := hmakes.invariant hstable hprep
  cases hmoment with
  | before ha => exact hm a ha
  | prepared hp => exact hprep _ _ hp
  | begun hx => exact hbegun _ hx
  | arrived hx =>
    refine ⟨⟨?_, (hbegun _ hx).1.declares.arrive⟩, ?_⟩
    · rw [Entry.arrival, Running.current_arrive]
      exact hmakes.declared _ hx
    · rw [Running.Placed, Entry.arrival, Running.timers_arrive]
      exact List.nil_sublist _
  | @entered x hx => exact hstable.enter (hmakes.declared _ hx) (hbegun _ hx) (h := x.host)

/-! ### Requests for timers -/

theorem Attempt.asked?_of_mem {y : Attempt} {result : Except Error TimerId}
    (hc : .schedule ms target result ∈ y.calls) : y.asked? = some (ms, target) := by
  cases y with
  | granted =>
    cases List.mem_singleton.1 hc
    rfl
  | refused =>
    rcases List.mem_cons.1 hc with heq | hc
    · cases heq
      rfl
    · cases List.mem_singleton.1 hc
  | unasked => cases List.mem_singleton.1 hc

/-- An entry asks for a timer only in an attempt. -/
theorem exists_attempt_of_schedule {x : Entry σ} {result : Except Error TimerId}
    (hx : x.automaton.Declares d) (hc : .schedule ms target result ∈ x.calls d e) :
    ∃ y : Attempt, y.Fits d (x.arrival d e).vars ∧ y.asked? = some (ms, target) := by
  obtain ⟨attempts, -, hfits, hcalls, -⟩ := exists_attempts e x hx
  rw [hcalls, List.mem_append, List.mem_append, List.mem_cons] at hc
  rcases hc with (hc | hc) | heq | hc
  · obtain ⟨p, -, heq⟩ := List.mem_map.1 hc
    cases heq
  · obtain ⟨n, heq, -⟩ := notice_of_mem_actionCalls hc
    cases heq
  · cases heq
  · obtain ⟨y, hy, hc⟩ := List.mem_flatMap.1 hc
    exact ⟨y, hfits y hy, Attempt.asked?_of_mem hc⟩

theorem wants_of_schedule {x : Entry σ} {result : Except Error TimerId} (hr : d.Matches r)
    (hx : x.automaton.Declares d) (hc : .schedule ms target result ∈ x.calls d e) :
    r.Wants ms target := by
  obtain ⟨y, ⟨u, delay, hu, htrigger, hasked⟩, hy⟩ := exists_attempt_of_schedule hx hc
  obtain ⟨hms, rfl⟩ := (hasked ms target).1 hy
  have hmem : u ∈ d.transitions := Array.mem_of_getElem? hu
  rw [hr.getElem?_transitions, Option.map_eq_some_iff] at hu
  obtain ⟨t, ht, rfl⟩ := hu
  exact ⟨hr.states ▸ (d.transitions_fit _ hmem).target_mem,
    Running.resolve_pos hmem htrigger (resolve_eq_ok_iff.2 hms), t, List.mem_of_getElem? ht, rfl,
    t.eq_delay_of_lasts htrigger hms⟩

theorem Recorder.exists_granted {w : Recorder} (hms : 1 ≤ ms) (hw : target ∉ w.refused) :
    ∃ id, (w.schedule ms target).1 = .ok id := by
  rw [Recorder.schedule, if_neg hw, if_neg (Nat.pos_iff_ne_zero.1 hms)]
  exact ⟨_, rfl⟩

/-! ### Failures -/

theorem start_ne_stateNotFound (s : String) : (m.start h).result ≠ .error (.stateNotFound s) := by
  intro hs
  have hx : (m.perform h .start).result = .error (.stateNotFound s) := by
    simp [Interpreter.perform, hs, Except.map]
  cases Interpreter.refused_iff.2 ⟨hx, by simp⟩

theorem cycled_of_stimulus {x : Error} (hm : m.isStarted) (hop : op.IsStimulus)
    (hx : (m.perform h op).result = .error x) : ∃ s, x = .cycleDetected s := by
  refine (Interpreter.refused_or_cycled hx).resolve_left fun href => ?_
  cases href with
  | notStarted hnone => simp [Interpreter.isStarted, hnone] at hm
  | alreadyStarted | notConfigured | stateNotFound => exact hop

end

/-- Throughout a run of a machine that comes from an accepted declaration, whatever the interpreter
looks up is there at all times.  The host is asked only for timers that the declaration calls for,
and neither a recorder nor a schedule refuses them for want of a delay.  A start never fails to find
the initial state, and once the automaton has been started, steps, inputs and expiries fail only in
a cycle. -/
theorem nothing_missing {σ : Type} [Host σ] (r : Declaration) (d : Definition)
    (hd : checkDeclaration r = .ok d) (e : Evaluator) (h : σ) (ops : List Operation)
    (op : Operation) :
    let m := ((Interpreter.ofDefinition d e).performAll h ops).1
    let k := ((Interpreter.ofDefinition d e).performAll h ops).2
    (∃ entries : List (Entry σ), m.Makes k op entries
        ∧ (op ≠ .report → entered (m.callsOf k op) = entries.map (·.target))
        ∧ ∀ a, Moment m k op entries a → a.Sound r d)
      ∧ (∀ ms target result, .schedule ms target result ∈ m.callsOf k op →
        r.Wants ms target
          ∧ (∀ w : Recorder, target ∉ w.refused → ∃ id, (w.schedule ms target).1 = .ok id)
          ∧ ∀ s : Timer.Schedule, ∃ id s', s.schedule ms target = .ok (id, s'))
      ∧ (∀ s, (m.start k).result ≠ .error (.stateNotFound s))
      ∧ (m.isStarted → op.IsStimulus → ∀ x, (m.perform k op).result = .error x →
        ∃ s, x = .cycleDetected s) := by
  intro m k
  have hr : d.Matches r := (Definition.matches_of_ofDeclaration (checkDeclaration_eq_ok_iff.1 hd)).2
  obtain ⟨hmd, -, hplaced, -⟩ := reached_performAll d e h ops
  have hm : ∀ b, m.running = some b → b.Valid m.definition ∧ b.Placed m.definition := fun b hb =>
    ⟨hmd ▸ valid_performAll ops rfl b hb, hplaced b hb⟩
  obtain ⟨entries, hmakes, hentered, hvalid⟩ := exists_entries d e h ops op
  refine ⟨⟨entries, hmakes, hentered, fun a ha => ?_⟩, fun ms target result hc => ?_,
    start_ne_stateNotFound, fun hstarted hop x => cycled_of_stimulus hstarted hop⟩
  · obtain ⟨hav, hap⟩ := ha.valid hmakes hm
    rw [hmd] at hav hap
    exact hav.sound hap hr
  · obtain ⟨x, hx, hc⟩ := hmakes.exists_entry hc
    rw [hmd] at hc
    have hwants : r.Wants ms target := wants_of_schedule hr (hvalid x hx).declares hc
    exact ⟨hwants, fun w hw => Recorder.exists_granted hwants.pos hw,
      fun s => ⟨_, _, Timer.schedule_of_pos hwants.pos⟩⟩

open CommandLine in
theorem nothing_missing_blink :
    let after := (Interpreter.ofDefinition Blink.definition Blink.registry.evaluator).performAll
      ({} : Recorder) [.start]
    let op : Operation := .input "start" "1"
    checkDeclaration Blink.declaration = .ok Blink.definition
      ∧ after.1.isStarted ∧ op.IsStimulus ∧ issued (after.1.callsOf after.2 op) = [⟨0, 1⟩]
      ∧ (∀ ms target result, .schedule ms target result ∈ after.1.callsOf after.2 op →
        Blink.declaration.Wants ms target)
      ∧ ∀ x, (after.1.perform after.2 op).result = .error x → ∃ s, x = .cycleDetected s := by
  intro after op
  have hd : checkDeclaration Blink.declaration = .ok Blink.definition :=
    checkDeclaration_eq_ok_iff.2 Blink.ofDeclaration_declaration
  have hstarted : after.1.isStarted := by decide +kernel
  obtain ⟨-, hwants, -, hcycled⟩ := nothing_missing Blink.declaration Blink.definition hd
    Blink.registry.evaluator ({} : Recorder) [.start] op
  exact ⟨hd, hstarted, trivial, by decide +kernel,
    fun ms target result hc => (hwants ms target result hc).1, hcycled hstarted trivial⟩

end RemoteAutomaton.Automaton
