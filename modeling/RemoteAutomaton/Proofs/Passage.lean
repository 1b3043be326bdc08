import RemoteAutomaton.Proofs.Opening

/-!
# The entries of an operation

All that an operation does, once it is prepared, is to enter states: between the entries the host
only hears of guards that fail.  `Passage` describes this, with the automaton and the host at the
beginning of every entry, and every operation makes a passage (`exists_makes`).

What is stable holds at the beginning of every entry if it holds when the operation is prepared
(`Passage.invariant`).  So throughout a run the automaton is `Valid` at every entry: its state is
declared, and its variables are the declared ones.
-/

namespace RemoteAutomaton.Automaton

open Machine (Definition)

/-- The entry of a state, with the automaton and the host at its beginning. -/
structure Entry (σ : Type) where
  automaton : Running
  host : σ
  target : String

namespace Entry

variable {σ : Type} [Host σ] (d : Definition) (e : Evaluator) (x : Entry σ)

/-- The automaton when the entry action has been run. -/
def arrival : Running := (x.automaton.arrive d e x.host x.target).1

/-- The automaton when the entry is over. -/
def after : Running := (x.automaton.enter d e x.host x.target).1

/-- The calls that the host receives from the entry, in order. -/
def calls : List HostCall := x.automaton.entryCalls d e x.host x.target

end Entry

/-- Entries of declared states, made one after the other, and the calls that the host receives
meanwhile: those of the entries, and reports of guards that fail. -/
inductive Passage {σ : Type} [Host σ] (d : Definition) (e : Evaluator) (a₀ : Running) (h₀ : σ) :
    List (Entry σ) → List HostCall → Running → σ → Prop
  | nil : Passage d e a₀ h₀ [] [] a₀ h₀
  | guardFailed {entries calls a h} (g reason : String)
    (hp : Passage d e a₀ h₀ entries calls a h) :
    Passage d e a₀ h₀ entries (calls ++ [.notice (.failure (.guardFailed g reason))]) a
      (Host.notify h (.failure (.guardFailed g reason)))
  | enter {entries calls a h target} (ht : target ∈ d.stateNames)
    (hp : Passage d e a₀ h₀ entries calls a h) :
    Passage d e a₀ h₀ (entries ++ [⟨a, h, target⟩]) (calls ++ a.entryCalls d e h target)
      (a.enter d e h target).1 (a.enter d e h target).2

/-- The automaton and the host that an operation has prepared, if there is an automaton. -/
def Interpreter.prepared? {σ : Type} [Host σ] (m : Interpreter) (h : σ) (op : Operation) :
    Option (Running × σ) :=
  match m.running, op with
  | some a, op => some (op.prepare m.definition a h)
  | none, .start => m.definition.initial.map fun s => (.initially m.definition s, h)
  | none, _ => none

/-- An operation makes these entries, and does nothing else once it is prepared. -/
inductive Interpreter.Makes {σ : Type} [Host σ] (m : Interpreter) (h : σ) (op : Operation) :
    List (Entry σ) → Prop
  | nothing (hp : m.prepared? (⟨h, []⟩ : Traced σ) op = none)
    (hm : (m.perform h op).interpreter = m) (hcalls : m.callsOf h op = []) : Makes m h op []
  | passage {a t entries calls b} (hp : m.prepared? (⟨h, []⟩ : Traced σ) op = some (a, t))
    (hpass : Passage m.definition m.evaluator a t.host entries calls b (m.perform h op).host)
    (hm : (m.perform h op).interpreter = m.withRunning b)
    (hcalls : m.callsOf h op = t.calls.reverse ++ calls) : Makes m h op entries

section

variable {σ : Type} [Host σ] {d : Definition} {e : Evaluator} {a a₀ : Running} {h h₀ : σ}
  {entries : List (Entry σ)} {calls : List HostCall} {m : Interpreter} {op : Operation}

/-- An entry does the same on a host that keeps a list of its calls. -/
theorem enter_traced (a : Running) (t : Traced σ) (target : String) :
    (a.enter d e t target).1 = (a.enter d e t.host target).1
      ∧ (a.enter d e t target).2.host = (a.enter d e t.host target).2 := by
  obtain ⟨hsame, hhost⟩ := simulation_host.enter (d := d) (e := e) (h := t) (k := t.host) target
    (Running.alike_eq_iff.2 (rfl : a = a)) rfl
  exact ⟨Running.alike_eq_iff.1 hsame, hhost⟩

namespace Passage

/-- What is stable holds at the beginning of every entry, and at the end. -/
theorem invariant {P : Running → σ → Prop} (hP : Running.Stable d e P) (h₀P : P a₀ h₀)
    (hp : Passage d e a₀ h₀ entries calls a h) :
    P a h ∧ ∀ x ∈ entries, P x.automaton x.host := by
  induction hp with
  | nil => exact ⟨h₀P, List.forall_mem_nil _⟩
  | guardFailed g reason _ ih => exact ⟨hP.guardFailed g reason ih.1, ih.2⟩
  | enter ht _ ih =>
    refine ⟨hP.enter ht ih.1, fun x hx => ?_⟩
    rcases List.mem_append.1 hx with hx | hx
    · exact ih.2 x hx
    · obtain rfl := List.mem_singleton.1 hx
      exact ih.1

theorem declared (hp : Passage d e a₀ h₀ entries calls a h) :
    ∀ x ∈ entries, x.target ∈ d.stateNames := by
  induction hp with
  | nil => simp
  | guardFailed _ _ _ ih => exact ih
  | enter ht _ ih => exact List.forall_mem_append.2 ⟨ih, by simpa using ht⟩

/-- The host hears of the states that are entered, and of no others. -/
theorem entered_calls (hp : Passage d e a₀ h₀ entries calls a h) :
    entered calls = entries.map (·.target) := by
  induction hp with
  | nil => rfl
  | guardFailed g reason _ ih =>
    rw [entered_append, ih]
    exact List.append_nil _
  | enter _ _ ih =>
    rw [entered_append, ih, entered_entryCalls, List.map_append]
    rfl

/-- A call that the host receives is one of an entry, or the report of a guard that has failed. -/
theorem mem_calls (hp : Passage d e a₀ h₀ entries calls a h) : ∀ c ∈ calls,
    (∃ x ∈ entries, c ∈ x.calls d e)
      ∨ ∃ g reason, c = .notice (.failure (.guardFailed g reason)) := by
  induction hp with
  | nil => simp
  | guardFailed g reason _ ih =>
    refine List.forall_mem_append.2 ⟨ih, fun c hc => .inr ⟨g, reason, ?_⟩⟩
    exact List.mem_singleton.1 hc
  | @enter entries _ a h target _ _ ih =>
    refine List.forall_mem_append.2 ⟨fun c hc => ?_, fun c hc => .inl ⟨⟨a, h, target⟩, ?_, hc⟩⟩
    · rcases ih c hc with ⟨x, hx, hc⟩ | hc
      · exact .inl ⟨x, List.mem_append_left _ hx, hc⟩
      · exact .inr hc
    · exact List.mem_append_right _ (List.mem_singleton.2 rfl)

end Passage

/-! ### Operations -/

/-- On a host that keeps a list of its calls, whatever an automaton goes through is a passage. -/
theorem stable_passage (d : Definition) (e : Evaluator) (a₀ : Running) (h₀ : σ)
    (base : List HostCall) :
    Running.Stable d e fun a (t : Traced σ) => ∃ entries calls,
      Passage d e a₀ h₀ entries calls a t.host ∧ t.calls = calls.reverse ++ base where
  guardFailed g reason := by
    rintro ⟨entries, calls, hp, hcalls⟩
    refine ⟨entries, _, hp.guardFailed g reason, ?_⟩
    rw [List.reverse_append, List.append_assoc, ← hcalls]
    rfl
  enter {a t target} ht := by
    rintro ⟨entries, calls, hp, hcalls⟩
    refine ⟨entries ++ [⟨a, t.host, target⟩], calls ++ a.entryCalls d e t.host target, ?_, ?_⟩
    · rw [(enter_traced a t target).1, (enter_traced a t target).2]
      exact hp.enter ht
    · rw [calls_enter, List.reverse_append, List.append_assoc, ← hcalls]

theorem interpreter_eq_withRunning {b : Running}
    (hb : (m.perform h op).interpreter.running = some b) :
    (m.perform h op).interpreter = m.withRunning b := by
  have hd : (m.perform h op).interpreter.definition = m.definition := Interpreter.definition_perform
  have he : (m.perform h op).interpreter.evaluator = m.evaluator := Interpreter.evaluator_perform
  rw [Interpreter.withRunning, ← hb, ← hd, ← he]

/-- Every operation makes some entries and does nothing else, once it is prepared. -/
theorem exists_makes (m : Interpreter) (h : σ) (op : Operation) :
    ∃ entries, m.Makes h op entries := by
  rcases hm : m.running with _ | a
  · by_cases hop : op = .start → m.definition.initial = none
    · refine ⟨[], .nothing ?_ (Interpreter.perform_of_not_started hm hop).1
        (Interpreter.callsOf_of_not_started hm hop)⟩
      cases op with
      | start => simp [Interpreter.prepared?, hm, hop rfl]
      | step | input | fire | moveTo | report | terminate => simp [Interpreter.prepared?, hm]
    · obtain ⟨rfl, hinit⟩ := Classical.not_imp.1 hop
      obtain ⟨s, hs⟩ := Option.ne_none_iff_exists'.1 hinit
      have hstable := stable_passage m.definition m.evaluator (.initially m.definition s) h []
      obtain ⟨b, hb, entries, calls, hp, hcalls⟩ :=
        Interpreter.stable_traced_start (h := h) hstable hm hs
          (hstable.enter (m.definition.initial_mem s hs) ⟨[], [], .nil, rfl⟩)
      refine ⟨entries, .passage (t := ⟨h, []⟩) ?_ hp (interpreter_eq_withRunning hb) ?_⟩
      · simp [Interpreter.prepared?, hm, hs]
      · rw [List.append_nil] at hcalls
        exact List.reverse_injective hcalls
  · set t := (op.prepare m.definition a (⟨h, []⟩ : Traced σ)).2
    set a₀ := (op.prepare m.definition a (⟨h, []⟩ : Traced σ)).1
    obtain ⟨b, hb, entries, calls, hp, hcalls⟩ : ∃ b,
        (m.perform h op).interpreter.running = some b ∧ ∃ entries calls,
          Passage m.definition m.evaluator a₀ t.host entries calls b (m.perform h op).host
            ∧ (m.callsOf h op).reverse = calls.reverse ++ t.calls :=
      Interpreter.stable_traced (stable_passage m.definition m.evaluator a₀ t.host t.calls) hm
        ⟨[], [], .nil, rfl⟩
    refine ⟨entries, .passage (t := t) ?_ hp (interpreter_eq_withRunning hb) ?_⟩
    · simp [Interpreter.prepared?, hm, t, a₀]
    · rw [← List.reverse_reverse (m.callsOf h op), hcalls, List.reverse_append,
        List.reverse_reverse]

theorem Interpreter.prepared_cases {k : σ} (hp : m.prepared? k op = some (a, h)) :
    (∃ b, m.running = some b ∧ a = (op.prepare m.definition b k).1
        ∧ h = (op.prepare m.definition b k).2)
      ∨ ∃ s, m.definition.initial = some s ∧ a = .initially m.definition s ∧ h = k := by
  rcases hm : m.running with _ | b
  · cases op with
    | start =>
      simp only [prepared?, hm] at hp
      obtain ⟨s, hs, heq⟩ := Option.map_eq_some_iff.1 hp
      cases heq
      exact .inr ⟨s, hs, rfl, rfl⟩
    | step | input | fire | moveTo | report | terminate => simp [prepared?, hm] at hp
  · simp only [prepared?, hm, Option.some_inj] at hp
    exact .inl ⟨b, rfl, (congrArg Prod.fst hp).symm, (congrArg Prod.snd hp).symm⟩

/-- What holds before the start and is kept by what the operation does before any transition holds
once the operation is prepared. -/
theorem Interpreter.invariant_of_prepared {P : Running → Prop} {k : σ}
    (hinit : ∀ s, m.definition.initial = some s → P (.initially m.definition s))
    (hprep : ∀ a, P a → P (op.prepare m.definition a k).1) (hm : ∀ a, m.running = some a → P a)
    (hp : m.prepared? k op = some (a, h)) : P a := by
  rcases prepared_cases hp with ⟨b, hb, rfl, -⟩ | ⟨s, hs, rfl, -⟩
  · exact hprep b (hm b hb)
  · exact hinit s hs

namespace Interpreter.Makes

theorem invariant {P : Running → Prop}
    (hP : Running.Stable m.definition m.evaluator fun a (_ : σ) => P a)
    (hprep : ∀ a t, m.prepared? (⟨h, []⟩ : Traced σ) op = some (a, t) → P a)
    (hm : m.Makes h op entries) : ∀ x ∈ entries, P x.automaton := by
  cases hm with
  | nothing => simp
  | passage hp hpass => exact (hpass.invariant hP (hprep _ _ hp)).2

theorem declared (hm : m.Makes h op entries) :
    ∀ x ∈ entries, x.target ∈ m.definition.stateNames := by
  cases hm with
  | nothing => simp
  | passage _ hpass => exact hpass.declared

/-- The host hears of the states that are entered, and of no others unless it is told the status. -/
theorem entered_callsOf (hm : m.Makes h op entries) (hop : op ≠ .report) :
    entered (m.callsOf h op) = entries.map (·.target) := by
  cases hm with
  | nothing _ _ hcalls =>
    rw [hcalls]
    rfl
  | @passage a t _ calls b hp hpass _ hcalls =>
    have hnone : entered t.calls.reverse = [] := by
      rcases prepared_cases hp with ⟨b, -, -, rfl⟩ | ⟨s, -, -, rfl⟩
      · refine List.filterMap_eq_nil_iff.2 fun c hc => ?_
        rcases call_of_prepare (List.mem_reverse.1 hc) with ⟨hreport, -⟩ | ⟨id, rfl⟩
        · exact absurd hreport hop
        · rfl
      · rfl
    rw [hcalls, entered_append, hnone, hpass.entered_calls, List.nil_append]

/-- The host is asked for timers by entries only. -/
theorem exists_entry {ms : Nat} {target : String} {r : Except Error TimerId}
    (hm : m.Makes h op entries) (hc : .schedule ms target r ∈ m.callsOf h op) :
    ∃ x ∈ entries, .schedule ms target r ∈ x.calls m.definition m.evaluator := by
  cases hm with
  | nothing _ _ hcalls =>
    rw [hcalls] at hc
    cases hc
  | @passage a t _ calls b hp hpass _ hcalls =>
    rw [hcalls, List.mem_append, List.mem_reverse] at hc
    rcases hc with hc | hc
    · rcases prepared_cases hp with ⟨b, -, -, rfl⟩ | ⟨s, -, -, rfl⟩
      · rcases call_of_prepare hc with ⟨-, n, -, heq⟩ | ⟨id, heq⟩
        · cases heq
        · cases heq
      · cases hc
    · rcases hpass.mem_calls _ hc with hx | ⟨g, reason, heq⟩
      · exact hx
      · cases heq

end Interpreter.Makes

/-! ### Valid automata -/

/-- An automaton in a declared state, whose variables are the declared ones. -/
structure Running.Valid (d : Definition) (a : Running) : Prop where
  current_mem : a.current ∈ d.stateNames
  declares : a.Declares d

theorem Running.stable_valid : Running.Stable d e fun a (_ : σ) => a.Valid d where
  guardFailed _ _ ha := ha
  enter ht ha := ⟨by rwa [Running.current_enter], ha.declares.enter⟩

omit [Host σ] in
theorem Running.valid_initially {s : String} (hs : d.initial = some s) :
    (Running.initially d s).Valid d :=
  ⟨d.initial_mem s hs, Running.declares_initially d s⟩

theorem values_prepare :
    (op.prepare d a h).1.vars = a.vars ∧ (op.prepare d a h).1.outputs = a.outputs := by
  cases op with
  | fire id =>
    simp only [Operation.prepare]
    split <;> exact ⟨rfl, rfl⟩
  | start | step | input | moveTo | report | terminate => exact ⟨rfl, rfl⟩

theorem Running.Valid.prepare (ha : a.Valid d) : (op.prepare d a h).1.Valid d := by
  constructor
  · rw [current_prepare]
    exact ha.current_mem
  · rw [Running.Declares, values_prepare.1]
    exact ha.declares

theorem valid_performAll (ops : List Operation) (hm : m.running = none) :
    ∀ a, (m.performAll h ops).1.running = some a → a.Valid m.definition :=
  Interpreter.invariant_performAll (fun _ => Running.stable_valid)
    (fun _ => Running.valid_initially) (fun _ _ _ ha => ha.prepare) ops rfl (by simp [hm])

theorem Interpreter.Makes.valid (hmakes : m.Makes h op entries)
    (hm : ∀ a, m.running = some a → a.Valid m.definition) :
    ∀ x ∈ entries, x.automaton.Valid m.definition :=
  hmakes.invariant Running.stable_valid fun _ _ =>
    invariant_of_prepared (fun _ => Running.valid_initially) (fun _ ha => ha.prepare) hm

/-- Throughout a run, an operation makes entries of valid automata, and the host hears of them. -/
theorem exists_entries (d : Definition) (e : Evaluator) (h : σ) (ops : List Operation)
    (op : Operation) :
    let m := ((Interpreter.ofDefinition d e).performAll h ops).1
    let k := ((Interpreter.ofDefinition d e).performAll h ops).2
    ∃ entries : List (Entry σ), m.Makes k op entries
      ∧ (op ≠ .report → entered (m.callsOf k op) = entries.map (·.target))
      ∧ ∀ x ∈ entries, x.automaton.Valid d := by
  intro m k
  obtain ⟨entries, hmakes⟩ := exists_makes m k op
  have hd : m.definition = d := Interpreter.definition_performAll _ _ _
  have hvalid := hmakes.valid (m := m) (hd ▸ valid_performAll ops rfl)
  rw [hd] at hvalid
  exact ⟨entries, hmakes, hmakes.entered_callsOf, hvalid⟩

end

end RemoteAutomaton.Automaton
