import RemoteAutomaton.Proofs.Operation

/-!
# Operations that are refused

An operation fails in two ways: it is refused, or the immediate transitions that it follows run into
a cycle (`refused_or_cycled`).  `Refused` says which failure an operation is refused with, and when.
What is refused is not done at all (`perform_of_refused`).

What is refused depends on whether the automaton has been started, and the answers of a run tell
that: a start has begun the run if it has not been refused (`running_performAll`).
-/

namespace RemoteAutomaton.Automaton

open Machine (Definition)

namespace Interpreter

/-- The failure that an operation is refused with. -/
inductive Refused (m : Interpreter) : Operation → Error → Prop
  | notStarted {op : Operation} (hm : m.running = none) (hstart : op ≠ .start)
    (hend : op ≠ .terminate) : Refused m op .notStarted
  | alreadyStarted (hm : m.running ≠ none) : Refused m .start .alreadyStarted
  | notConfigured (hm : m.running = none) (hd : m.definition.initial = none) :
    Refused m .start
      (.notConfigured ("machine '" ++ m.definition.name ++ "' has no initial state"))
  | stateNotFound {target : String} (hm : m.running ≠ none)
    (ht : target ∉ m.definition.stateNames) : Refused m (.moveTo target) (.stateNotFound target)

variable {σ : Type} [Host σ] {m : Interpreter} {h : σ} {op : Operation} {x : Error}

/-- What is refused is not done: the interpreter stays as it is, and the host is not called. -/
theorem perform_of_refused (h : σ) (hx : m.Refused op x) : m.perform h op = ⟨.error x, m, h⟩ := by
  cases hx with
  | notStarted hm hstart hend =>
    cases op with
    | start => exact absurd rfl hstart
    | terminate => exact absurd rfl hend
    | step | input | fire | moveTo | report =>
      simp [perform, step, processInput, fireTimer, moveTo, reportStatus, hm, refuse, Except.map]
  | alreadyStarted hm =>
    obtain ⟨a, ha⟩ := Option.ne_none_iff_exists'.1 hm
    simp [perform, start, ha, refuse, Except.map]
  | notConfigured hm hd => simp [perform, start, hm, hd, refuse, Except.map]
  | stateNotFound hm ht =>
    obtain ⟨a, ha⟩ := Option.ne_none_iff_exists'.1 hm
    have hno : ¬ m.definition.hasState _ := mt Definition.hasState_iff.1 ht
    simp [perform, moveTo, ha, hno, refuse, Except.map]

theorem callsOf_of_refused (h : σ) (hx : m.Refused op x) : m.callsOf h op = [] := by
  rw [callsOf, perform_of_refused _ hx]
  rfl

theorem Refused.of_result {y : Error} (hy : m.Refused op y)
    (hx : (m.perform h op).result = .error x) : m.Refused op x := by
  rw [perform_of_refused h hy] at hx
  cases hx
  exact hy

/-! ### The failures of operations -/

theorem cycled_of_map {α β : Type} {f : α → β} {r : Except Error α}
    (hr : ∀ y, r = .error y → ∃ s, y = .cycleDetected s) (hx : r.map f = .error x) :
    ∃ s, x = .cycleDetected s := by
  cases r with
  | error y =>
    cases hx
    exact hr x rfl
  | ok y => cases hx

theorem cycled_of_step {a : Running} {event : Option (String × String)} (hm : m.running = some a)
    (hx : (m.step h event).result = .error x) : ∃ s, x = .cycleDetected s := by
  simp only [step, hm] at hx
  split_ifs at hx
  cases event with
  | none => exact cycled_of_map (fun _ => Running.cycled_of_settle) hx
  | some event => exact cycled_of_map (fun _ => Running.cycled_of_react) hx

theorem cycled_of_fireTimer {a : Running} {id : TimerId} (hm : m.running = some a)
    (hx : (m.fireTimer h id).result = .error x) : ∃ s, x = .cycleDetected s := by
  by_cases ha : a.Active
  · rcases hp : a.timers.find? (·.id = id) with _ | p
    · rw [fireTimer_of_not_pending hm hp] at hx
      cases hx
    · rw [fireTimer_of_pending hm ha hp] at hx
      split at hx
      · cases hx
      · exact cycled_of_map (fun _ => Running.cycled_of_settle) hx
  · rw [fireTimer_of_not_active hm ha] at hx
    cases hx

theorem refused_or_cycled (hx : (m.perform h op).result = .error x) :
    m.Refused op x ∨ ∃ s, x = .cycleDetected s := by
  rcases hm : m.running with _ | a
  · cases op with
    | start =>
      by_cases hd : m.definition.initial = none
      · exact .inl (Refused.of_result (.notConfigured hm hd) hx)
      · obtain ⟨s, hs⟩ := Option.ne_none_iff_exists'.1 hd
        simp only [perform, start_of_initial hm hs, resolved] at hx
        exact .inr (cycled_of_map (fun _ => Running.cycled_of_settle) hx)
    | step | input | fire | moveTo | report =>
      exact .inl (Refused.of_result (.notStarted hm (by simp) (by simp)) hx)
    | terminate => cases hx
  · have hne : m.running ≠ none := by simp [hm]
    cases op with
    | start => exact .inl (Refused.of_result (.alreadyStarted hne) hx)
    | step event => exact .inr (cycled_of_map (fun _ => cycled_of_step hm) hx)
    | input name value =>
      simp only [perform, processInput, hm] at hx
      exact .inr (cycled_of_map (fun _ => cycled_of_step (m := m.withRunning _) rfl) hx)
    | fire id => exact .inr (cycled_of_map (fun _ => cycled_of_fireTimer hm) hx)
    | moveTo target =>
      by_cases ht : target ∈ m.definition.stateNames
      · simp only [perform, moveTo, hm, if_pos (Definition.hasState_iff.2 ht), resolved] at hx
        exact .inr (cycled_of_map (fun _ => Running.cycled_of_settle) hx)
      · exact .inl (Refused.of_result (.stateNotFound hne ht) hx)
    | report =>
      simp only [perform, reportStatus, hm] at hx
      cases hx
    | terminate => cases hx

/-- An operation fails otherwise than in a cycle exactly if it is refused. -/
theorem refused_iff : m.Refused op x ↔
    (m.perform h op).result = .error x ∧ ∀ s, x ≠ .cycleDetected s := by
  constructor
  · intro hx
    refine ⟨by rw [perform_of_refused h hx], ?_⟩
    cases hx <;> simp
  · rintro ⟨hx, hne⟩
    exact (refused_or_cycled hx).resolve_right fun ⟨s, hs⟩ => hne s hs

/-! ### Runs -/

/-- Each operation of a run with what it answers. -/
def answers (m : Interpreter) (h : σ) :
    List Operation → List (Operation × Except Error (Option Bool))
  | [] => []
  | op :: ops =>
    (op, (m.perform h op).result) ::
      answers (m.perform h op).interpreter (m.perform h op).host ops

/-- A start has got past its check of the initial state: it has succeeded, or has ended in a
cycle. -/
def Passed (r : Except Error (Option Bool)) : Prop := ∀ x, r = .error x → ∃ s, x = .cycleDetected s

/-- A run has got past the check of the initial state. -/
def HasBegun (m : Interpreter) (h : σ) (ops : List Operation) : Prop :=
  ∃ r, (.start, r) ∈ m.answers h ops ∧ Passed r

theorem hasBegun_cons (ops : List Operation) : m.HasBegun h (op :: ops) ↔
    (op = .start ∧ Passed (m.perform h op).result)
      ∨ (m.perform h op).interpreter.HasBegun (m.perform h op).host ops := by
  simp only [HasBegun, answers, List.mem_cons, Prod.mk.injEq]
  constructor
  · rintro ⟨r, ⟨rfl, rfl⟩ | hmem, hr⟩
    · exact .inl ⟨rfl, hr⟩
    · exact .inr ⟨r, hmem, hr⟩
  · rintro (⟨rfl, hr⟩ | ⟨r, hmem, hr⟩)
    · exact ⟨_, .inl ⟨rfl, rfl⟩, hr⟩
    · exact ⟨r, .inr hmem, hr⟩

theorem running_perform_of_started (hm : m.running ≠ none) :
    (m.perform h op).interpreter.running ≠ none := by
  obtain ⟨a, ha⟩ := Option.ne_none_iff_exists'.1 hm
  have hstill : ∃ a', (m.perform h op).interpreter.running = some a' ∧ True :=
    stable_perform (P := fun _ _ => True) ⟨fun _ _ _ => trivial, fun _ _ => trivial⟩ ha trivial
  obtain ⟨a', ha', -⟩ := hstill
  simp [ha']

/-- An operation leaves an automaton started if it has been started before, or if the operation is a
start that gets past its check. -/
theorem running_perform : (m.perform h op).interpreter.running ≠ none ↔
    m.running ≠ none ∨ (op = .start ∧ Passed (m.perform h op).result) := by
  by_cases hm : m.running = none
  · by_cases hop : op = .start → m.definition.initial = none
    · rw [(perform_of_not_started hm hop).1]
      refine ⟨.inl, fun h' => h'.elim id ?_⟩
      rintro ⟨rfl, hr⟩
      have href := Refused.notConfigured hm (hop rfl)
      obtain ⟨hres, hne⟩ := (refused_iff (h := h)).1 href
      obtain ⟨s, hs⟩ := hr _ hres
      exact absurd hs (hne s)
    · obtain ⟨rfl, hinit⟩ := Classical.not_imp.1 hop
      obtain ⟨s, hs⟩ := Option.ne_none_iff_exists'.1 hinit
      obtain ⟨a, ha, -⟩ := stable_start (P := fun _ _ => True) (h := h)
        ⟨fun _ _ _ => trivial, fun _ _ => trivial⟩ hm hs trivial
      refine ⟨fun _ => .inr ⟨rfl, fun x hx => ?_⟩, fun _ => by simp [ha]⟩
      refine (refused_or_cycled hx).resolve_left fun href => ?_
      cases href with
      | notStarted _ hstart => exact hstart rfl
      | alreadyStarted hne => exact hne hm
      | notConfigured _ hd => exact hinit hd
  · exact ⟨fun _ => .inl hm, fun _ => running_perform_of_started hm⟩

theorem running_performAll : ∀ (ops : List Operation) {m : Interpreter} {h : σ},
    (m.performAll h ops).1.running ≠ none ↔ m.running ≠ none ∨ m.HasBegun h ops
  | [], m, h => by simp [performAll, HasBegun, answers]
  | op :: ops, m, h => by
    rw [performAll, running_performAll ops, running_perform, hasBegun_cons, or_assoc]

end Interpreter

/-- Throughout a run, an operation that fails otherwise than in a cycle has done nothing.  It fails
so in four cases: before the start everything but a start and an end, and a start without an initial
state; after it another start, and a move to a state that is not declared. -/
theorem refused_without_effect {σ : Type} [Host σ] (d : Definition) (e : Evaluator) (h : σ)
    (ops : List Operation) (op : Operation) :
    let m := ((Interpreter.ofDefinition d e).performAll h ops).1
    let k := ((Interpreter.ofDefinition d e).performAll h ops).2
    let result := (m.perform k op).result
    let begun := (Interpreter.ofDefinition d e).HasBegun h ops
    (∀ x, result = .error x → (∀ s, x ≠ .cycleDetected s) →
        m.callsOf k op = [] ∧ (m.perform k op).interpreter = m ∧ (m.perform k op).host = k)
      ∧ (result = .error .notStarted ↔ ¬ begun ∧ op ≠ .start ∧ op ≠ .terminate)
      ∧ (result = .error .alreadyStarted ↔ begun ∧ op = .start)
      ∧ (∀ reason, result = .error (.notConfigured reason) ↔ ¬ begun ∧ d.initial = none
        ∧ op = .start ∧ reason = "machine '" ++ d.name ++ "' has no initial state")
      ∧ (∀ s, result = .error (.stateNotFound s) ↔ begun ∧ s ∉ d.stateNames ∧ op = .moveTo s)
      ∧ ∀ x, result = .error x → x = .notStarted ∨ x = .alreadyStarted
        ∨ (∃ reason, x = .notConfigured reason) ∨ (∃ s, x = .stateNotFound s)
        ∨ ∃ s, x = .cycleDetected s := by
  intro m k result begun
  have hd : m.definition = d := Interpreter.definition_performAll _ _ _
  have hbegun : m.running ≠ none ↔ begun := by
    simp [m, begun, Interpreter.running_performAll, Interpreter.ofDefinition]
  have hresult : ∀ x, (∀ s, x ≠ .cycleDetected s) → (result = .error x ↔ m.Refused op x) :=
    fun x hne => ⟨fun hx => Interpreter.refused_iff.2 ⟨hx, hne⟩,
      fun href => (Interpreter.refused_iff.1 href).1⟩
  rw [← hbegun, Classical.not_not]
  refine ⟨fun x hx hne => ?_, ?_, ?_, fun reason => ?_, fun s => ?_, fun x hx => ?_⟩
  · have href := (hresult x hne).1 hx
    refine ⟨Interpreter.callsOf_of_refused k href, ?_⟩
    rw [Interpreter.perform_of_refused k href]
    exact ⟨rfl, rfl⟩
  · rw [hresult _ (by simp)]
    constructor
    · intro href
      cases href with
      | notStarted hm hstart hend => exact ⟨hm, hstart, hend⟩
    · rintro ⟨hm, hstart, hend⟩
      exact .notStarted hm hstart hend
  · rw [hresult _ (by simp)]
    constructor
    · intro href
      cases href with
      | alreadyStarted hm => exact ⟨hm, rfl⟩
    · rintro ⟨hm, rfl⟩
      exact .alreadyStarted hm
  · rw [hresult _ (by simp), ← hd]
    constructor
    · intro href
      cases href with
      | notConfigured hm hinit => exact ⟨hm, hinit, rfl, rfl⟩
    · rintro ⟨hm, hinit, rfl, rfl⟩
      exact .notConfigured hm hinit
  · rw [hresult _ (by simp), ← hd]
    constructor
    · intro href
      cases href with
      | stateNotFound hm hs => exact ⟨hm, hs, rfl⟩
    · rintro ⟨hm, hs, rfl⟩
      exact .stateNotFound hm hs
  · rcases Interpreter.refused_or_cycled hx with href | hcycle
    · cases href with
      | notStarted => exact .inl rfl
      | alreadyStarted => exact .inr (.inl rfl)
      | notConfigured => exact .inr (.inr (.inl ⟨_, rfl⟩))
      | stateNotFound => exact .inr (.inr (.inr (.inl ⟨_, rfl⟩)))
    · exact .inr (.inr (.inr (.inr hcycle)))

end RemoteAutomaton.Automaton
