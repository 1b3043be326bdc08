import Mathlib.Logic.Function.Basic
import RemoteAutomaton.CommandLine.Blink
import RemoteAutomaton.Proofs.Simulation

/-!
# What an observer knows

An observer who hears only the reports of an automaton keeps a `Mirror`: the last state, and the
last value of every variable and output.  Every change of the automaton is reported with the value
that it stores (`Mirror.shows_apply`), and the state at every entry, so the mirror shows the
automaton after any run (`shows_performAll`), and a status report tells what the mirror shows
already.
-/

namespace RemoteAutomaton.Automaton

open Machine (Definition)

/-- What is known of an automaton from its reports alone. -/
structure Mirror where
  state : Option String
  vars : String → Option String
  outputs : String → String

namespace Mirror

/-- What is known before the first report: the declared values, and an empty text for every
output. -/
def blank (d : Definition) : Mirror where
  state := none
  vars name := (d.vars.find? (·.name = name)).map (·.initial)
  outputs _ := ""

/-- Takes a call of the host.  Each report overwrites what it is about. -/
def hear (v : Mirror) : HostCall → Mirror
  | .notice (.state name) => { v with state := some name }
  | .notice (.var name value) => { v with vars := Function.update v.vars name (some value) }
  | .notice (.output name value) => { v with outputs := Function.update v.outputs name value }
  | _ => v

/-- Takes calls in order. -/
def hearAll (v : Mirror) (calls : List HostCall) : Mirror := calls.foldl hear v

theorem hearAll_append (v : Mirror) (calls calls' : List HostCall) :
    v.hearAll (calls ++ calls') = (v.hearAll calls).hearAll calls' :=
  List.foldl_append

/-- The mirror after all that a traced host has received. -/
def heard {σ : Type} (v : Mirror) (t : Traced σ) : Mirror := v.hearAll t.calls.reverse

section Heard

variable {σ : Type} [Host σ] {v : Mirror} {t : Traced σ} {d : Definition}

@[simp] theorem heard_notify (n : Notice) :
    v.heard (Host.notify t n) = (v.heard t).hear (.notice n) := by
  simp [heard, hearAll, Host.notify]

@[simp] theorem heard_cancel (id : TimerId) : v.heard (Host.cancel t id) = v.heard t := by
  simp [heard, hearAll, hear, Host.cancel]

@[simp] theorem heard_schedule (ms : Nat) (target : String) :
    v.heard (Host.schedule t ms target).2 = v.heard t := by
  simp [heard, hearAll, hear, Host.schedule]

@[simp] theorem heard_cancelAll : ∀ (l : List Pending) (t : Traced σ),
    v.heard (Running.cancelAll t l) = v.heard t
  | [], _ => rfl
  | p :: rest, t => by rw [Running.cancelAll, heard_cancelAll rest, heard_cancel]

theorem heard_request {a : Running} {delay : Machine.Delay} {target : String} {t' : Traced σ}
    {r : Except Error TimerId} (hr : a.request t delay target = (r, t')) :
    v.heard t' = v.heard t := by
  unfold Running.request at hr
  split at hr
  · cases hr
    rfl
  · rename_i ms _
    rw [← heard_schedule ms target (t := t), hr]

@[simp] theorem heard_scheduleAll : ∀ (l : List Nat) (a : Running) (t : Traced σ),
    v.heard (a.scheduleAll d t l).2 = v.heard t
  | [], _, _ => rfl
  | i :: rest, a, t => by
    simp only [Running.scheduleAll]
    split
    · exact heard_scheduleAll rest a t
    · split
      · split
        · rename_i id t' hr
          rw [heard_scheduleAll rest, heard_request hr]
        · rename_i e t' hr
          rw [heard_scheduleAll rest, heard_notify, heard_request hr]
          rfl
      · exact heard_scheduleAll rest a t

end Heard

/-- The mirror has the values of the automaton's variables and outputs. -/
structure ShowsValues (v : Mirror) (a : Running) : Prop where
  vars : ∀ name, v.vars name = a.vars.get? name
  outputs : ∀ name, v.outputs name = (a.outputs.get? name).getD ""

/-- The mirror has the automaton's state and values. -/
structure Shows (v : Mirror) (a : Running) : Prop extends v.ShowsValues a where
  state : v.state = some a.current

section Shows

variable {σ : Type} [Host σ] {v : Mirror} {t : Traced σ} {d : Definition} {e : Evaluator}
  {a : Running}

theorem ShowsValues.assign {v : Mirror} (hv : v.ShowsValues a) (name value : String) :
    (v.hear (.notice (.var name value))).ShowsValues { a with vars := a.vars.set name value } where
  vars other := by
    rw [Values.get?_set]
    by_cases h : other = name
    · subst h
      simp [hear]
    · simp [hear, h, hv.vars]
  outputs := hv.outputs

theorem ShowsValues.write {v : Mirror} (hv : v.ShowsValues a) (name value : String) :
    (v.hear (.notice (.output name value))).ShowsValues
      { a with outputs := a.outputs.set name value } where
  vars := hv.vars
  outputs other := by
    rw [Values.get?_set]
    by_cases h : other = name
    · subst h
      simp [hear]
    · simp [hear, h, hv.outputs]

/-- An effect is reported with the value that it stores. -/
theorem shows_apply (x : Effect) (hv : (v.heard t).ShowsValues a) :
    (v.heard (a.apply d t x).2).ShowsValues (a.apply d t x).1 := by
  cases x with
  | assign name value =>
    simp only [Running.apply]
    split
    · rw [heard_notify]
      exact hv.assign name value
    · rw [heard_notify]
      exact hv
  | write name value =>
    simp only [Running.apply]
    split
    · rw [heard_notify]
      exact hv.write name value
    · rw [heard_notify]
      exact hv
  | log text =>
    simp only [Running.apply, heard_notify]
    exact hv
  | terminate => exact ⟨hv.vars, hv.outputs⟩

theorem shows_applyAll : ∀ (l : List Effect) {a : Running} {t : Traced σ},
    (v.heard t).ShowsValues a →
      (v.heard (a.applyAll d t l).2).ShowsValues (a.applyAll d t l).1
  | [], _, _, hv => hv
  | x :: rest, _, _, hv => shows_applyAll rest (shows_apply x hv)

theorem shows_runEntry {target : String} (hv : (v.heard t).ShowsValues a) :
    (v.heard (a.runEntry d e t target).2).ShowsValues (a.runEntry d e t target).1 := by
  unfold Running.runEntry
  split
  · unfold Running.runAction
    split
    · exact shows_applyAll _ hv
    · rw [heard_notify]
      exact hv
  · exact hv

theorem shows_arrive {target : String} (hv : (v.heard t).ShowsValues a) :
    (v.heard (a.arrive d e t target).2).ShowsValues (a.arrive d e t target).1 := by
  refine shows_runEntry ?_
  rw [heard_cancelAll]
  exact ⟨hv.vars, hv.outputs⟩

/-- After an entry the mirror has the new state, whatever state it had. -/
theorem shows_enter {target : String} (hv : (v.heard t).ShowsValues a) :
    (v.heard (a.enter d e t target).2).Shows (a.enter d e t target).1 := by
  obtain ⟨ts, hts, -⟩ := Running.enter_fst d e a t target
  have hcalls : v.heard (a.enter d e t target).2
      = (v.heard (a.arrive d e t target).2).hear (.notice (.state target)) := by
    rw [Running.enter_eq, heard_scheduleAll, heard_notify]
  have harr : (v.heard (a.arrive d e t target).2).ShowsValues (a.arrive d e t target).1 :=
    shows_arrive hv
  rw [hcalls, hts]
  exact ⟨⟨harr.vars, harr.outputs⟩, congrArg some Running.current_arrive.symm⟩

theorem stable_shows (v : Mirror) :
    Running.Stable d e fun a (t : Traced σ) => (v.heard t).Shows a where
  guardFailed g m hv := by
    rw [heard_notify]
    exact hv
  enter _ hv := shows_enter hv.toShowsValues

end Shows

end Mirror

/-! ### Status reports -/

/-- What a status report tells of an automaton: its state, its variables and its outputs, in the
order of declaration. -/
def Running.statusNotices (d : Definition) (a : Running) : List Notice :=
  .state a.current :: (d.vars.map fun x => .var x.name ((a.vars.get? x.name).getD ""))
    ++ d.outputs.map fun o => .output o ((a.outputs.get? o).getD "")

section Report

variable {σ : Type} [Host σ] {d : Definition}

theorem calls_notifyAll {α : Type} (f : α → Notice) : ∀ (l : List α) (t : Traced σ),
    (l.foldl (fun t x => Host.notify t (f x)) t).calls
      = (l.map fun x => HostCall.notice (f x)).reverse ++ t.calls
  | [], _ => rfl
  | x :: rest, t => by
    rw [List.foldl_cons, calls_notifyAll f rest, List.map_cons, List.reverse_cons,
      List.append_assoc]
    rfl

theorem calls_report (a : Running) (t : Traced σ) :
    (a.report d t).calls = ((a.statusNotices d).map .notice).reverse ++ t.calls := by
  simp only [Running.report, calls_notifyAll]
  simp only [Running.statusNotices, List.map_append, List.map_cons, List.map_map,
    List.reverse_append, List.reverse_cons, List.append_assoc]
  rfl

/-- A status report is a series of notices. -/
theorem report_eq (a : Running) (h : σ) :
    a.report d h = (a.statusNotices d).foldl Host.notify h := by
  simp only [Running.report, Running.statusNotices, List.foldl_append, List.foldl_cons,
    List.foldl_map]

/-- The variables that have a value are the declared ones. -/
def Running.Declares (d : Definition) (a : Running) : Prop := a.vars.names = d.variableNames

omit [Host σ] in
theorem Running.declares_initially (d : Definition) (s : String) :
    (Running.initially d s).Declares d := by
  simp [Running.Declares, Running.initially, Values.names, Values.ofList,
    Definition.variableNames]

theorem Running.Declares.apply {a : Running} {h : σ} (ha : a.Declares d) (x : Effect) :
    (a.apply d h x).1.Declares d := by
  cases x <;> simp only [Running.apply]
  · split
    · rename_i name value hname
      have hmem : name ∈ a.vars.names := by
        rw [ha]
        exact Definition.hasVariable_iff.1 hname
      exact (Values.names_set_of_mem hmem).trans ha
    · exact ha
  · split
    all_goals exact ha
  · exact ha
  · exact ha

theorem Running.Declares.applyAll : ∀ (l : List Effect) {a : Running} {h : σ}, a.Declares d →
    (a.applyAll d h l).1.Declares d
  | [], _, _, ha => ha
  | x :: rest, _, _, ha => Running.Declares.applyAll rest (ha.apply x)

theorem Running.Declares.arrive {a : Running} {h : σ} {e : Evaluator} {target : String}
    (ha : a.Declares d) : (a.arrive d e h target).1.Declares d := by
  have hrel : (a.relocate target).Declares d := ha
  rw [Running.arrive_fst]
  exact hrel.applyAll _

theorem Running.Declares.enter {a : Running} {h : σ} {e : Evaluator} {target : String}
    (ha : a.Declares d) : (a.enter d e h target).1.Declares d := by
  obtain ⟨ts, hts, -⟩ := Running.enter_fst d e a h target
  have harr : (a.arrive d e h target).1.Declares d := ha.arrive
  rw [hts]
  exact harr

theorem Running.stable_declares {e : Evaluator} :
    Running.Stable d e fun a (_ : σ) => a.Declares d where
  guardFailed _ _ ha := ha
  enter _ ha := ha.enter

end Report

/-! ### Runs -/

namespace Mirror

theorem hearAll_eq_self {v : Mirror} : ∀ {calls : List HostCall}, (∀ c ∈ calls, v.hear c = v) →
    v.hearAll calls = v
  | [], _ => rfl
  | c :: rest, h => by
    rw [hearAll, List.foldl_cons, h c (List.mem_cons_self ..)]
    exact hearAll_eq_self fun c hc => h c (List.mem_cons_of_mem _ hc)

/-- A status report tells nothing new. -/
theorem hear_status {d : Definition} {v : Mirror} {a : Running} (hv : v.Shows a)
    (ha : a.Declares d) : v.hearAll ((a.statusNotices d).map .notice) = v := by
  refine hearAll_eq_self fun c hc => ?_
  obtain ⟨n, hn, rfl⟩ := List.mem_map.1 hc
  simp only [Running.statusNotices, List.mem_append, List.mem_cons, List.mem_map] at hn
  rcases hn with (rfl | ⟨x, hx, rfl⟩) | ⟨o, -, rfl⟩
  · simp only [hear, ← hv.state]
  · have hmem : x.name ∈ a.vars.names := by
      rw [ha]
      exact List.mem_map_of_mem hx
    obtain ⟨value, hvalue⟩ := Values.exists_get? hmem
    have hsame : v.vars x.name = some value := by rw [hv.vars, hvalue]
    simp only [hear, hvalue, Option.getD_some]
    rw [← hsame, Function.update_eq_self]
  · simp only [hear, ← hv.outputs, Function.update_eq_self]

/-- A mirror shows an interpreter that has been started, whose variables are the declared ones. -/
def ShowsInterpreter (v : Mirror) (m : Interpreter) : Prop :=
  ∃ a, m.running = some a ∧ v.Shows a ∧ a.Declares m.definition

variable {σ : Type} [Host σ] {m : Interpreter} {h : σ} {v : Mirror}

theorem shows_perform (hv : v.ShowsInterpreter m) (op : Operation) :
    (v.hearAll (m.callsOf h op)).ShowsInterpreter (m.perform h op).interpreter := by
  obtain ⟨a, hm, hs, hd⟩ := hv
  have hprep : (v.heard (op.prepare m.definition a (⟨h, []⟩ : Traced σ)).2).Shows
        (op.prepare m.definition a (⟨h, []⟩ : Traced σ)).1
      ∧ (op.prepare m.definition a (⟨h, []⟩ : Traced σ)).1.Declares m.definition := by
    cases op with
    | start => exact ⟨hs, hd⟩
    | step event => exact ⟨hs, hd⟩
    | moveTo target => exact ⟨hs, hd⟩
    | input name value => exact ⟨⟨⟨hs.vars, hs.outputs⟩, hs.state⟩, hd⟩
    | fire id =>
      simp only [Operation.prepare]
      split
      · exact ⟨⟨⟨hs.vars, hs.outputs⟩, hs.state⟩, hd⟩
      · exact ⟨hs, hd⟩
    | report =>
      refine ⟨?_, hd⟩
      simp only [Operation.prepare, heard, calls_report, List.append_nil, List.reverse_reverse]
      rwa [hear_status hs hd]
    | terminate =>
      simp only [Operation.prepare, heard_cancelAll]
      exact ⟨⟨⟨hs.vars, hs.outputs⟩, hs.state⟩, hd⟩
  obtain ⟨a', hm', hs', hd'⟩ :=
    Interpreter.stable_traced ((stable_shows v).and Running.stable_declares) hm hprep
  simp only [heard, List.reverse_reverse] at hs'
  exact ⟨a', hm', hs', by rwa [Interpreter.definition_perform]⟩

theorem shows_performAll : ∀ (ops : List Operation) {m : Interpreter} {h : σ} {v : Mirror},
    v.ShowsInterpreter m →
      (v.hearAll (m.calls h ops)).ShowsInterpreter (m.performAll h ops).1
  | [], _, _, _, hv => hv
  | op :: ops, m, h, v, hv => by
    rw [Interpreter.calls_cons, hearAll_append]
    exact shows_performAll ops (shows_perform hv op)

theorem lookup_initial (name : String) : ∀ l : List Machine.Variable,
    (l.map fun x => (x.name, x.initial)).lookup name
      = (l.find? (·.name = name)).map (·.initial)
  | [] => rfl
  | x :: rest => by
    rw [List.map_cons, Values.lookup_cons_eq_ite, List.find?_cons, lookup_initial name rest]
    by_cases h : name = x.name
    · simp [h]
    · simp [h, Ne.symm h]

theorem blank_shows {d : Definition} (s : String) :
    (blank d).ShowsValues (Running.initially d s) where
  vars name := (lookup_initial name d.vars).symm
  outputs _ := rfl

theorem shows_start {s : String} (hm : m.running = none) (hs : m.definition.initial = some s) :
    ((blank m.definition).hearAll (m.callsOf h .start)).ShowsInterpreter
      (m.perform h .start).interpreter := by
  have hshow : ((blank m.definition).heard (⟨h, []⟩ : Traced σ)).ShowsValues
      (Running.initially m.definition s) := blank_shows s
  obtain ⟨a', hm', hs', hd'⟩ := Interpreter.stable_traced_start
    ((stable_shows (blank m.definition)).and Running.stable_declares) hm hs
    ⟨shows_enter hshow, (Running.declares_initially _ s).enter⟩
  simp only [heard, List.reverse_reverse] at hs'
  exact ⟨a', hm', hs', by rwa [Interpreter.definition_perform]⟩

end Mirror

theorem Interpreter.callsOf_report {σ : Type} [Host σ] {m : Interpreter} {h : σ} {a : Running}
    (hm : m.running = some a) :
    m.callsOf h .report = (a.statusNotices m.definition).map .notice := by
  simp only [Interpreter.callsOf, Interpreter.perform, Interpreter.reportStatus, hm, calls_report,
    List.append_nil, List.reverse_reverse]

/-- From the start on, replaying what the host has received shows the automaton after every
operation: its state, its variables and its outputs.  A status report then tells exactly what the
replay shows, in the order of declaration, and leaves everything as it is. -/
theorem observer_mirror {σ : Type} [Host σ] (d : Definition) (e : Evaluator) (h : σ)
    (ops : List Operation) (hd : d.initial ≠ none) :
    let m := Interpreter.ofDefinition d e
    let after := m.performAll h (.start :: ops)
    let view := (Mirror.blank d).hearAll (m.calls h (.start :: ops))
    view.state = after.1.current? ∧ view.state.isSome
      ∧ (∀ name, view.vars name = after.1.variableValue? name)
      ∧ (∀ name ∈ d.variableNames, (view.vars name).isSome)
      ∧ (∀ name, view.outputs name = (after.1.outputValue? name).getD "")
      ∧ after.1.callsOf after.2 .report
        = (.notice (.state (view.state.getD ""))
            :: (d.vars.map fun x => .notice (.var x.name ((view.vars x.name).getD "")))
          ++ d.outputs.map fun o => .notice (.output o (view.outputs o)))
      ∧ (after.1.perform after.2 .report).result = .ok none
      ∧ (after.1.perform after.2 .report).interpreter = after.1
      ∧ view.hearAll (after.1.callsOf after.2 .report) = view := by
  intro m after view
  obtain ⟨s, hs⟩ := Option.ne_none_iff_exists'.1 hd
  obtain ⟨a, hm, hv, hdecl⟩ : view.ShowsInterpreter after.1 := by
    have hcalls : m.calls h (.start :: ops) = m.callsOf h .start
        ++ (m.perform h .start).interpreter.calls (m.perform h .start).host ops := rfl
    simp only [view, after, hcalls, Mirror.hearAll_append]
    exact Mirror.shows_performAll ops (Mirror.shows_start rfl hs)
  have hdef : after.1.definition = d := Interpreter.definition_performAll _ _ _
  have hreport : after.1.callsOf after.2 .report = (a.statusNotices d).map .notice := by
    rw [Interpreter.callsOf_report hm, hdef]
  rw [hdef] at hdecl
  refine ⟨by rw [hv.state, Interpreter.current?, hm]; rfl, by rw [hv.state]; rfl,
    fun name => by rw [hv.vars, Interpreter.variableValue?, hm]; rfl, fun name hname => ?_,
    fun name => by rw [hv.outputs, Interpreter.outputValue?, hm]; rfl, ?_, ?_, ?_, ?_⟩
  · rw [← hdecl] at hname
    obtain ⟨value, hvalue⟩ := Values.exists_get? hname
    rw [hv.vars, hvalue]
    rfl
  · rw [hreport, Running.statusNotices, hv.state]
    simp only [hv.vars, hv.outputs, Option.getD_some, List.map_append, List.map_cons, List.map_map]
    rfl
  · simp [Interpreter.perform, Interpreter.reportStatus, hm, Except.map]
  · simp [Interpreter.perform, Interpreter.reportStatus, hm]
  · rw [hreport]
    exact Mirror.hear_status hv hdecl

open CommandLine in
theorem observer_mirror_blink :
    let m := Interpreter.ofDefinition Blink.definition Blink.registry.evaluator
    let ops : List Operation := [.start, .input "start" "1", .fire ⟨0, 1⟩, .report, .terminate]
    let view := (Mirror.blank Blink.definition).hearAll (m.calls ({} : Recorder) ops)
    Blink.definition.initial ≠ none
      ∧ view.state = (m.performAll ({} : Recorder) ops).1.current?
      ∧ (m.performAll ({} : Recorder) ops).1.variableValue? "toggles" = some "2"
      ∧ view.vars "toggles" = some "2" := by
  intro m ops view
  have hd : Blink.definition.initial ≠ none := by decide +kernel
  obtain ⟨hstate, -, hvars, -⟩ := observer_mirror Blink.definition Blink.registry.evaluator
    ({} : Recorder) [.input "start" "1", .fire ⟨0, 1⟩, .report, .terminate] hd
  have htoggles : (m.performAll ({} : Recorder) ops).1.variableValue? "toggles" = some "2" := by
    decide +kernel
  exact ⟨hd, hstate, htoggles, (hvars "toggles").trans htoggles⟩

end RemoteAutomaton.Automaton
