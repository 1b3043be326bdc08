import RemoteAutomaton.Engine.Noted
import RemoteAutomaton.Proofs.SessionTimers

/-!
# Handlers that are watched

To tell which handlers an engine calls, and when, its handlers are made to note each call together
with something they see of the link (`Handlers.watched`).  An engine with watched handlers does what
it does without the watch; its notes are the handlers that the events asked for, and at the end the
terminate handler (`watches_step`).
-/

namespace RemoteAutomaton.Engine

open Automaton (Evaluator Interpreter)
open Machine (Definition)
open Network (Access Socket)

/-- A handler other than the one for failures. -/
inductive Call where
  | input
  | timeout
  | terminate
  | status
  deriving DecidableEq, Repr

/-- Handlers that do what `h` does and note each call with what they see of the link before it. -/
def Handlers.watched {σ κ τ : Type} (look : Link σ → κ) (h : Handlers σ τ) :
    Handlers σ (Noted (Call × κ) τ) where
  input := h.input.map fun f w link name value =>
    (w.note (.input, look link)).on (f · link name value)
  timeout := h.timeout.map fun f w link id target =>
    (w.note (.timeout, look link)).on (f · link id target)
  terminate := h.terminate.map fun f w link => (w.note (.terminate, look link)).on (f · link)
  error := h.error.map fun f w text => { w with automaton := f w.automaton text }
  status := h.status.map fun f w link => (w.note (.status, look link)).on (f · link)

/-- An engine whose handlers are watched. -/
def watched {σ κ τ : Type} (look : Link σ → κ) (g : Engine σ τ) :
    Engine σ (Noted (Call × κ) τ) :=
  ⟨g.settings, g.link, g.handlers.watched look, g.stopped⟩

/-- The handler that a request is for. -/
def Request.call? : Request → Option Call
  | perform (.input _ _) => some .input
  | perform (.fire _) => some .timeout
  | perform .report => some .status
  | perform _ | report _ | stop | idle => none

variable {σ κ : Type} [Socket σ]

/-- A session under watch. -/
structure Watch (σ κ : Type) where
  engine : Engine σ (Noted (Call × κ) Interpreter)
  automaton : Noted (Call × κ) Interpreter

namespace Watch

def calls (w : Watch σ κ) : List (Call × κ) := w.automaton.notes.toList

/-- Opens a session under watch, as `Session.begin` opens one. -/
def begin (look : Link σ → κ) (access : Access σ) (s : Settings) (m : Interpreter) :
    Except Error (Except Error Unit × Watch σ κ) := do
  let g : Engine σ (Noted (Call × κ) Interpreter) ← Engine.connect access s
  match startInterpreter { g with handlers := interpreterHandlers.watched look } m with
  | (.error e, g, m) => return (.error e, ⟨g.stop, { automaton := m }⟩)
  | (.ok (), g, m) =>
    let (r, g, w) := g.begin { automaton := m }
    return (r, ⟨g, w⟩)

def step (w : Watch σ κ) (e : Event) : Watch σ κ :=
  let (g, a) := w.engine.step w.automaton e
  ⟨g, a⟩

def take (w : Watch σ κ) : Happening → Watch σ κ
  | .event e => w.step e
  | .drift now asleep due =>
    let timers := { w.engine.link.timers with now, asleep, due }
    { w with engine := { w.engine with link := { w.engine.link with timers } } }

end Watch

/-- A session under watch that has made these calls. -/
def Watch.ofSession (look : Link σ → κ) (s : Session σ) (calls : List (Call × κ)) : Watch σ κ :=
  ⟨s.engine.watched look, ⟨s.interpreter, calls.toArray⟩⟩

/-- The call that serves a request. -/
def Request.calls (look : Link σ → κ) (l : Link σ) (q : Request) : List (Call × κ) :=
  (q.call?.map (·, look l)).toList

/-- The call that a session makes if it ends after a request. -/
def endCalls (look : Link σ → κ) (l : Link σ) (stops : Bool) : List (Call × κ) :=
  if stops || l.stopRequested then [(.terminate, look { l with pendingErrors := [] })] else []

/-! ### The watch changes nothing -/

section Step

variable {look : Link σ → κ} {g : Engine σ Interpreter} {m : Interpreter}
  {calls : List (Call × κ)}

/-- A request that has been served under watch: whether to stop, the automaton and the link. -/
def Request.watch (look : Link σ → κ) (m : Interpreter) (calls : List (Call × κ)) (l : Link σ)
    (q : Request) : Bool × Noted (Call × κ) Interpreter × Link σ :=
  (q.isStop, ⟨(q.serve m l).1, (calls ++ q.calls look l).toArray⟩, (q.serve m l).2)

theorem watch_of_not_called (q : Request) (l : Link σ) (hq : q.call? = none) :
    (q.isStop, ⟨(q.serve m l).1, calls.toArray⟩, (q.serve m l).2) = q.watch look m calls l := by
  rw [Request.watch, Request.calls, hq, Option.map_none, Option.toList_none, List.append_nil]

omit [Socket σ] in
theorem on_note (c : Call) (l : Link σ) (f : Interpreter → Interpreter × Link σ) :
    ((⟨m, calls.toArray⟩ : Noted (Call × κ) Interpreter).note (c, look l)).on f
      = (⟨(f m).1, (calls ++ [(c, look l)]).toArray⟩, (f m).2) := by
  simp [Noted.note, Noted.on]

theorem takeMessage_watched (hg : g.handlers = interpreterHandlers)
    (r : Except Network.Error Message.Inbound) :
    (g.watched look).takeMessage ⟨m, calls.toArray⟩ r
      = (Request.ofMessage r).watch look m calls g.link := by
  rcases r with e | msg
  · exact watch_of_not_called (.report _) _ rfl
  · simp only [takeMessage, Request.ofMessage, watched, hg]
    cases msg.kind with
    | input =>
      dsimp only [Handlers.watched, interpreterHandlers, Option.map_some]
      rw [on_note, ← surface_map]
      rfl
    | command =>
      dsimp only
      rcases msg.command with e | _ | _
      · exact watch_of_not_called (.report _) _ rfl
      · exact watch_of_not_called .stop _ rfl
      · dsimp only [Handlers.watched, interpreterHandlers, Option.map_some]
        rw [on_note, ← surface_map]
        rfl

theorem takeReceived_watched (hg : g.handlers = interpreterHandlers)
    (r : Except String ByteArray) :
    (g.watched look).takeReceived ⟨m, calls.toArray⟩ r
      = (g.requestOf r).watch look m calls g.link := by
  unfold takeReceived requestOf
  change (if g.link.transport.isReceiving then _ else _) = _
  split_ifs
  · exact takeMessage_watched hg _
  · exact watch_of_not_called .idle _ rfl

theorem dispatch_watched (hg : g.handlers = interpreterHandlers) (e : Event) :
    (g.watched look).dispatch ⟨m, calls.toArray⟩ e
      = (g.request e).watch look m calls (g.heed e) := by
  cases e with
  | shutdown | signal => exact watch_of_not_called .stop _ rfl
  | writable | waitFailed | elapsed => exact watch_of_not_called .idle _ rfl
  | expiry =>
    simp only [dispatch, request, heed]
    rcases hx : g.link.timers.next with ⟨_ | x, timers⟩
    · simp only [watched, hx]
      exact watch_of_not_called .idle _ rfl
    · simp only [watched, hx, hg]
      dsimp only [Handlers.watched, interpreterHandlers, Option.map_some]
      rw [on_note, ← surface_map]
      rfl
  | datagram | receiveFailed => exact takeReceived_watched hg _

theorem drainErrors_watched (hg : g.handlers = interpreterHandlers) (l : Link σ)
    (w : Noted (Call × κ) Interpreter) :
    drainErrors { g.watched look with link := l } w = ((g.drained l).watched look, w) := by
  have herror : (g.watched look).handlers.error = some fun w _ => w := by
    rw [watched, hg]
    rfl
  simp only [drainErrors, herror, List.foldl_fixed]
  rfl

theorem stop_watched : (g.watched look).stop = g.stop.watched look := by
  have hstop : (g.watched look).stop = g.stop.withHandlers (g.handlers.watched look) :=
    stop_withHandlers
  rw [hstop, ← handlers_stop]
  rfl

theorem finish_watched (hg : g.handlers = interpreterHandlers) :
    (g.watched look).finish ⟨m, calls.toArray⟩
      = ((Session.ended g m g.link).engine.watched look,
        ⟨(Session.ended g m g.link).interpreter,
          (calls ++ [(Call.terminate, look g.link)]).toArray⟩) := by
  have hterm : (g.watched look).handlers.terminate
      = some fun w link => (w.note (.terminate, look link)).on fun m => m.terminate link := by
    rw [watched, hg]
    rfl
  unfold finish
  rw [hterm]
  dsimp only
  rw [on_note Call.terminate]
  dsimp only
  rw [drainErrors_watched hg, Session.ended]
  dsimp only
  rw [stop_watched]
  rfl

/-- Going on or ending, under watch as without it. -/
theorem proceed_watched (hg : g.handlers = interpreterHandlers) (l : Link σ) (stops : Bool) :
    (let x := if stops || ((g.drained l).watched look).link.stopRequested then
        ((g.drained l).watched look).finish ⟨m, calls.toArray⟩
      else ((g.drained l).watched look, ⟨m, calls.toArray⟩)
    (⟨x.1, x.2⟩ : Watch σ κ))
      = .ofSession look (.proceed g m l stops) (calls ++ endCalls look l stops) := by
  have hstop : ((g.drained l).watched look).link.stopRequested = l.stopRequested := rfl
  rw [finish_watched (g := g.drained l) hg, hstop]
  unfold Session.proceed endCalls
  split_ifs
  · rfl
  · rw [List.append_nil]
    rfl

/-- The calls that a session makes at an event. -/
def Session.callsOf (look : Link σ → κ) (s : Session σ) (e : Event) : List (Call × κ) :=
  if s.engine.stopped then []
  else
    let q := s.engine.request e
    q.calls look (s.engine.heed e)
      ++ endCalls look (q.serve s.interpreter (s.engine.heed e)).2 q.isStop

theorem watches_step {s : Session σ}
    (hg : s.engine.stopped = false → s.engine.handlers = interpreterHandlers) (e : Event) :
    (Watch.ofSession look s calls).step e
      = .ofSession look (s.step e) (calls ++ s.callsOf look e) := by
  rcases hstop : s.engine.stopped with _ | _
  · have hg := hg hstop
    have hstop' : (Watch.ofSession look s calls).engine.stopped = false := hstop
    have hdispatch : (s.engine.watched look).dispatch ⟨s.interpreter, calls.toArray⟩ e
        = (s.engine.request e).watch look s.interpreter calls (s.engine.heed e) :=
      dispatch_watched hg e
    rw [step_eq hg hstop, Session.callsOf, if_neg (Bool.eq_false_iff.1 hstop)]
    unfold Watch.step Engine.step
    rw [if_neg (Bool.eq_false_iff.1 hstop')]
    dsimp only [Watch.ofSession]
    rw [hdispatch, Request.watch]
    dsimp only
    rw [← List.append_assoc, drainErrors_watched hg]
    exact proceed_watched hg _ _
  · have hstop' : (Watch.ofSession look s calls).engine.stopped = true := hstop
    rw [step_of_stopped hstop, Session.callsOf, if_pos hstop, List.append_nil]
    unfold Watch.step Engine.step
    rw [if_pos hstop']

/-- The calls that a session makes when something happens. -/
def Session.callsAt (look : Link σ → κ) (s : Session σ) : Happening → List (Call × κ)
  | .event e => s.callsOf look e
  | .drift .. => []

theorem watches_take (look : Link σ → κ) (calls : List (Call × κ)) {s : Session σ}
    (hg : s.engine.stopped = false → s.engine.handlers = interpreterHandlers) (x : Happening) :
    (Watch.ofSession look s calls).take x
      = .ofSession look (s.take x) (calls ++ s.callsAt look x) := by
  cases x with
  | event e => exact watches_step hg e
  | drift now asleep due => simp only [Session.callsAt, List.append_nil]; rfl

end Step

/-! ### The start under watch -/

section Start

variable {look : Link σ → κ} {g : Engine σ Interpreter} {d : Definition} {e : Evaluator}
  {access : Access σ} {settings : Settings}

theorem begin_watched (look : Link σ → κ) (hg : g.handlers = interpreterHandlers)
    (hstop : g.stopped = false) (m : Interpreter) :
    (let (r, g, w) := (g.watched look).begin { automaton := m }
    ((r, ⟨g, w⟩) : Except Error Unit × Watch σ κ))
      = (.ok (), .ofSession look (.proceed g m g.link false) (endCalls look g.link false)) := by
  have hmissing : (g.watched look).handlers.missing = [] := by
    rw [watched, hg]
    rfl
  have hstop' : (g.watched look).stopped = false := hstop
  have hdrain : (g.watched look).drainErrors (⟨m, [].toArray⟩ : Noted (Call × κ) Interpreter)
      = ((g.drained g.link).watched look, ⟨m, [].toArray⟩) := drainErrors_watched hg g.link _
  have hproceed : _ = Watch.ofSession look (.proceed g m g.link false)
      ([] ++ endCalls look g.link false) := proceed_watched hg g.link false
  unfold Engine.begin
  rw [hmissing]
  dsimp only
  rw [if_neg (Bool.eq_false_iff.1 hstop'), hdrain]
  rw [List.nil_append] at hproceed
  rw [← hproceed]
  rfl

theorem watch_begin_of_some {state : String} (hg : connect access settings = .ok g)
    (hs : d.initial = some state) :
    let r := (Request.perform .start).serve (.ofDefinition d e) g.link
    Watch.begin look access settings (.ofDefinition d e)
      = .ok (.ok (), .ofSession look (.proceed { g with handlers := interpreterHandlers } r.1 r.2
        false) (endCalls look r.2 false)) := by
  intro r
  have hstart : startInterpreter (watched look { g with handlers := interpreterHandlers })
      (.ofDefinition d e)
      = (.ok (), watched look { g with handlers := interpreterHandlers, link := r.2 }, r.1) := by
    refine (startInterpreter_withHandlers
      (g := { g with handlers := interpreterHandlers }) _).trans ?_
    rw [startInterpreter_of_some hs]
    rfl
  have hbegin := begin_watched look
    (g := { g with handlers := interpreterHandlers, link := r.2 }) rfl (connect_ok hg).1 r.1
  simp only [Watch.begin, bind, Except.bind, connect_withHandlers hg]
  change (match startInterpreter (watched look { g with handlers := interpreterHandlers })
    (.ofDefinition d e) with | (.error e, g, m) => _ | (.ok (), g, m) => _) = _
  rw [hstart]
  exact congrArg Except.ok hbegin

/-- A session that cannot start makes no call. -/
theorem watch_begin_of_none {r : Except Error Unit} {s : Session σ} (hs : d.initial = none)
    (h : Session.begin access settings (.ofDefinition d e) = .ok (r, s)) :
    Watch.begin look access settings (.ofDefinition d e) = .ok (r, .ofSession look s []) := by
  obtain ⟨g, hg, -⟩ := session_begin_cases h
  obtain ⟨err, hstart⟩ := startInterpreter_of_none (e := e)
    (g := { g with handlers := interpreterHandlers }) hs
  simp only [Session.begin, bind, Except.bind, hg, hstart] at h
  cases h
  simp only [Watch.begin, bind, Except.bind, connect_withHandlers hg]
  change (match startInterpreter (watched look { g with handlers := interpreterHandlers })
    (.ofDefinition d e) with | (.error e, g, m) => _ | (.ok (), g, m) => _) = _
  have hwatched : startInterpreter (watched look { g with handlers := interpreterHandlers })
      (.ofDefinition d e) = _ :=
    startInterpreter_withHandlers (g := { g with handlers := interpreterHandlers }) _
  rw [hwatched, hstart]
  exact congrArg (fun g => Except.ok (_, Watch.mk g _)) stop_watched

end Start

end RemoteAutomaton.Engine
