import Mathlib.Data.List.Basic
import Mathlib.Tactic.SplitIfs
import RemoteAutomaton.Engine.Session
import RemoteAutomaton.Proofs.Operation

/-!
# What events ask of a session

Of an engine that runs an interpreter every event asks one of four things: an operation of the
interpreter, the report of a failure, the end, or nothing more than to take note of it (`Request`).
`dispatch_eq` says this once for all handlers, so what holds of a session after an event is shown by
cases on the request.  After every event, and when the loop begins, the engine goes on or finishes
(`proceed`).
-/

namespace RemoteAutomaton.Engine

open Automaton (Evaluator Host Interpreter Operation Outcome Running)
open Machine (Definition)
open Network (Access Socket)

variable {σ : Type} [Socket σ]

inductive Request where
  | perform (op : Operation)
  | report (text : String)
  | stop
  | idle
  deriving DecidableEq, Repr

namespace Request

/-- What a message of the observer asks for. -/
def ofMessage : Except Network.Error Message.Inbound → Request
  | .error e => report (Error.network e).report
  | .ok m =>
    match m.kind with
    | .input => perform (.input m.name m.value)
    | .command =>
      match m.command with
      | .ok .terminate => stop
      | .ok .getStatus => perform .report
      | .error e => report (Error.network (.message e)).report

def isStop : Request → Bool
  | stop => true
  | perform _ | report _ | idle => false

/-- The interpreter and the link once a request has been served. -/
def serve (m : Interpreter) (l : Link σ) : Request → Interpreter × Link σ
  | perform op => surface (m.perform l op)
  | report text => (m, l.sendError text)
  | stop | idle => (m, l)

end Request

omit [Socket σ] in
/-- What something that the socket has received asks for. -/
def requestOf {τ : Type} (g : Engine σ τ) (r : Except String ByteArray) : Request :=
  if g.link.transport.isReceiving then .ofMessage (Network.receive Message.maxDatagramSize r)
  else .idle

omit [Socket σ] in
def request {τ : Type} (g : Engine σ τ) : Event → Request
  | .shutdown | .signal => .stop
  | .writable | .waitFailed _ | .elapsed _ => .idle
  | .expiry =>
    match g.link.timers.next.1 with
    | some x => .perform (.fire x.id)
    | none => .idle
  | .datagram d => g.requestOf (.ok d)
  | .receiveFailed reason => g.requestOf (.error reason)

/-- The link that has taken note of an event, before anything is done about it. -/
def heed {τ : Type} (g : Engine σ τ) : Event → Link σ
  | .writable => g.link.flush
  | .waitFailed reason => g.link.waitFailed reason
  | .elapsed ms => g.link.elapse ms
  | .expiry => { g.link with timers := g.link.timers.next.2 }
  | .shutdown | .signal | .datagram _ | .receiveFailed _ => g.link

theorem surface_map {α β : Type} (o : Outcome (Link σ) α) (f : α → β) :
    surface (⟨o.result.map f, o.interpreter, o.host⟩ : Outcome (Link σ) β) = surface o := by
  obtain ⟨r, m, l⟩ := o
  cases r <;> rfl

theorem Request.ofMessage_eq_perform {r : Except Network.Error Message.Inbound} {op : Operation}
    (h : Request.ofMessage r = .perform op) :
    (∃ name value, op = .input name value) ∨ op = .report := by
  unfold Request.ofMessage at h
  split at h
  · cases h
  · split at h
    · cases h
      exact .inl ⟨_, _, rfl⟩
    · split at h <;> cases h
      exact .inr rfl

omit [Socket σ] in
theorem requestOf_eq_perform {τ : Type} {g : Engine σ τ} {r : Except String ByteArray}
    {op : Operation} (h : g.requestOf r = .perform op) :
    (∃ name value, op = .input name value) ∨ op = .report := by
  unfold requestOf at h
  split_ifs at h
  exact Request.ofMessage_eq_perform h

/-- Operations are asked for by datagrams, and by the next timer that is due. -/
theorem request_eq_perform {τ : Type} {g : Engine σ τ} {e : Event} {op : Operation}
    (h : g.request e = .perform op) :
    g.heed e = g.link ∧ ((∃ name value, op = .input name value) ∨ op = .report)
      ∨ ∃ x timers, g.link.timers.next = (some x, timers) ∧ op = .fire x.id
        ∧ g.heed e = { g.link with timers } := by
  cases e with
  | shutdown | signal | writable | waitFailed | elapsed => cases h
  | expiry =>
    simp only [request] at h
    split at h
    · rename_i x hx
      cases h
      exact .inr ⟨x, g.link.timers.next.2, Prod.ext hx rfl, rfl, rfl⟩
    · cases h
  | datagram | receiveFailed => exact .inl ⟨rfl, requestOf_eq_perform h⟩

section Dispatch

variable {g : Engine σ Interpreter} {m : Interpreter}

theorem takeMessage_eq (hg : g.handlers = interpreterHandlers)
    (r : Except Network.Error Message.Inbound) :
    g.takeMessage m r
      = ((Request.ofMessage r).isStop, (Request.ofMessage r).serve m g.link) := by
  rcases r with e | msg
  · rfl
  · simp only [takeMessage, Request.ofMessage, hg]
    cases msg.kind with
    | input => exact congrArg (Prod.mk false) (surface_map ..).symm
    | command =>
      dsimp only
      rcases msg.command with e | _ | _
      · rfl
      · rfl
      · exact congrArg (Prod.mk false) (surface_map ..).symm

theorem takeReceived_eq (hg : g.handlers = interpreterHandlers) (r : Except String ByteArray) :
    g.takeReceived m r = ((g.requestOf r).isStop, (g.requestOf r).serve m g.link) := by
  unfold takeReceived requestOf
  split_ifs
  · exact takeMessage_eq hg _
  · rfl

/-- An event is taken note of, and then what it asks for is done. -/
theorem dispatch_eq (hg : g.handlers = interpreterHandlers) (e : Event) :
    g.dispatch m e = ((g.request e).isStop, (g.request e).serve m (g.heed e)) := by
  cases e with
  | shutdown | signal | writable | waitFailed | elapsed => rfl
  | expiry =>
    simp only [dispatch, request, heed]
    rcases g.link.timers.next with ⟨_ | x, timers⟩
    · rfl
    · dsimp only
      rw [hg]
      exact congrArg (Prod.mk false) (surface_map ..).symm
  | datagram | receiveFailed => exact takeReceived_eq hg _

end Dispatch

/-! ### Other handlers -/

section Handlers

variable {τ τ' : Type} {g : Engine σ τ} {h : Handlers σ τ'}

omit [Socket σ] in
/-- The engine with handlers for another automaton. -/
def withHandlers (g : Engine σ τ) (h : Handlers σ τ') : Engine σ τ' :=
  ⟨g.settings, g.link, h, g.stopped⟩

theorem connect_withHandlers {access : Access σ} {settings : Settings}
    (hg : connect access settings = .ok g) :
    (connect access settings : Except Error (Engine σ τ')) = .ok (g.withHandlers {}) := by
  simp only [connect, bind, Except.bind] at hg ⊢
  split at hg
  · cases hg
  · split at hg
    · cases hg
      rfl
    · cases hg

theorem handlers_stop : g.stop.handlers = g.handlers := by
  unfold stop
  split_ifs <;> rfl

theorem stop_withHandlers : (g.withHandlers h).stop = g.stop.withHandlers h := by
  unfold stop
  change (if g.stopped then _ else _) = _
  split_ifs <;> rfl

/-- Starting an interpreter calls no handler. -/
theorem startInterpreter_withHandlers (m : Interpreter) :
    startInterpreter (g.withHandlers h) m
      = ((startInterpreter g m).1, (startInterpreter g m).2.1.withHandlers h,
        (startInterpreter g m).2.2) := by
  have hlink : (g.withHandlers h).link = g.link := rfl
  unfold startInterpreter
  rw [hlink]
  generalize m.start g.link = o
  obtain ⟨err | _, m, l⟩ := o
  · dsimp only
    split_ifs <;> rfl
  · rfl

end Handlers

/-! ### Going on or finishing -/

/-- The engine after its failures have been handed to the error handler. -/
def drained (g : Engine σ Interpreter) (l : Link σ) : Engine σ Interpreter :=
  { g with link := { l with pendingErrors := [] } }

namespace Session

/-- The session whose interpreter has been terminated and whose engine has stopped after it. -/
def ended (g : Engine σ Interpreter) (m : Interpreter) (l : Link σ) : Session σ :=
  ⟨(g.drained (m.terminate l).2).stop, (m.terminate l).1⟩

/-- The session once a request has been served: it ends if that was asked for. -/
def proceed (g : Engine σ Interpreter) (m : Interpreter) (l : Link σ) (stops : Bool) : Session σ :=
  if stops || l.stopRequested then ended g m (g.drained l).link else ⟨g.drained l, m⟩

end Session

section Proceed

variable {g : Engine σ Interpreter} {m : Interpreter}

theorem drainErrors_eq (hg : g.handlers = interpreterHandlers) (l : Link σ) :
    drainErrors { g with link := l } m = (g.drained l, m) := by
  have herror : g.handlers.error = some fun m _ => m := by rw [hg, interpreterHandlers]
  simp only [drainErrors, drained, herror, List.foldl_fixed]

theorem finish_eq (hg : g.handlers = interpreterHandlers) :
    g.finish m = ((Session.ended g m g.link).engine, (Session.ended g m g.link).interpreter) := by
  have hterm : g.handlers.terminate = some fun m link => m.terminate link := by
    rw [hg, interpreterHandlers]
  unfold finish
  rw [hterm]
  dsimp only
  rw [drainErrors_eq hg]
  rfl

theorem proceed_eq (hg : g.handlers = interpreterHandlers) (l : Link σ) (stops : Bool) :
    Session.proceed g m l stops =
      let x := if stops || (g.drained l).link.stopRequested then (g.drained l).finish m
        else (g.drained l, m)
      ⟨x.1, x.2⟩ := by
  have hstop : (g.drained l).link.stopRequested = l.stopRequested := rfl
  rw [finish_eq (g := g.drained l) hg, hstop]
  unfold Session.proceed
  split_ifs <;> rfl

/-- After an event the engine has served what the event asks for, and goes on or ends. -/
theorem step_eq {s : Session σ} (hg : s.engine.handlers = interpreterHandlers)
    (hstop : s.engine.stopped = false) (e : Event) :
    let r := (s.engine.request e).serve s.interpreter (s.engine.heed e)
    s.step e = .proceed s.engine r.1 r.2 (s.engine.request e).isStop := by
  intro r
  unfold Session.step Engine.step
  rw [if_neg (Bool.eq_false_iff.1 hstop), dispatch_eq hg, proceed_eq hg]
  dsimp only
  rw [drainErrors_eq hg]

theorem step_of_stopped {s : Session σ} (hstop : s.engine.stopped = true) (e : Event) :
    s.step e = s := by
  simp only [Session.step, Engine.step, hstop]
  rfl

theorem begin_eq (hg : g.handlers = interpreterHandlers) (hstop : g.stopped = false) :
    g.begin m = (.ok (), (Session.proceed g m g.link false).engine,
      (Session.proceed g m g.link false).interpreter) := by
  have hmissing : g.handlers.missing = [] := by
    rw [hg]
    rfl
  have hdrain : g.drainErrors m = (g.drained g.link, m) := drainErrors_eq hg g.link
  unfold Engine.begin
  rw [hmissing]
  dsimp only
  rw [if_neg (Bool.eq_false_iff.1 hstop), hdrain, proceed_eq hg]
  rfl

end Proceed

/-! ### The start -/

section Start

variable {d : Definition} {e : Evaluator} {g : Engine σ Interpreter}

theorem connect_ok {access : Access σ} {settings : Settings} (h : connect access settings = .ok g) :
    g.stopped = false ∧ g.link.timers = {} := by
  simp only [connect, bind, Except.bind] at h
  split at h
  · cases h
  · split at h
    · cases h
      exact ⟨rfl, rfl⟩
    · cases h

theorem isRecoverable_of_start {τ : Type} [Host τ] {h : τ} {s : String} {err : Automaton.Error}
    (hs : d.initial = some s)
    (herr : ((Interpreter.ofDefinition d e).start h).result = .error err) : err.isRecoverable := by
  rw [Interpreter.start_of_initial (m := .ofDefinition d e) rfl hs] at herr
  obtain ⟨s, rfl⟩ := Running.cycled_of_settle herr
  rfl

/-- An interpreter with an initial state is started like any operation is done. -/
theorem startInterpreter_of_some {s : String} (hs : d.initial = some s) :
    let r := (Request.perform .start).serve (.ofDefinition d e) g.link
    startInterpreter g (.ofDefinition d e) = (.ok (), { g with link := r.2 }, r.1) := by
  have hrec : ∀ {err}, ((Interpreter.ofDefinition d e).start g.link).result = .error err →
    err.isRecoverable := isRecoverable_of_start hs
  simp only [Request.serve, Interpreter.perform]
  rw [surface_map]
  unfold startInterpreter surface
  generalize (Interpreter.ofDefinition d e).start g.link = o at hrec ⊢
  obtain ⟨err | _, m, l⟩ := o
  · dsimp only
    rw [if_pos (hrec rfl)]
  · rfl

theorem startInterpreter_of_none (hs : d.initial = none) : ∃ err,
    startInterpreter g (.ofDefinition d e) = (.error (.automaton err),
      { g with link := g.link.sendError err.report }, .ofDefinition d e) := by
  refine ⟨.notConfigured ("machine '" ++ d.name ++ "' has no initial state"), ?_⟩
  simp only [startInterpreter, Interpreter.start, Interpreter.ofDefinition, hs, Interpreter.refuse,
    Automaton.Error.isRecoverable]
  rfl

theorem session_begin_of_some {access : Access σ} {settings : Settings} {s : String}
    {g : Engine σ Interpreter} (hg : connect access settings = .ok g) (hs : d.initial = some s) :
    let r := (Request.perform .start).serve (.ofDefinition d e) g.link
    Session.begin access settings (.ofDefinition d e)
      = .ok (.ok (), .proceed { g with handlers := interpreterHandlers } r.1 r.2 false) := by
  intro r
  simp only [Session.begin, bind, Except.bind, hg, startInterpreter_of_some hs]
  rw [begin_eq (g := { g with handlers := interpreterHandlers, link := r.2 }) rfl (connect_ok hg).1]
  rfl

theorem session_begin_of_none {access : Access σ} {settings : Settings}
    {g : Engine σ Interpreter} (hg : connect access settings = .ok g) (hs : d.initial = none) :
    ∃ err, Session.begin access settings (.ofDefinition d e) = .ok (.error (.automaton err),
      ⟨stop { g with handlers := interpreterHandlers, link := g.link.sendError err.report },
        .ofDefinition d e⟩) := by
  obtain ⟨err, hstart⟩ := startInterpreter_of_none (e := e)
    (g := { g with handlers := interpreterHandlers }) hs
  refine ⟨err, ?_⟩
  simp only [Session.begin, bind, Except.bind, hg, hstart]
  rfl

/-- A session that has begun was announced.  Then its interpreter was started and it went on or
ended, or there was no state to start from and its engine was stopped. -/
theorem session_begin_cases {access : Access σ} {settings : Settings} {r : Except Error Unit}
    {s : Session σ} (h : Session.begin access settings (.ofDefinition d e) = .ok (r, s)) :
    ∃ g : Engine σ Interpreter, connect access settings = .ok g ∧
      ((∃ err, d.initial = none ∧ r = .error (.automaton err) ∧ s =
          ⟨stop { g with handlers := interpreterHandlers, link := g.link.sendError err.report },
            .ofDefinition d e⟩)
        ∨ d.initial ≠ none ∧ r = .ok () ∧ s =
          let r := (Request.perform .start).serve (.ofDefinition d e) g.link
          .proceed { g with handlers := interpreterHandlers } r.1 r.2 false) := by
  rcases hg : (connect access settings : Except Error (Engine σ Interpreter)) with err | g
  · simp only [Session.begin, bind, Except.bind, hg] at h
    cases h
  · refine ⟨g, rfl, ?_⟩
    rcases hs : d.initial with _ | state
    · obtain ⟨err, hbegin⟩ := session_begin_of_none (e := e) hg hs
      rw [hbegin] at h
      cases h
      exact .inl ⟨err, rfl, rfl, rfl⟩
    · rw [session_begin_of_some hg hs] at h
      cases h
      exact .inr ⟨Option.some_ne_none _, rfl, rfl⟩

end Start

end RemoteAutomaton.Engine
