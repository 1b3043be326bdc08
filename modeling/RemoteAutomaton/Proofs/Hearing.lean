import RemoteAutomaton.Engine.Noted
import RemoteAutomaton.Proofs.OutboundGrammar
import RemoteAutomaton.Proofs.SessionShape

/-!
# Every failure is handed on once

What goes wrong is told to the observer at once and kept for the error handler until the engine gets
to it.  To tell what the error handler gets, it is made to note the texts (`Handlers.noting`), which
changes nothing else that an engine does (`dispatch_noting`).

Over a socket that takes every datagram, what a link has told and not yet handed on is pending
(`Link.Owes`).  This is kept by whatever an automaton does with its link, and after every event the
engine hands on what is pending, so the notes of a session are the failures that it has told, in
order (`hears_run`).
-/

namespace RemoteAutomaton.Message.Outbound

open Text (fromUTF8?_eq_some_iff)

variable {d : ByteArray} {text : String}

/-- The text of a failure that a datagram tells. -/
def failure? (d : ByteArray) : Option String :=
  match String.fromUTF8? d with
  | none => none
  | some s =>
    match readLine? s.toList with
    | some (.error text) => some text
    | _ => none

theorem failure?_eq_some_iff : failure? d = some text ↔ d = (error text).encode := by
  unfold failure?
  constructor
  · intro h
    split at h
    · cases h
    · rename_i s hs
      split at h
      · rename_i t ht
        cases h
        obtain ⟨hline, -⟩ := readLine?_eq_some_iff.1 ht
        obtain rfl := fromUTF8?_eq_some_iff.1 hs
        rw [encode, Outbound.text, ← hline, String.ofList_toList]
      · cases h
  · rintro rfl
    have hline : readLine? (error text).text.toList = some (error text) :=
      readLine?_eq_some_iff.2 ⟨by rw [Outbound.text, String.toList_ofList], trivial⟩
    rw [encode, fromUTF8?_eq_some_iff.2 rfl]
    dsimp only
    rw [hline]

theorem failure?_error (text : String) : failure? (error text).encode = some text :=
  failure?_eq_some_iff.2 rfl

/-- Only failures have the keyword of a failure. -/
theorem failure?_of_keyword {m : Outbound} (hm : m.keyword ≠ "ERROR") :
    failure? m.encode = none := by
  rw [Option.eq_none_iff_forall_ne_some]
  intro text h
  exact hm (keyword_eq (failure?_eq_some_iff.1 h))

end RemoteAutomaton.Message.Outbound

namespace RemoteAutomaton.Engine

open Automaton (Evaluator Host Interpreter Notice Operation Outcome TimerId)
open Machine (Definition)
open Message (Outbound)
open Network (Access Prompt Socket Transport)

/-! ### Notes of failures -/

section Noting

variable {σ τ ν : Type}

/-- An engine whose failures are noted. -/
def noting (note : String → ν) (g : Engine σ τ) : Engine σ (Noted ν τ) :=
  g.withHandlers (g.handlers.noting note)

variable {note : String → ν} {g : Engine σ τ} {w : Noted ν τ}

theorem foldl_note (texts : List String) :
    texts.foldl (fun w text => w.note (note text)) w
      = { w with notes := w.notes ++ (texts.map note).toArray } := by
  induction texts generalizing w with
  | nil => simp
  | cons text rest ih =>
    rw [List.foldl_cons, ih, Noted.note]
    simp

variable [Socket σ]

theorem takeMessage_noting (r : Except Network.Error Message.Inbound) :
    (g.noting note).takeMessage w r
      = ((g.takeMessage w.automaton r).1, w.on fun a => (g.takeMessage a r).2) := by
  rcases r with e | msg
  · rfl
  · simp only [takeMessage, noting, withHandlers, Handlers.noting]
    cases msg.kind with
    | input => rcases g.handlers.input with _ | f <;> rfl
    | command =>
      dsimp only
      rcases msg.command with e | _ | _
      · rfl
      · rfl
      · rcases g.handlers.status with _ | f <;> rfl

theorem takeReceived_noting (r : Except String ByteArray) :
    (g.noting note).takeReceived w r
      = ((g.takeReceived w.automaton r).1, w.on fun a => (g.takeReceived a r).2) := by
  unfold takeReceived
  change (if g.link.transport.isReceiving then _ else _) = _
  split_ifs
  · exact takeMessage_noting _
  · rfl

/-- Other handlers do with the notes aside what they do without them. -/
theorem dispatch_noting (e : Event) :
    (g.noting note).dispatch w e
      = ((g.dispatch w.automaton e).1, w.on fun a => (g.dispatch a e).2) := by
  cases e with
  | shutdown | signal | writable | waitFailed | elapsed => rfl
  | expiry =>
    simp only [dispatch, noting, withHandlers, Handlers.noting]
    rcases g.link.timers.next with ⟨_ | x, timers⟩
    · rfl
    · rcases g.handlers.timeout with _ | f <;> rfl
  | datagram | receiveFailed => exact takeReceived_noting _

end Noting

variable {σ : Type} [Socket σ]

/-- A session whose error handler notes what it gets. -/
structure Hearing (σ : Type) where
  engine : Engine σ (Noted String Interpreter)
  automaton : Noted String Interpreter

namespace Hearing

/-- The texts that the error handler got, the oldest first. -/
def heard (w : Hearing σ) : List String := w.automaton.notes.toList

/-- Opens a session, as `Session.begin` opens one. -/
def begin (access : Access σ) (s : Settings) (m : Interpreter) :
    Except Error (Except Error Unit × Hearing σ) := do
  let g : Engine σ (Noted String Interpreter) ← Engine.connect access s
  match startInterpreter { g with handlers := interpreterHandlers.noting id } m with
  | (.error e, g, m) => return (.error e, ⟨g.stop, { automaton := m }⟩)
  | (.ok (), g, m) =>
    let (r, g, w) := g.begin { automaton := m }
    return (r, ⟨g, w⟩)

def step (w : Hearing σ) (e : Event) : Hearing σ :=
  let (g, a) := w.engine.step w.automaton e
  ⟨g, a⟩

def take (w : Hearing σ) : Happening → Hearing σ
  | .event e => w.step e
  | .drift now asleep due =>
    let timers := { w.engine.link.timers with now, asleep, due }
    { w with engine := { w.engine with link := { w.engine.link with timers } } }

/-- The session whose error handler has got these texts. -/
def ofSession (s : Session σ) (texts : List String) : Hearing σ :=
  ⟨s.engine.noting id, ⟨s.interpreter, texts.toArray⟩⟩

end Hearing

/-! ### The notes change nothing else -/

section Step

variable {g : Engine σ Interpreter} {m : Interpreter} {texts : List String}

omit [Socket σ] in
theorem drainErrors_noting (l : Link σ) :
    drainErrors { g.noting id with link := l } ⟨m, texts.toArray⟩
      = ((g.drained l).noting id, ⟨m, (texts ++ l.pendingErrors).toArray⟩) := by
  have hnotes : l.pendingErrors.foldl (fun w text => w.note (id text))
      (⟨m, texts.toArray⟩ : Noted String Interpreter)
      = ⟨m, (texts ++ l.pendingErrors).toArray⟩ := by
    rw [foldl_note]
    simp
  exact congrArg (Prod.mk ((g.drained l).noting id)) hnotes

theorem finish_noting (hg : g.handlers = interpreterHandlers) :
    (g.noting id).finish ⟨m, texts.toArray⟩
      = ((Session.ended g m g.link).engine.noting id,
        ⟨(Session.ended g m g.link).interpreter,
          (texts ++ g.link.pendingErrors).toArray⟩) := by
  have hterm : (g.noting id).handlers.terminate
      = some fun w link => w.on fun m => m.terminate link := by
    rw [noting, hg]
    rfl
  obtain ⟨timers, hlink⟩ := terminate_link m g.link
  have hpending : (m.terminate (g.noting id).link).2.pendingErrors = g.link.pendingErrors := by
    change (m.terminate g.link).2.pendingErrors = _
    rw [hlink]
  have hstop : ((g.drained (m.terminate g.link).2).noting id).stop
      = (g.drained (m.terminate g.link).2).stop.noting id := by
    rw [noting, noting, handlers_stop]
    exact stop_withHandlers
  unfold finish
  rw [hterm]
  dsimp only [Noted.on]
  rw [drainErrors_noting, hpending]
  exact congrArg (Prod.mk · _) hstop

/-- Going on or ending, with notes as without them. -/
theorem proceed_noting (hg : g.handlers = interpreterHandlers) (l : Link σ) (stops : Bool) :
    (let x := if stops || ((g.drained l).noting id).link.stopRequested then
        ((g.drained l).noting id).finish ⟨m, texts.toArray⟩
      else ((g.drained l).noting id, ⟨m, texts.toArray⟩)
    (⟨x.1, x.2⟩ : Hearing σ)) = .ofSession (.proceed g m l stops) texts := by
  have hstop : ((g.drained l).noting id).link.stopRequested = l.stopRequested := rfl
  have hpending : (g.drained l).link.pendingErrors = [] := rfl
  rw [finish_noting (g := g.drained l) hg, hstop, hpending, List.append_nil]
  unfold Session.proceed
  split_ifs <;> rfl

/-- The failures that come up in a session at an event. -/
def Session.failuresOf (s : Session σ) (e : Event) : List String :=
  if s.engine.stopped then []
  else ((s.engine.request e).serve s.interpreter (s.engine.heed e)).2.pendingErrors

theorem hears_step {s : Session σ}
    (hg : s.engine.stopped = false → s.engine.handlers = interpreterHandlers) (e : Event) :
    (Hearing.ofSession s texts).step e = .ofSession (s.step e) (texts ++ s.failuresOf e) := by
  rcases hstop : s.engine.stopped with _ | _
  · have hg := hg hstop
    have hstop' : (Hearing.ofSession s texts).engine.stopped = false := hstop
    let r := (s.engine.request e).serve s.interpreter (s.engine.heed e)
    have hdispatch : (s.engine.noting id).dispatch ⟨s.interpreter, texts.toArray⟩ e
        = ((s.engine.request e).isStop, ⟨r.1, texts.toArray⟩, r.2) := by
      rw [dispatch_noting, Noted.on, dispatch_eq hg]
    rw [step_eq hg hstop, Session.failuresOf, if_neg (Bool.eq_false_iff.1 hstop)]
    unfold Hearing.step Engine.step
    rw [if_neg (Bool.eq_false_iff.1 hstop')]
    dsimp only [Hearing.ofSession]
    rw [hdispatch]
    dsimp only
    rw [drainErrors_noting]
    exact proceed_noting hg _ _
  · have hstop' : (Hearing.ofSession s texts).engine.stopped = true := hstop
    rw [step_of_stopped hstop, Session.failuresOf, if_pos hstop, List.append_nil]
    unfold Hearing.step Engine.step
    rw [if_pos hstop']

/-- The failures that come up in a session when something happens. -/
def Session.failuresAt (s : Session σ) : Happening → List String
  | .event e => s.failuresOf e
  | .drift .. => []

theorem hears_take {s : Session σ}
    (hg : s.engine.stopped = false → s.engine.handlers = interpreterHandlers) (x : Happening) :
    (Hearing.ofSession s texts).take x = .ofSession (s.take x) (texts ++ s.failuresAt x) := by
  cases x with
  | event e => exact hears_step hg e
  | drift => simp only [Session.failuresAt, List.append_nil]; rfl

end Step

section Start

variable {g : Engine σ Interpreter} {d : Definition} {e : Evaluator} {access : Access σ}
  {settings : Settings}

theorem begin_noting (hg : g.handlers = interpreterHandlers) (hstop : g.stopped = false)
    (m : Interpreter) :
    (let (r, g, w) := (g.noting id).begin { automaton := m }
    ((r, ⟨g, w⟩) : Except Error Unit × Hearing σ))
      = (.ok (), .ofSession (.proceed g m g.link false) g.link.pendingErrors) := by
  have hmissing : (g.noting id).handlers.missing = [] := by
    rw [noting, hg]
    rfl
  have hstop' : (g.noting id).stopped = false := hstop
  have hdrain : (g.noting id).drainErrors (⟨m, [].toArray⟩ : Noted String Interpreter)
      = ((g.drained g.link).noting id, ⟨m, g.link.pendingErrors.toArray⟩) :=
    drainErrors_noting g.link
  have hproceed : _ = Hearing.ofSession (.proceed g m g.link false) g.link.pendingErrors :=
    proceed_noting hg g.link false
  unfold Engine.begin
  rw [hmissing]
  dsimp only
  rw [if_neg (Bool.eq_false_iff.1 hstop'), hdrain, ← hproceed]
  rfl

/-- What comes up at the start is handed on before the loop begins. -/
theorem hearing_begin {state : String} (hg : connect access settings = .ok g)
    (hs : d.initial = some state) :
    let r := (Request.perform .start).serve (.ofDefinition d e) g.link
    Hearing.begin access settings (.ofDefinition d e)
      = .ok (.ok (), .ofSession (.proceed { g with handlers := interpreterHandlers } r.1 r.2 false)
        r.2.pendingErrors) := by
  intro r
  have hstart : startInterpreter (noting id { g with handlers := interpreterHandlers })
      (.ofDefinition d e)
      = (.ok (), noting id { g with handlers := interpreterHandlers, link := r.2 }, r.1) := by
    have h := startInterpreter_withHandlers (g := { g with handlers := interpreterHandlers })
      (h := (interpreterHandlers : Handlers σ Interpreter).noting (id : String → String))
      (.ofDefinition d e)
    rw [startInterpreter_of_some hs] at h
    exact h
  have hbegin := begin_noting
    (g := { g with handlers := interpreterHandlers, link := r.2 }) rfl (connect_ok hg).1 r.1
  simp only [Hearing.begin, bind, Except.bind, connect_withHandlers hg]
  change (match startInterpreter (noting id { g with handlers := interpreterHandlers })
    (.ofDefinition d e) with | (.error e, g, m) => _ | (.ok (), g, m) => _) = _
  rw [hstart]
  exact congrArg Except.ok hbegin

end Start

/-! ### What is owed to the error handler -/

/-- Of what a link has told since `ds`, the failures are those that were handed on, `texts`, and
then those that are pending. -/
structure Link.Owes (sent : σ → List ByteArray) (ds : List ByteArray) (texts : List String)
    (l : Link σ) : Prop where
  live : l.transport.Live
  told : ∃ since, l.told sent = ds ++ since
    ∧ since.filterMap Outbound.failure? = texts ++ l.pendingErrors

section Owes

variable {sent : σ → List ByteArray} (hσ : Prompt (fun _ => true) sent) {ds : List ByteArray}
  {texts : List String} {l : Link σ}

theorem pendingErrors_connect {g : Engine σ Interpreter} {access : Access σ} {settings : Settings}
    (hg : connect access settings = .ok g) : g.link.pendingErrors = [] := by
  simp only [connect, bind, Except.bind] at hg
  split at hg
  · cases hg
  · split at hg
    · cases hg
      rfl
    · cases hg

omit [Socket σ] in
/-- Only the channel and what is pending matter. -/
theorem Link.Owes.congr {l' : Link σ} (hl : l.Owes sent ds texts)
    (htransport : l'.transport = l.transport) (hpending : l'.pendingErrors = l.pendingErrors) :
    l'.Owes sent ds texts := by
  refine ⟨htransport ▸ hl.live, ?_⟩
  rw [Link.told, htransport, hpending]
  exact hl.told

omit [Socket σ] in
/-- What was pending has been handed on. -/
theorem Link.Owes.drained (hl : l.Owes sent ds texts) :
    Link.Owes sent ds (texts ++ l.pendingErrors) { l with pendingErrors := [] } := by
  obtain ⟨since, htold, hfailures⟩ := hl.told
  exact ⟨hl.live, since, htold, by rw [hfailures, List.append_nil]⟩

include hσ

theorem pendingErrors_send (hl : l.transport.Live) (m : Outbound) :
    (l.send m).pendingErrors = l.pendingErrors := by
  rw [Link.send, Link.noteSent, hσ.send_ok hl rfl]

theorem owes_send (hl : l.Owes sent ds texts) {m : Outbound} (hm : m.keyword ≠ "ERROR") :
    (l.send m).Owes sent ds texts := by
  obtain ⟨since, htold, hfailures⟩ := hl.told
  obtain ⟨hlive, hsent⟩ := told_send hσ hl.live m
  refine ⟨hlive, since ++ [m.encode], ?_, ?_⟩
  · rw [hsent, htold, List.append_assoc]
    rfl
  · rw [pendingErrors_send hσ hl.live, List.filterMap_append, hfailures]
    simp [Outbound.failure?_of_keyword hm]

theorem owes_sendError (hl : l.Owes sent ds texts) (text : String) :
    (l.sendError text).Owes sent ds texts := by
  obtain ⟨since, htold, hfailures⟩ := hl.told
  obtain ⟨hlive, hsent⟩ := told_sendError hσ hl.live text
  refine ⟨hlive, since ++ [(Outbound.error text).encode], ?_, ?_⟩
  · rw [hsent, htold, List.append_assoc]
    rfl
  · have hpending : (l.sendError text).pendingErrors = l.pendingErrors ++ [text] :=
      congrArg (· ++ [text]) (pendingErrors_send hσ hl.live _)
    rw [hpending, List.filterMap_append, hfailures, List.append_assoc]
    simp [Outbound.failure?_error]

theorem owes_notify (hl : l.Owes sent ds texts) (n : Notice) :
    (Host.notify l n).Owes sent ds texts := by
  cases n with
  | failure e => exact owes_sendError hσ hl e.report
  | state | output | var | log => exact owes_send hσ hl (by simp [Link.messageOf, Outbound.keyword])

theorem owes_perform (hl : l.Owes sent ds texts) (m : Interpreter) (op : Operation) :
    (m.perform l op).host.Owes sent ds texts := by
  refine Interpreter.perform_invariant (P := Link.Owes sent ds texts)
    (fun k n hk => owes_notify hσ hk n) (fun k id hk => hk.congr rfl rfl)
    (fun k ms target hk => ?_) m op hl
  simp only [Host.schedule, Link.schedule]
  split
  · exact hk.congr rfl rfl
  · exact hk

theorem owes_surface {α : Type} {o : Outcome (Link σ) α} (ho : o.host.Owes sent ds texts) :
    (surface o).2.Owes sent ds texts := by
  obtain ⟨result, m, l⟩ := o
  have hrequest {l' : Link σ} (hl' : l'.Owes sent ds texts) :
      (if m.isTerminating then l'.requestStop else l').Owes sent ds texts := by
    split_ifs
    · exact hl'.congr rfl rfl
    · exact hl'
  cases result with
  | ok => exact hrequest ho
  | error e => exact hrequest (owes_sendError hσ ho e.report)

theorem owes_serve (hl : l.Owes sent ds texts) (m : Interpreter) (q : Request) :
    (q.serve m l).2.Owes sent ds texts := by
  cases q with
  | perform op => exact owes_surface hσ (owes_perform hσ hl m op)
  | report text => exact owes_sendError hσ hl text
  | stop | idle => exact hl

omit hσ in
theorem owes_heed {g : Engine σ Interpreter} (hg : g.link.Owes sent ds texts) (e : Event) :
    (g.heed e).Owes sent ds texts := by
  rw [heed_of_live hg.live]
  exact hg.congr rfl rfl

end Owes

/-! ### Sessions -/

/-- Of what a session has told since `ds`, the failures have these texts. -/
structure Session.Hears (sent : σ → List ByteArray) (ds : List ByteArray) (s : Session σ)
    (texts : List String) : Prop where
  told : ∃ since, s.engine.link.told sent = ds ++ since
    ∧ since.filterMap Outbound.failure? = texts
  owes : s.engine.stopped = false → s.engine.link.Owes sent ds texts

section Session

variable {sent : σ → List ByteArray} (hσ : Prompt (fun _ => true) sent) {ds : List ByteArray}
  {texts : List String} {g : Engine σ Interpreter} {l : Link σ}

include hσ

/-- A session that goes on or ends has handed on all that was pending. -/
theorem hears_proceed (hl : l.Owes sent ds texts) (hstop : g.stopped = false) (m : Interpreter)
    (stops : Bool) :
    (Session.proceed g m l stops).Hears sent ds (texts ++ l.pendingErrors) := by
  obtain ⟨htells, -⟩ := tells_proceed hσ rfl (g := g) (m := m) hl.live hstop stops
  obtain ⟨since, htold, hfailures⟩ := hl.told
  have hend : ([Outbound.terminating.encode].filterMap Outbound.failure?) = [] := by
    simp [Outbound.failure?_of_keyword (m := .terminating) (by simp [Outbound.keyword])]
  constructor
  · rw [htells.told, htold, List.append_assoc]
    refine ⟨_, rfl, ?_⟩
    rw [List.filterMap_append, hfailures]
    split_ifs
    · rw [hend, List.append_nil]
    · exact List.append_nil _
  · intro hruns
    have hgoes : Session.proceed g m l stops = ⟨g.drained l, m⟩ := by
      unfold Session.proceed
      split_ifs with h
      · have hstopped := (tells_ended hσ rfl (l := (g.drained l).link) (m := m) hl.live hstop).2
        rw [Session.proceed, if_pos h, hstopped] at hruns
        cases hruns
      · rfl
    rw [hgoes]
    exact hl.drained

theorem hears_run_step {s : Session σ} (hs : s.Hears sent ds texts)
    (hg : s.engine.stopped = false → s.engine.handlers = interpreterHandlers) (x : Happening) :
    (s.take x).Hears sent ds (texts ++ s.failuresAt x) := by
  cases x with
  | drift =>
    rw [Session.failuresAt, List.append_nil]
    exact ⟨hs.told, fun hruns => (hs.owes hruns).congr rfl rfl⟩
  | event e =>
    rw [Session.take, Session.failuresAt, Session.failuresOf]
    rcases hstop : s.engine.stopped with _ | _
    · rw [step_eq (hg hstop) hstop, if_neg Bool.false_ne_true]
      exact hears_proceed hσ (owes_serve hσ (owes_heed (hs.owes hstop) e) _ _) hstop _ _
    · rw [step_of_stopped hstop, if_pos rfl, List.append_nil]
      exact hs

/-- In a run the error handler gets the failures that are told, when they are told. -/
theorem hears_run : ∀ (happenings : List Happening) {d : Definition} {s : Session σ}
    {texts : List String}, s.Valid d → s.Hears sent ds texts →
    ∃ texts', happenings.foldl Hearing.take (.ofSession s texts)
        = .ofSession (happenings.foldl Session.take s) texts'
      ∧ (happenings.foldl Session.take s).Hears sent ds texts'
  | [], _, _, texts, _, hs => ⟨texts, rfl, hs⟩
  | x :: rest, _, s, texts, hvalid, hs => by
    have hg : s.engine.stopped = false → s.engine.handlers = interpreterHandlers :=
      fun hruns => (hvalid.working hruns).1
    rw [List.foldl_cons, hears_take hg]
    exact hears_run rest (valid_take hvalid x) (hears_run_step hσ hs hg x)

/-- An engine that has connected owes nothing. -/
theorem owes_connect {access : Access σ} {settings : Settings}
    (hfresh : ∀ address isV4 s, access.bind address = .ok (isV4, s) → sent s = [])
    (hg : connect access settings = .ok g) :
    g.link.Owes sent [(Outbound.ready settings.name).encode] [] := by
  obtain ⟨hlive, -, address, isV4, socket, hbind, htold⟩ := told_connect hσ hg
  refine ⟨hlive, [], ?_, ?_⟩
  · rw [htold, hfresh _ _ _ hbind]
    rfl
  · rw [pendingErrors_connect hg]
    rfl

end Session

/-- Over a socket that takes every datagram an interpreter that has an initial state starts, and
whatever happens then, its error handler has got between any two events, and in the end, the texts
of the failures that were told since it was started: one call for each, in the same order. -/
theorem failures_handed_on {sent : σ → List ByteArray} (hσ : Prompt (fun _ => true) sent)
    {access : Access σ} {settings : Settings} {d : Definition} {e : Evaluator}
    (hfresh : ∀ address isV4 s, access.bind address = .ok (isV4, s) → sent s = [])
    (hd : d.initial ≠ none) {r : Except Error Unit} {s₀ : Session σ}
    (h : Session.begin access settings (.ofDefinition d e) = .ok (r, s₀)) :
    r = .ok () ∧ ∃ w₀, Hearing.begin access settings (.ofDefinition d e) = .ok (r, w₀)
      ∧ ∀ happenings : List Happening,
        let s := happenings.foldl Session.take s₀
        let w := happenings.foldl Hearing.take w₀
        (w.engine.link = s.engine.link ∧ w.engine.stopped = s.engine.stopped
            ∧ w.automaton.automaton = s.interpreter)
          ∧ ∃ since, w.engine.link.told sent = (Outbound.ready settings.name).encode :: since
            ∧ w.heard = since.filterMap Outbound.failure? := by
  have hvalid : s₀.Valid d := valid_begin h
  obtain ⟨g, hg, ⟨err, hnone, -⟩ | ⟨-, rfl, rfl⟩⟩ := session_begin_cases h
  · exact absurd hnone hd
  obtain ⟨state, hs⟩ := Option.ne_none_iff_exists'.1 hd
  have howes := owes_serve hσ (owes_connect hσ hfresh hg) (.ofDefinition d e) (.perform .start)
  refine ⟨rfl, _, hearing_begin hg hs, fun happenings => ?_⟩
  obtain ⟨texts, hw, hheard⟩ := hears_run hσ happenings hvalid
    (hears_proceed hσ (g := { g with handlers := interpreterHandlers }) howes (connect_ok hg).1 _
      false)
  obtain ⟨since, htold, hfailures⟩ := hheard.told
  intro s w
  have hw : w = .ofSession s texts := hw
  rw [hw]
  exact ⟨⟨rfl, rfl, rfl⟩, since, htold, hfailures.symm⟩

open Automaton CommandLine Message Network in
/-- No action is known, so one failure comes up at the start, before the loop begins, and one at the
input; between them are a datagram that is no command and the failure to receive one. -/
theorem failures_handed_on_blink : ∃ s₀ : Session (Wire fun _ => true),
    ∃ w₀ : Hearing (Wire fun _ => true),
    Session.begin Wire.access {} (.ofDefinition Blink.definition Registry.empty.evaluator)
        = .ok (.ok (), s₀)
      ∧ Hearing.begin Wire.access {} (.ofDefinition Blink.definition Registry.empty.evaluator)
        = .ok (.ok (), w₀)
      ∧ (let w := [Happening.event (.datagram "CMD|JUMP|".toUTF8),
          .event (.receiveFailed "connection refused"),
          .event (.datagram (Inbound.ofInput "start" "1").encode),
          .event (.datagram (Inbound.ofCommand .terminate).encode)].foldl Hearing.take w₀
        w.engine.stopped = true
          ∧ w.heard = ["ACTION_ERROR: action 'led_off' failed: no action registered for 'led_off'",
            "UNKNOWN_COMMAND: unknown command: JUMP",
            "RECV_FAILED: receive failed: connection refused",
            "ACTION_ERROR: action 'toggle_led' failed: no action registered for 'toggle_led'"]
          ∧ ∃ since, w.engine.link.told Wire.sent = (Outbound.ready "statewire").encode :: since
            ∧ w.heard = since.filterMap Outbound.failure?) := by
  let access : Access (Wire fun _ => true) := Wire.access
  let m : Interpreter := .ofDefinition Blink.definition Registry.empty.evaluator
  let happenings := [Happening.event (.datagram "CMD|JUMP|".toUTF8),
    .event (.receiveFailed "connection refused"),
    .event (.datagram (Inbound.ofInput "start" "1").encode),
    .event (.datagram (Inbound.ofCommand .terminate).encode)]
  have hplain : ((Session.begin access {} m).toOption.map fun x => x.1.isOk) = some true := by
    decide +kernel
  have hrun : ((Hearing.begin access {} m).toOption.map fun x =>
      let w := happenings.foldl Hearing.take x.2
      (w.engine.stopped, w.heard))
        = some (true, ["ACTION_ERROR: action 'led_off' failed: no action registered for 'led_off'",
          "UNKNOWN_COMMAND: unknown command: JUMP",
          "RECV_FAILED: receive failed: connection refused",
          "ACTION_ERROR: action 'toggle_led' failed: no action registered for 'toggle_led'"]) := by
    decide +kernel
  obtain ⟨⟨r, s₀⟩, hbegin, -⟩ := exists_ok_of_map hplain
  obtain ⟨rfl, w₀, hhearing, hheard⟩ := failures_handed_on Wire.prompt (fun _ _ _ => Wire.fresh)
    (by decide +kernel : Blink.definition.initial ≠ none) hbegin
  rw [hhearing] at hrun
  obtain ⟨hstop, htexts⟩ := Prod.mk.inj (Option.some.inj hrun)
  exact ⟨s₀, w₀, hbegin, hhearing, hstop, htexts, (hheard happenings).2⟩

end RemoteAutomaton.Engine
