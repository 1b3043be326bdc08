import RemoteAutomaton.Proofs.Mirror
import RemoteAutomaton.Proofs.Sending
import RemoteAutomaton.Proofs.SessionTimers

/-!
# Asides

Some datagrams ask nothing of the automaton: those that are no message, those that name no known
command, and requests for the status.  A session answers such an aside with one report of a failure
or with the status, and goes on as if it had not come: two sessions, one of which has heard asides,
are twins (`Twins`), do the same at everything that happens (`twins_take`) and tell the same in
between (`asides_do_not_interfere`).
-/

namespace RemoteAutomaton.Engine

open Automaton (Evaluator Host Interpreter Notice Operation Outcome Running Simulation)
open Machine (Definition)
open Message (Outbound)
open Network (Access Prompt Socket)

/-- A datagram that is no message, or a command other than the one to terminate, known or not. -/
def IsAside (d : ByteArray) : Prop :=
  match Network.receive Message.maxDatagramSize (.ok d) with
  | .error _ => True
  | .ok m => m.kind = .command ∧ m.command ≠ .ok .terminate

/-- Something of a session's own, or an aside. -/
inductive Item where
  | own (x : Happening)
  | aside (d : ByteArray)

namespace Item

def happening : Item → Happening
  | own x => x
  | aside d => .event (.datagram d)

def own? : Item → Option Happening
  | own x => some x
  | aside _ => none

end Item

/-- The messages of a status report. -/
def statusMessages (m : Interpreter) : List Outbound :=
  match m.running with
  | some a => (a.statusNotices m.definition).map Link.messageOf
  | none => []

/-- What an aside is answered with: the report of its failure, or the status. -/
def Session.answer {σ : Type} (s : Session σ) (d : ByteArray) : List Outbound :=
  if s.engine.stopped then []
  else
    match Network.receive Message.maxDatagramSize (.ok d) with
    | .error e => [.error (Error.network e).report]
    | .ok m =>
      match m.command with
      | .error e => [.error (Error.network (.message e)).report]
      | .ok _ => statusMessages s.interpreter

variable {σ : Type} [Socket σ]

/-- The status of a session that runs is its state, each variable and each output. -/
theorem statusMessages_of_going {d : Definition} {s : Session σ} (hs : s.Valid d)
    (hstop : s.engine.stopped = false) :
    ∃ a, s.interpreter.running = some a ∧ statusMessages s.interpreter
      = .state a.current :: (d.vars.map fun x => .var x.name ((a.vars.get? x.name).getD ""))
        ++ d.outputs.map fun o => .output o ((a.outputs.get? o).getD "") := by
  obtain ⟨-, hd, a, ha, -⟩ := hs.working hstop
  refine ⟨a, ha, ?_⟩
  simp only [statusMessages, ha, hd, Running.statusNotices, List.map_append, List.map_cons,
    List.map_map]
  rfl

/-- What a session tells when something happens. -/
def Session.toldAt (sent : σ → List ByteArray) (s : Session σ) (x : Happening) : List ByteArray :=
  ((s.take x).engine.link.told sent).drop (s.engine.link.told sent).length

/-- What a session tells on its own, with the answers to asides where they come. -/
def transcript (sent : σ → List ByteArray) (s : Session σ) : List Item → List ByteArray
  | [] => []
  | .own x :: rest => s.toldAt sent x ++ transcript sent (s.take x) rest
  | .aside d :: rest => (s.answer d).map Outbound.encode ++ transcript sent s rest

/-! ### Links that are told alike -/

section Links

variable {sent : σ → List ByteArray} {base base' : List ByteArray} {l l' : Link σ}

/-- Two open links with the same timers that have told the same since `base` and `base'`. -/
structure Abreast (sent : σ → List ByteArray) (base base' : List ByteArray) (l l' : Link σ) :
    Prop where
  live : l.transport.Live
  live' : l'.transport.Live
  timers : l'.timers = l.timers
  stopRequested : l'.stopRequested = l.stopRequested
  told : ∃ ds, l.told sent = base ++ ds ∧ l'.told sent = base' ++ ds

omit [Socket σ] in
theorem Abreast.append {k k' : Link σ} {ds : List ByteArray} (h : Abreast sent base base' l l')
    (hlive : k.transport.Live) (hlive' : k'.transport.Live) (htimers : k'.timers = k.timers)
    (hstop : k'.stopRequested = k.stopRequested) (htold : k.told sent = l.told sent ++ ds)
    (htold' : k'.told sent = l'.told sent ++ ds) : Abreast sent base base' k k' := by
  obtain ⟨ds', hl, hl'⟩ := h.told
  exact ⟨hlive, hlive', htimers, hstop, ds' ++ ds, by rw [htold, hl, List.append_assoc],
    by rw [htold', hl', List.append_assoc]⟩

variable {fits : ByteArray → Bool} (hσ : Prompt fits sent)

include hσ

theorem abreast_notify (h : Abreast sent base base' l l') (n : Notice) :
    Abreast sent base base' (Host.notify l n) (Host.notify l' n) := by
  obtain ⟨hlive, htold⟩ := told_notify hσ h.live n
  obtain ⟨hlive', htold'⟩ := told_notify hσ h.live' n
  refine h.append hlive hlive' ?_ ?_ htold htold'
  · rw [Link.timers_notify, Link.timers_notify, h.timers]
  · rw [Link.stopRequested_notify, Link.stopRequested_notify, h.stopRequested]

theorem abreast_sendError (h : Abreast sent base base' l l') (text : String) :
    Abreast sent base base' (l.sendError text) (l'.sendError text) := by
  obtain ⟨hlive, htold⟩ := told_sendError hσ h.live text
  obtain ⟨hlive', htold'⟩ := told_sendError hσ h.live' text
  refine h.append hlive hlive' ?_ ?_ htold htold'
  · rw [Link.timers_sendError, Link.timers_sendError, h.timers]
  · rw [Link.stopRequested_sendError, Link.stopRequested_sendError, h.stopRequested]

/-- An automaton cannot tell apart two links that are abreast. -/
theorem simulation_abreast : Simulation (Abreast sent base base') Eq where
  notify n h := abreast_notify hσ h n
  cancel {l l' i j} h hij := by
    subst hij
    exact ⟨h.live, h.live', by simp only [Host.cancel, Link.cancel, h.timers], h.stopRequested,
      h.told⟩
  schedule {l l' ms} target h hms := by
    simp only [Host.schedule, Link.schedule, Timer.schedule_of_pos hms, h.timers]
    exact ⟨rfl, h.live, h.live', rfl, h.stopRequested, h.told⟩

theorem abreast_perform (h : Abreast sent base base' l l') (m : Interpreter) (op : Operation) :
    (m.perform l op).result = (m.perform l' op).result
      ∧ (m.perform l op).interpreter = (m.perform l' op).interpreter
      ∧ Abreast sent base base' (m.perform l op).host (m.perform l' op).host :=
  (simulation_abreast hσ).perform_eq op h

theorem abreast_surface {α : Type} {o : Outcome (Link σ) α} {o' : Outcome (Link σ) α}
    (hresult : o.result = o'.result) (hm : o.interpreter = o'.interpreter)
    (h : Abreast sent base base' o.host o'.host) :
    (surface o).1 = (surface o').1
      ∧ Abreast sent base base' (surface o).2 (surface o').2 := by
  obtain ⟨hlive, htold, hstop⟩ := told_surface hσ (o := o) h.live
  obtain ⟨hlive', htold', hstop'⟩ := told_surface hσ (o := o') h.live'
  rw [← hresult] at htold'
  refine ⟨hm, h.append hlive hlive' ?_ ?_ htold htold'⟩
  · rw [timers_surface, timers_surface, h.timers]
  · rw [hstop, hstop', h.stopRequested, hm]

theorem abreast_serve (h : Abreast sent base base' l l') (m : Interpreter) (q : Request) :
    (q.serve m l).1 = (q.serve m l').1
      ∧ Abreast sent base base' (q.serve m l).2 (q.serve m l').2 := by
  cases q with
  | perform op =>
    obtain ⟨hresult, hm, hhost⟩ := abreast_perform hσ h m op
    exact abreast_surface hσ hresult hm hhost
  | report text => exact ⟨rfl, abreast_sendError hσ h text⟩
  | stop | idle => exact ⟨rfl, h⟩

omit hσ in
/-- Engines whose links are abreast take note of an event alike, and it asks the same of both. -/
theorem abreast_heed {g g' : Engine σ Interpreter} (h : Abreast sent base base' g.link g'.link)
    (e : Event) :
    g.request e = g'.request e ∧ Abreast sent base base' (g.heed e) (g'.heed e) := by
  constructor
  · cases e with
    | shutdown | signal | writable | waitFailed | elapsed => rfl
    | expiry => simp only [request, h.timers]
    | datagram | receiveFailed =>
      simp only [request, requestOf, h.live.isReceiving, h.live'.isReceiving]
  · rw [heed_of_live h.live, heed_of_live h.live']
    exact ⟨h.live, h.live', congrArg e.advance h.timers, h.stopRequested, h.told⟩

end Links

/-! ### Twins -/

/-- Two sessions that differ only in what they have told. -/
structure Twins (sent : σ → List ByteArray) (s s' : Session σ) : Prop where
  interpreter : s'.interpreter = s.interpreter
  timers : s'.engine.link.timers = s.engine.link.timers
  stopped : s'.engine.stopped = s.engine.stopped
  tells : ∃ ds, s.Tells sent ds
  tells' : ∃ ds, s'.Tells sent ds

section Twins

variable {sent : σ → List ByteArray} (hσ : Prompt (fun _ => true) sent) {d : Definition}
  {s s' : Session σ}

include hσ

/-- Engines whose links are abreast end alike. -/
theorem abreast_ended {base base' : List ByteArray} {g g' : Engine σ Interpreter} (m : Interpreter)
    {l l' : Link σ} (h : Abreast sent base base' l l') (hg : g.stopped = false)
    (hg' : g'.stopped = false) :
    (Session.ended g' m l').interpreter = (Session.ended g m l).interpreter
      ∧ (Session.ended g' m l').engine.link.timers = (Session.ended g m l).engine.link.timers := by
  obtain ⟨-, hm, hhost⟩ := abreast_perform hσ h m .terminate
  refine ⟨hm.symm, ?_⟩
  have htimers : (m.terminate l').2.timers = (m.terminate l).2.timers := hhost.timers
  rw [Session.ended, Session.ended, timers_stop (g := g.drained (m.terminate l).2) hg,
    timers_stop (g := g'.drained (m.terminate l').2) hg', drained, drained, htimers]

/-- Engines whose links are abreast go on or end alike. -/
theorem twins_proceed {base base' : List ByteArray} {g g' : Engine σ Interpreter}
    (m : Interpreter) {l l' : Link σ} (h : Abreast sent base base' l l')
    (hg : g.stopped = false) (hg' : g'.stopped = false) (stops : Bool) :
    Twins sent (.proceed g m l stops) (.proceed g' m l' stops)
      ∧ ∃ ds, (Session.proceed g m l stops).engine.link.told sent = base ++ ds
        ∧ (Session.proceed g' m l' stops).engine.link.told sent = base' ++ ds := by
  obtain ⟨ht, hstopped⟩ := tells_proceed hσ rfl (g := g) (m := m) h.live hg stops
  obtain ⟨ht', hstopped'⟩ := tells_proceed hσ rfl (g := g') (m := m) h.live' hg' stops
  rw [h.stopRequested, ← hstopped] at hstopped'
  obtain ⟨ds, htold, htold'⟩ := h.told
  have hsame : (Session.proceed g' m l' stops).interpreter
        = (Session.proceed g m l stops).interpreter
      ∧ (Session.proceed g' m l' stops).engine.link.timers
        = (Session.proceed g m l stops).engine.link.timers := by
    simp only [Session.proceed, h.stopRequested]
    split_ifs
    · have hdrained : Abreast sent base base' (g.drained l).link (g'.drained l').link :=
        ⟨h.live, h.live', h.timers, h.stopRequested, h.told⟩
      exact abreast_ended hσ m hdrained hg hg'
    · exact ⟨rfl, h.timers⟩
  exact ⟨⟨hsame.1, hsame.2, hstopped', ⟨_, ht⟩, ⟨_, ht'⟩⟩, _,
    by rw [ht.told, htold, List.append_assoc],
    by rw [ht'.told, htold', hstopped', List.append_assoc]⟩

omit [Socket σ] hσ in
theorem Twins.abreast (h : Twins sent s s') (hstop : s.engine.stopped = false) :
    Abreast sent (s.engine.link.told sent) (s'.engine.link.told sent) s.engine.link
      s'.engine.link := by
  obtain ⟨ds, ht⟩ := h.tells
  obtain ⟨ds', ht'⟩ := h.tells'
  have hstop' : s'.engine.stopped = false := h.stopped.trans hstop
  exact ⟨ht.live hstop, ht'.live hstop', h.timers,
    (ht'.unrequested hstop').trans (ht.unrequested hstop).symm, [], by simp, by simp⟩

/-- What happens to twins leaves twins, who tell the same of it. -/
theorem twins_take (h : Twins sent s s') (hs : s.Valid d) (hs' : s'.Valid d) (x : Happening) :
    Twins sent (s.take x) (s'.take x)
      ∧ (s.take x).engine.link.told sent = s.engine.link.told sent ++ s.toldAt sent x
      ∧ (s'.take x).engine.link.told sent = s'.engine.link.told sent ++ s.toldAt sent x := by
  suffices hdone : Twins sent (s.take x) (s'.take x)
      ∧ ∃ ds, (s.take x).engine.link.told sent = s.engine.link.told sent ++ ds
        ∧ (s'.take x).engine.link.told sent = s'.engine.link.told sent ++ ds by
    obtain ⟨htwins, ds, htold, htold'⟩ := hdone
    have hds : s.toldAt sent x = ds := by rw [Session.toldAt, htold, List.drop_left]
    rw [hds]
    exact ⟨htwins, htold, htold'⟩
  cases x with
  | drift now asleep due =>
    obtain ⟨ds, ht⟩ := h.tells
    obtain ⟨ds', ht'⟩ := h.tells'
    refine ⟨⟨h.interpreter, ?_, h.stopped, ⟨ds, ht.drift now asleep due⟩,
      ⟨ds', ht'.drift now asleep due⟩⟩, [], ?_, ?_⟩
    · simp only [Session.take, h.timers]
    · rw [List.append_nil]
      rfl
    · rw [List.append_nil]
      rfl
  | event e =>
    rw [Session.take, Session.take]
    rcases hstop : s.engine.stopped with _ | _
    · have hstop' : s'.engine.stopped = false := h.stopped.trans hstop
      obtain ⟨hg, -⟩ := hs.working hstop
      obtain ⟨hg', -⟩ := hs'.working hstop'
      obtain ⟨hrequest, hheed⟩ := abreast_heed (h.abreast hstop) e
      obtain ⟨hm, hserve⟩ := abreast_serve hσ hheed s.interpreter (s.engine.request e)
      rw [step_eq hg hstop, step_eq hg' hstop', ← hrequest, h.interpreter, ← hm]
      exact twins_proceed hσ _ hserve hstop hstop' _
    · rw [step_of_stopped hstop, step_of_stopped (h.stopped.trans hstop)]
      exact ⟨h, [], by rw [List.append_nil], by rw [List.append_nil]⟩

omit hσ in
theorem proceed_of_going {g : Engine σ Interpreter} (m : Interpreter) {l : Link σ}
    (hl : l.stopRequested = false) : Session.proceed g m l false = ⟨g.drained l, m⟩ := by
  rw [Session.proceed, hl, Bool.or_false, if_neg Bool.false_ne_true]

omit hσ in
theorem serve_report {m : Interpreter} {a : Running} (hm : m.running = some a)
    (hend : ¬ a.terminating) (l : Link σ) :
    (Request.perform .report).serve m l
      = (m, (a.statusNotices m.definition).foldl Host.notify l) := by
  have hgoing : m.isTerminating = false := by
    rw [Interpreter.isTerminating, hm]
    exact Bool.eq_false_iff.2 hend
  simp only [Request.serve, Interpreter.perform, Interpreter.reportStatus, hm,
    Automaton.report_eq, surface, hgoing]
  rfl

/-- What a request leaves of a session that it neither stops nor changes. -/
theorem twins_answered {q : Request} {l : Link σ} {ms : List Outbound}
    (h : Twins sent s s') (hs' : s'.Valid d) (hstop : s'.engine.stopped = false) {e : Event}
    (hrequest : s'.engine.request e = q) (hheed : s'.engine.heed e = s'.engine.link)
    (hq : q.isStop = false) (hserve : q.serve s'.interpreter s'.engine.link = (s'.interpreter, l))
    (hl : l.transport.Live ∧ l.timers = s'.engine.link.timers ∧ l.stopRequested = false
      ∧ l.told sent = s'.engine.link.told sent ++ ms.map Outbound.encode) :
    Twins sent s (s'.step e)
      ∧ (s'.step e).engine.link.told sent
        = s'.engine.link.told sent ++ ms.map Outbound.encode := by
  obtain ⟨hlive, htimers, hgoing, htold⟩ := hl
  obtain ⟨hg', -⟩ := hs'.working hstop
  obtain ⟨ht, -⟩ := tells_proceed hσ rfl (g := s'.engine) (m := s'.interpreter) hlive hstop false
  have hstep : s'.step e = ⟨s'.engine.drained l, s'.interpreter⟩ := by
    rw [step_eq hg' hstop, hrequest, hheed, hserve, hq]
    exact proceed_of_going s'.interpreter hgoing
  rw [proceed_of_going s'.interpreter hgoing] at ht
  rw [hstep]
  exact ⟨⟨h.interpreter, htimers.trans h.timers, h.stopped, h.tells, ⟨_, ht⟩⟩, htold⟩

/-- After an aside twins are twins, and the aside has been answered. -/
theorem twins_aside {data : ByteArray} (hdata : IsAside data) (h : Twins sent s s')
    (hs' : s'.Valid d) :
    Twins sent s (s'.take (.event (.datagram data)))
      ∧ (s'.take (.event (.datagram data))).engine.link.told sent
        = s'.engine.link.told sent ++ (s.answer data).map Outbound.encode := by
  rw [Session.take, Session.answer]
  rcases hstop : s.engine.stopped with _ | _
  · rw [if_neg Bool.false_ne_true]
    have hstop' : s'.engine.stopped = false := h.stopped.trans hstop
    obtain ⟨ds', ht'⟩ := h.tells'
    have hlive := ht'.live hstop'
    have hfailed : ∀ text, (s'.engine.link.sendError text).transport.Live
        ∧ (s'.engine.link.sendError text).timers = s'.engine.link.timers
        ∧ (s'.engine.link.sendError text).stopRequested = false
        ∧ (s'.engine.link.sendError text).told sent
          = s'.engine.link.told sent ++ [Outbound.error text].map Outbound.encode := fun text => by
      obtain ⟨hlive', htold⟩ := told_sendError hσ hlive text
      exact ⟨hlive', Link.timers_sendError, Link.stopRequested_sendError.trans
        (ht'.unrequested hstop'), htold⟩
    have hrequest : s'.engine.request (.datagram data)
        = .ofMessage (Network.receive Message.maxDatagramSize (.ok data)) := by
      simp only [request, requestOf, hlive.isReceiving, if_true]
    rw [IsAside] at hdata
    rcases hreceive : Network.receive Message.maxDatagramSize (.ok data) with e | msg
    · rw [hreceive] at hrequest
      exact twins_answered hσ h hs' hstop' hrequest rfl rfl rfl (hfailed _)
    · rw [hreceive] at hrequest hdata
      obtain ⟨hkind, hcommand⟩ := hdata
      simp only [Request.ofMessage, hkind] at hrequest
      dsimp only
      rcases hc : msg.command with e | _ | _
      · rw [hc] at hrequest
        exact twins_answered hσ h hs' hstop' hrequest rfl rfl rfl (hfailed _)
      · exact absurd hc hcommand
      · rw [hc] at hrequest
        obtain ⟨-, -, a, hm, hend, -⟩ := hs'.working hstop'
        obtain ⟨hlive', htold⟩ := told_notifyAll hσ
          (a.statusNotices s'.interpreter.definition) hlive
        refine twins_answered hσ h hs' hstop' hrequest rfl rfl (serve_report hm hend _)
          ⟨hlive', Link.timers_notifyAll _, (Link.stopRequested_notifyAll _).trans
            (ht'.unrequested hstop'), ?_⟩
        rw [htold, List.filter_true, statusMessages, ← h.interpreter, hm, List.map_map]
        rfl
  · have hstop' : s'.engine.stopped = true := h.stopped.trans hstop
    rw [step_of_stopped hstop', if_pos rfl]
    exact ⟨h, by simp⟩

theorem twins_begin {access : Access σ} {settings : Settings} {e : Evaluator}
    {r : Except Error Unit} (h : Session.begin access settings (.ofDefinition d e) = .ok (r, s)) :
    Twins sent s s := by
  obtain ⟨g, hg, hcase⟩ := session_begin_cases h
  obtain ⟨hlive, -, -⟩ := told_connect hσ hg
  have hstop := (connect_ok hg).1
  rcases hcase with ⟨err, -, -, rfl⟩ | ⟨-, -, rfl⟩
  · have htells := tells_stop hσ rfl (m := .ofDefinition d e)
      (g := { g with handlers := interpreterHandlers, link := g.link.sendError err.report })
      (told_sendError hσ hlive err.report).1 hstop
    exact ⟨rfl, rfl, rfl, ⟨_, htells⟩, ⟨_, htells⟩⟩
  · have hsame : Abreast sent (g.link.told sent) (g.link.told sent) g.link g.link :=
      ⟨hlive, hlive, rfl, rfl, [], by simp, by simp⟩
    obtain ⟨-, hserve⟩ := abreast_serve hσ hsame (.ofDefinition d e) (.perform .start)
    refine (twins_proceed hσ _ hserve ?_ ?_ false).1
    all_goals exact hstop

/-- A run with asides stays the twin of the run without them, and answers each where it comes. -/
theorem twins_run : ∀ (items : List Item) {s s' : Session σ},
    (∀ data, .aside data ∈ items → IsAside data) → Twins sent s s' → s.Valid d → s'.Valid d →
    Twins sent ((items.filterMap Item.own?).foldl Session.take s)
        ((items.map Item.happening).foldl Session.take s')
      ∧ ((items.map Item.happening).foldl Session.take s').engine.link.told sent
        = s'.engine.link.told sent ++ transcript sent s items
  | [], _, _, _, h, _, _ => ⟨h, (List.append_nil _).symm⟩
  | .own x :: rest, s, s', hitems, h, hs, hs' => by
    obtain ⟨htwins, -, htold⟩ := twins_take hσ h hs hs' x
    obtain ⟨hrest, htold'⟩ := twins_run rest (fun data hdata =>
      hitems data (List.mem_cons_of_mem _ hdata)) htwins (valid_take hs x) (valid_take hs' x)
    refine ⟨hrest, ?_⟩
    rw [htold, List.append_assoc] at htold'
    exact htold'
  | .aside data :: rest, s, s', hitems, h, hs, hs' => by
    obtain ⟨htwins, htold⟩ := twins_aside hσ (hitems data (List.mem_cons_self ..)) h hs'
    obtain ⟨hrest, htold'⟩ := twins_run rest (fun data hdata =>
      hitems data (List.mem_cons_of_mem _ hdata)) htwins hs (valid_take hs' _)
    refine ⟨hrest, ?_⟩
    rw [htold, List.append_assoc] at htold'
    exact htold'

end Twins

/-- However many asides come in between, a session over a socket that takes everything goes through
the same interpreters and the same timers, and tells what it tells without them, with the answer to
each aside in its place.  The answer to a request for the status is the state, each variable and
each output. -/
theorem asides_do_not_interfere {access : Access σ} {settings : Settings} {d : Definition}
    {e : Evaluator} {sent : σ → List ByteArray} {r : Except Error Unit} {s₀ : Session σ}
    (hσ : Prompt (fun _ => true) sent)
    (hbegin : Session.begin access settings (.ofDefinition d e) = .ok (r, s₀)) (items : List Item)
    (hitems : ∀ data, .aside data ∈ items → IsAside data) :
    let own := items.filterMap Item.own?
    let s := own.foldl Session.take s₀
    let s' := (items.map Item.happening).foldl Session.take s₀
    s'.interpreter = s.interpreter ∧ s'.engine.link.timers = s.engine.link.timers
      ∧ s'.engine.stopped = s.engine.stopped
      ∧ (s.engine.stopped = false → ∃ a, s.interpreter.running = some a
        ∧ statusMessages s.interpreter
          = .state a.current :: (d.vars.map fun x => .var x.name ((a.vars.get? x.name).getD ""))
            ++ d.outputs.map fun o => .output o ((a.outputs.get? o).getD ""))
      ∧ s.engine.link.told sent
        = s₀.engine.link.told sent ++ transcript sent s₀ (own.map Item.own)
      ∧ s'.engine.link.told sent = s₀.engine.link.told sent ++ transcript sent s₀ items := by
  intro own s s'
  have hvalid := valid_begin hbegin
  have hstart : Twins sent s₀ s₀ := twins_begin hσ hbegin
  obtain ⟨htwins, htold⟩ := twins_run hσ items hitems hstart hvalid hvalid
  have hown : (own.map Item.own).map Item.happening = own := by
    rw [List.map_map]
    exact List.map_id own
  obtain ⟨-, hplain⟩ := twins_run hσ (own.map Item.own) (by simp) hstart hvalid hvalid
  rw [hown] at hplain
  exact ⟨htwins.interpreter, htwins.timers, htwins.stopped,
    statusMessages_of_going (valid_run own hvalid), hplain, htold⟩

open CommandLine Message Network in
theorem asides_do_not_interfere_blink : ∃ r, ∃ s₀ : Session (Wire fun _ => true),
    Session.begin Wire.access {} (.ofDefinition Blink.definition Blink.registry.evaluator)
        = .ok (r, s₀)
      ∧ (let start := Happening.event (.datagram (Inbound.ofInput "start" "1").encode)
        let status := (Inbound.ofCommand .getStatus).encode
        let s := s₀.take start
        let s' := [Happening.event (.datagram "start".toUTF8), start,
          .event (.datagram status)].foldl Session.take s₀
        s'.interpreter = s.interpreter ∧ s'.engine.link.timers = s.engine.link.timers
          ∧ s'.engine.link.told Wire.sent = s₀.engine.link.told Wire.sent
            ++ (s₀.answer "start".toUTF8).map Outbound.encode ++ s₀.toldAt Wire.sent start
            ++ (s.answer status).map Outbound.encode) := by
  let access : Access (Wire fun _ => true) := Wire.access
  let items := [Item.aside "start".toUTF8,
    .own (.event (.datagram (Inbound.ofInput "start" "1").encode)),
    .aside (Inbound.ofCommand .getStatus).encode]
  have hitems : ∀ data, .aside data ∈ items → IsAside data := by
    simp only [items, List.mem_cons, Item.aside.injEq, List.not_mem_nil, or_false, reduceCtorEq,
      false_or]
    rintro data (rfl | rfl)
    · exact trivial
    · exact ⟨rfl, by decide +kernel⟩
  have hrun : (Session.begin access {}
      (.ofDefinition Blink.definition Blink.registry.evaluator)).isOk = true := by
    decide +kernel
  rcases hbegin : Session.begin access {}
    (.ofDefinition Blink.definition Blink.registry.evaluator) with err | ⟨r, s₀⟩
  · rw [hbegin] at hrun
    cases hrun
  · obtain ⟨hm, htimers, -, -, -, htold⟩ :=
      asides_do_not_interfere Wire.prompt hbegin items hitems
    refine ⟨r, s₀, rfl, hm, htimers, htold.trans ?_⟩
    simp [items, transcript]

end RemoteAutomaton.Engine
