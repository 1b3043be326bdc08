import Mathlib.Tactic.SplitIfs
import RemoteAutomaton.Proofs.SessionTimers
import RemoteAutomaton.Proofs.Simulation

/-!
# What the observer is told

A prompt socket lets no datagram wait: it takes those that fit and rejects the others.  Over such a
socket an open channel keeps nothing back, so the datagrams that the socket has taken are those that
were sent, in order (`Link.told`).  A session that goes on or ends has told what its link was told,
and in the end that it is terminating (`tells_proceed`).
-/

namespace RemoteAutomaton.Network

open Message (Outbound)

variable {σ : Type} [Socket σ]

/-- A socket that takes at once what fits and rejects the rest; `sent` are the datagrams taken. -/
structure Prompt (fits : ByteArray → Bool) (sent : σ → List ByteArray) : Prop where
  takes : ∀ s d, fits d = true →
    (Socket.trySend s d).1 = .accepted ∧ sent (Socket.trySend s d).2 = sent s ++ [d]
  rejects : ∀ s d, fits d = false →
    (∃ reason, (Socket.trySend s d).1 = .rejected reason) ∧ sent (Socket.trySend s d).2 = sent s

namespace Transport

variable {t : Transport σ}

/-- A channel that takes the observer's datagrams and keeps nothing back. -/
structure Live (t : Transport σ) : Prop where
  isOpen : t.isOpen = true
  wantsDatagrams : t.wantsDatagrams = true
  queue : t.queue = []

omit [Socket σ] in
theorem Live.isReceiving (ht : t.Live) : t.isReceiving = true := by
  rw [Transport.isReceiving, ht.wantsDatagrams, ht.isOpen]
  rfl

theorem Live.flush (ht : t.Live) : t.flush = (.ok (), t) := by
  obtain ⟨socket, peer, isOpen, wants, queue⟩ := t
  obtain ⟨rfl, -, rfl⟩ := ht
  rfl

theorem Live.shutdown (ht : t.Live) :
    t.shutdown.isOpen = false ∧ t.shutdown.socket = t.socket := by
  obtain ⟨socket, peer, isOpen, wants, queue⟩ := t
  obtain ⟨rfl, -, rfl⟩ := ht
  exact ⟨rfl, rfl⟩

theorem send_of_closed {m : Outbound} (ht : t.isOpen = false) : t.send m = (.ok (), t) := by
  simp only [Transport.send, ht]
  rfl

omit [Socket σ] in
theorem connect_ok {access : Access σ} {bindHost peerHost : String} {listenPort peerPort : Nat}
    (ht : Transport.connect access bindHost listenPort peerHost peerPort = .ok t) :
    t.isOpen = true ∧ t.queue = []
      ∧ ∃ address isV4, access.bind address = .ok (isV4, t.socket) := by
  simp only [Transport.connect] at ht
  split at ht
  · cases ht
  · rename_i isV4 socket hbind
    split at ht
    · cases ht
    · split at ht
      · cases ht
      · cases ht
        exact ⟨rfl, rfl, _, isV4, hbind⟩

end Transport

section Prompt

variable {fits : ByteArray → Bool} {sent : σ → List ByteArray} (hσ : Prompt fits sent)
  {t : Transport σ}

include hσ

theorem Prompt.offer (peer : Address) (s : σ) (d : ByteArray) :
    sent (Transport.offer peer s [d]).2.1 = sent s ++ [d].filter fits
      ∧ (Transport.offer peer s [d]).2.2 = []
      ∧ ((Transport.offer peer s [d]).1 = .ok () → fits d = true) := by
  unfold Transport.offer
  rcases hfits : fits d with _ | _
  · obtain ⟨⟨reason, hanswer⟩, hsent⟩ := hσ.rejects s d hfits
    rcases hs : Socket.trySend s d with ⟨answer, s'⟩
    rw [hs] at hanswer hsent
    dsimp only at hanswer hsent
    subst hanswer
    exact ⟨by simp [hsent, hfits], rfl, fun hok => by cases hok⟩
  · obtain ⟨hanswer, hsent⟩ := hσ.takes s d hfits
    rcases hs : Socket.trySend s d with ⟨answer, s'⟩
    rw [hs] at hanswer hsent
    dsimp only at hanswer hsent
    subst hanswer
    exact ⟨by simp [Transport.offer, hsent, hfits], rfl, fun _ => rfl⟩

theorem Prompt.send (ht : t.Live) (m : Outbound) :
    (t.send m).2.Live ∧ sent (t.send m).2.socket = sent t.socket ++ [m.encode].filter fits
      ∧ ((t.send m).1 = .ok () → fits m.encode = true) := by
  obtain ⟨socket, peer, isOpen, wants, queue⟩ := t
  obtain ⟨rfl, rfl, rfl⟩ := ht
  obtain ⟨hsent, hqueue, hok⟩ := hσ.offer peer socket m.encode
  exact ⟨⟨rfl, rfl, hqueue⟩, hsent, hok⟩

theorem Prompt.send_ok (ht : t.Live) {m : Outbound} (hm : fits m.encode = true) :
    (t.send m).1 = .ok () := by
  obtain ⟨socket, peer, isOpen, wants, queue⟩ := t
  obtain ⟨rfl, rfl, rfl⟩ := ht
  have hoffer : (Transport.offer peer socket [m.encode]).1 = .ok () := by
    obtain ⟨hanswer, -⟩ := hσ.takes socket m.encode hm
    rw [Transport.offer]
    rcases hs : Socket.trySend socket m.encode with ⟨answer, s'⟩
    rw [hs] at hanswer
    dsimp only at hanswer
    subst hanswer
    rfl
  exact hoffer

end Prompt

/-! ### A wire -/

/-- The socket that takes whatever fits. -/
structure Wire (fits : ByteArray → Bool) where
  sent : List ByteArray := []

namespace Wire

variable {fits : ByteArray → Bool}

instance : Socket (Wire fits) where
  trySend w d := if fits d then (.accepted, ⟨w.sent ++ [d]⟩) else (.rejected "message too long", w)
  isWritable _ := true
  wait := id

def access : Access (Wire fits) where
  bind _ := .ok (true, {})
  resolve _ port := .ok [⟨.v4 127 0 0 1, 0, port⟩]

theorem prompt : Prompt fits fun w : Wire fits => w.sent where
  takes w d h := by simp [Socket.trySend, h]
  rejects w d h := by simp [Socket.trySend, h]

theorem fresh {address : String} {isV4 : Bool} {w : Wire fits}
    (h : access.bind address = .ok (isV4, w)) : w.sent = [] := by
  cases h
  rfl

end Wire

end RemoteAutomaton.Network

namespace RemoteAutomaton.Engine

open Automaton (Host Interpreter Notice Operation Outcome Pending Running)
open Message (Outbound)
open Network (Access Prompt Socket Transport)

variable {σ : Type}

/-- The datagrams that the socket of a link has taken. -/
def Link.told (sent : σ → List ByteArray) (l : Link σ) : List ByteArray := sent l.transport.socket

/-- What is reported of a result. -/
def failureOf {α : Type} : Except Automaton.Error α → List Outbound
  | .ok _ => []
  | .error e => [.error e.report]

variable [Socket σ]

/-! ### Links -/

namespace Link

variable {l : Link σ}

omit [Socket σ] in
theorem transport_noteSent {r : Except Network.Error Unit × Transport σ} :
    (l.noteSent r).transport = r.2 := by
  unfold noteSent
  split <;> rfl

omit [Socket σ] in
theorem stopRequested_noteSent {r : Except Network.Error Unit × Transport σ} :
    (l.noteSent r).stopRequested = l.stopRequested := by
  unfold noteSent
  split <;> rfl

theorem transport_send {m : Outbound} : (l.send m).transport = (l.transport.send m).2 :=
  transport_noteSent

theorem stopRequested_send {m : Outbound} : (l.send m).stopRequested = l.stopRequested :=
  stopRequested_noteSent

theorem stopRequested_sendError {text : String} :
    (l.sendError text).stopRequested = l.stopRequested := stopRequested_send

theorem flush_of_live (hl : l.transport.Live) : l.flush = l := by
  rw [flush, hl.flush]
  rfl

omit [Socket σ] in
/-- Nobody waits for room where nothing is kept back. -/
theorem waitFailed_of_live (hl : l.transport.Live) (reason : String) : l.waitFailed reason = l := by
  have hwaiting : l.transport.isWaiting = false := by
    simp [Transport.isWaiting, hl.queue]
  rw [waitFailed, hwaiting, if_neg Bool.false_ne_true]

/-- A notice is sent as its message, a failure like any other. -/
theorem transport_notify {n : Notice} :
    (Host.notify l n).transport = (l.transport.send (messageOf n)).2 := by
  cases n <;> exact transport_send

theorem stopRequested_notify {n : Notice} :
    (Host.notify l n).stopRequested = l.stopRequested := by
  cases n <;> exact stopRequested_send

theorem stopRequested_notifyAll : ∀ (ns : List Notice) {l : Link σ},
    (ns.foldl Host.notify l).stopRequested = l.stopRequested
  | [], _ => rfl
  | _ :: ns, _ => (stopRequested_notifyAll ns).trans stopRequested_notify

end Link

theorem cancelAll_link : ∀ (l : Link σ) (ps : List Pending),
    ∃ timers, Running.cancelAll l ps = { l with timers }
  | l, [] => ⟨l.timers, rfl⟩
  | l, p :: ps => by
    obtain ⟨timers, h⟩ := cancelAll_link (Host.cancel l p.id) ps
    exact ⟨timers, h⟩

theorem terminate_link (m : Interpreter) (l : Link σ) :
    ∃ timers, (m.terminate l).2 = { l with timers } := by
  unfold Interpreter.terminate
  split
  · exact ⟨l.timers, rfl⟩
  · exact cancelAll_link l _

/-- An operation does not ask for the end by itself. -/
theorem stopRequested_perform (m : Interpreter) (l : Link σ) (op : Operation) :
    (m.perform l op).host.stopRequested = l.stopRequested := by
  refine Interpreter.perform_invariant (P := fun k : Link σ => k.stopRequested = l.stopRequested)
    (fun k n h => Link.stopRequested_notify.trans h) (fun k id h => h) (fun k ms target h => ?_)
    m op rfl
  simp only [Host.schedule, Link.schedule]
  split <;> exact h

section Prompt

variable {fits : ByteArray → Bool} {sent : σ → List ByteArray} (hσ : Prompt fits sent)
  {l : Link σ}

include hσ

theorem told_send (hl : l.transport.Live) (m : Outbound) :
    (l.send m).transport.Live ∧ (l.send m).told sent = l.told sent ++ [m.encode].filter fits := by
  obtain ⟨hlive, hsent, -⟩ := hσ.send hl m
  rw [Link.told, Link.transport_send]
  exact ⟨hlive, hsent⟩

theorem told_sendError (hl : l.transport.Live) (text : String) :
    (l.sendError text).transport.Live
      ∧ (l.sendError text).told sent
        = l.told sent ++ [(Outbound.error text).encode].filter fits :=
  told_send hσ hl (.error text)

theorem told_notify (hl : l.transport.Live) (n : Notice) :
    (Host.notify l n).transport.Live
      ∧ (Host.notify l n).told sent = l.told sent ++ [(Link.messageOf n).encode].filter fits := by
  obtain ⟨hlive, hsent, -⟩ := hσ.send hl (Link.messageOf n)
  rw [Link.told, Link.transport_notify]
  exact ⟨hlive, hsent⟩

theorem told_notifyAll : ∀ (ns : List Notice) {l : Link σ}, l.transport.Live →
    (ns.foldl Host.notify l).transport.Live
      ∧ (ns.foldl Host.notify l).told sent
        = l.told sent ++ (ns.map fun n => (Link.messageOf n).encode).filter fits
  | [], _, hl => ⟨hl, by simp⟩
  | n :: ns, l, hl => by
    obtain ⟨hlive, htold⟩ := told_notify hσ hl n
    obtain ⟨hlive', htold'⟩ := told_notifyAll ns hlive
    refine ⟨hlive', ?_⟩
    rw [List.foldl_cons, htold', htold, List.append_assoc, ← List.filter_append]
    rfl

theorem told_surface {α : Type} {o : Outcome (Link σ) α} (hl : o.host.transport.Live) :
    (surface o).2.transport.Live
      ∧ (surface o).2.told sent
        = o.host.told sent ++ ((failureOf o.result).map Outbound.encode).filter fits
      ∧ (surface o).2.stopRequested
        = (o.host.stopRequested || o.interpreter.isTerminating) := by
  obtain ⟨result, m, l⟩ := o
  have hrequest : ∀ (l' : Link σ), l'.stopRequested = l.stopRequested →
      (if m.isTerminating then l'.requestStop else l').transport = l'.transport
        ∧ (if m.isTerminating then l'.requestStop else l').stopRequested
          = (l.stopRequested || m.isTerminating) := by
    intro l' hl'
    rcases m.isTerminating with _ | _
    · exact ⟨rfl, by rw [Bool.or_false, ← hl']; rfl⟩
    · exact ⟨rfl, by rw [Bool.or_true]; rfl⟩
  simp only [surface, Link.told]
  cases result with
  | ok x =>
    obtain ⟨htransport, hstop⟩ := hrequest l rfl
    simp only [htransport, hstop, failureOf, List.map_nil, List.filter_nil, List.append_nil]
    exact ⟨hl, trivial, trivial⟩
  | error e =>
    obtain ⟨htransport, hstop⟩ := hrequest (l.sendError e.report) Link.stopRequested_sendError
    obtain ⟨hlive, hsent⟩ := told_sendError hσ hl e.report
    rw [htransport, hstop]
    exact ⟨hlive, hsent, rfl⟩

end Prompt

/-- Over a channel that keeps nothing back an event is taken note of by the timers alone. -/
theorem heed_of_live {τ : Type} {g : Engine σ τ} (hl : g.link.transport.Live) (e : Event) :
    g.heed e = { g.link with timers := e.advance g.link.timers } := by
  cases e with
  | shutdown | signal | elapsed | expiry | datagram | receiveFailed => rfl
  | writable => exact Link.flush_of_live hl
  | waitFailed reason => exact Link.waitFailed_of_live hl reason

theorem told_heed {τ : Type} {g : Engine σ τ} (hl : g.link.transport.Live) (e : Event) :
    (g.heed e).transport = g.link.transport
      ∧ (g.heed e).stopRequested = g.link.stopRequested := by
  rw [heed_of_live hl]
  exact ⟨rfl, rfl⟩

/-! ### Sessions -/

/-- A session has told `ds`, and at the end that it is terminating.  Until then its channel is
open. -/
structure Session.Tells (sent : σ → List ByteArray) (s : Session σ) (ds : List ByteArray) :
    Prop where
  told : s.engine.link.told sent
    = ds ++ if s.engine.stopped then [Outbound.terminating.encode] else []
  live : s.engine.stopped = false → s.engine.link.transport.Live
  unrequested : s.engine.stopped = false → s.engine.link.stopRequested = false
  closed : s.engine.stopped = true → s.engine.link.transport.isOpen = false

theorem Session.Tells.drift {sent : σ → List ByteArray} {s : Session σ} {ds : List ByteArray}
    (h : s.Tells sent ds) (now : Nat) (asleep : List Timer.Sleeper)
    (due : List Automaton.TimerId) : (s.take (.drift now asleep due)).Tells sent ds :=
  ⟨h.told, h.live, h.unrequested, h.closed⟩

section Session

variable {fits : ByteArray → Bool} {sent : σ → List ByteArray} (hσ : Prompt fits sent)
  (hfits : fits Outbound.terminating.encode = true) {g : Engine σ Interpreter} {m : Interpreter}
  {l : Link σ}

theorem drainQueue_of_nil (hl : l.transport.queue = []) : drainQueue l = l := by
  rw [drainQueue, if_pos hl]

include hσ hfits

theorem tells_stop (hl : g.link.transport.Live) (hstop : g.stopped = false) :
    Session.Tells sent ⟨g.stop, m⟩ (g.link.told sent) := by
  obtain ⟨hlive, hsent⟩ := told_send hσ hl .terminating
  have hdrain : drainQueue ((g.link.send .terminating).cancelAll).2
      = ((g.link.send .terminating).cancelAll).2 := drainQueue_of_nil hlive.queue
  obtain ⟨hclosed, hsocket⟩ := hlive.shutdown
  have hlink : g.stop.link.transport = (g.link.send .terminating).transport.shutdown := by
    rw [stop, if_neg (Bool.eq_false_iff.1 hstop), hdrain]
    rfl
  have hstopped : g.stop.stopped = true := by
    rw [stop, if_neg (Bool.eq_false_iff.1 hstop)]
  have hrunning : g.stop.stopped ≠ false := by
    rw [hstopped]
    exact Bool.noConfusion
  refine ⟨?_, fun h => absurd h hrunning, fun h => absurd h hrunning, fun _ => by
    rw [hlink, hclosed]⟩
  · have hterm : [Outbound.terminating.encode].filter fits = [Outbound.terminating.encode] := by
      simp [hfits]
    rw [Link.told, hlink, hsocket, hstopped, if_pos rfl]
    rwa [hterm] at hsent

theorem tells_ended (hl : l.transport.Live) (hstop : g.stopped = false) :
    (Session.ended g m l).Tells sent (l.told sent)
      ∧ (Session.ended g m l).engine.stopped = true := by
  obtain ⟨timers, hterm⟩ := terminate_link m l
  have htells := tells_stop hσ hfits (g := g.drained (m.terminate l).2) (m := (m.terminate l).1)
    (by rwa [hterm]) hstop
  refine ⟨?_, ?_⟩
  · rw [Session.ended, hterm]
    rwa [hterm] at htells
  · simp only [Session.ended, stop]
    split_ifs with h
    · exact h
    · rfl

/-- A session that goes on has told what its link was told, and one that ends also its end. -/
theorem tells_proceed (hl : l.transport.Live) (hstop : g.stopped = false) (stops : Bool) :
    (Session.proceed g m l stops).Tells sent (l.told sent)
      ∧ (Session.proceed g m l stops).engine.stopped = (stops || l.stopRequested) := by
  unfold Session.proceed
  split_ifs with h
  · rw [h]
    exact tells_ended hσ hfits (l := (g.drained l).link) hl hstop
  · rw [Bool.eq_false_iff.2 h]
    exact ⟨⟨by simp [drained, hstop, Link.told], fun _ => hl,
      fun _ => (Bool.or_eq_false_iff.1 (Bool.eq_false_iff.2 h)).2,
      fun hyes => absurd (hstop.symm.trans hyes) Bool.false_ne_true⟩, hstop⟩

omit hfits in
/-- An engine that has connected has told over the socket it was given that it is ready, and nothing
else. -/
theorem told_connect {access : Access σ} {settings : Settings}
    (hg : connect access settings = .ok g) :
    g.link.transport.Live ∧ g.link.stopRequested = false
      ∧ ∃ address isV4 socket, access.bind address = .ok (isV4, socket)
        ∧ g.link.told sent = sent socket ++ [(Outbound.ready settings.name).encode] := by
  simp only [connect, bind, Except.bind] at hg
  rcases ht : Transport.connect access settings.bindHost settings.listenPort settings.peerHost
    settings.peerPort with e | t
  · rw [ht] at hg
    cases hg
  · rw [ht] at hg
    obtain ⟨hopen, hqueue, address, isV4, hbind⟩ := Transport.connect_ok ht
    have hlive : t.startReceiving.Live := ⟨hopen, rfl, hqueue⟩
    obtain ⟨hlive', hsent, hok⟩ := hσ.send hlive (.ready settings.name)
    rcases hs : t.startReceiving.send (.ready settings.name) with ⟨r, t'⟩
    simp only [Except.mapError, hs] at hg
    rw [hs] at hlive' hsent hok
    cases r with
    | error e => cases hg
    | ok x =>
      obtain rfl := Except.ok.inj hg
      refine ⟨hlive', rfl, address, isV4, t.socket, hbind, ?_⟩
      rw [Link.told, hsent]
      simp [hok rfl, Transport.startReceiving]

end Session

end RemoteAutomaton.Engine
