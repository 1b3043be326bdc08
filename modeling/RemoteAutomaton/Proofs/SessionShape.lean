import RemoteAutomaton.Proofs.Sending
import RemoteAutomaton.Proofs.Watching

/-!
# The shape of a session

Whatever happens, a session tells first that it is ready and last, once, that it is terminating; in
between are reports.  The terminate handler is called once, before the end is told, and no handler
after it.  What is left then is a closed channel and no timer, and nothing that is done to the
engine or its link is told any more (`session_shape`).
-/

namespace RemoteAutomaton.Message

/-- A datagram that announces neither the beginning nor the end. -/
structure Plain (x : ByteArray) : Prop where
  ready : ∀ name, x ≠ (Outbound.ready name).encode
  terminating : x ≠ Outbound.terminating.encode

namespace Outbound

theorem takeWhile_render (m : Outbound) : m.render.takeWhile (· ≠ ' ') = m.keyword.toList := by
  have hkeyword : ∀ c ∈ m.keyword.toList, decide (c ≠ ' ') = true := by
    cases m <;> simp [keyword]
  unfold render
  split
  · rw [← List.append_nil m.keyword.toList, List.takeWhile_append_of_pos hkeyword]
    rfl
  · rw [List.takeWhile_append_of_pos hkeyword]
    simp

/-- A datagram tells the keyword of its message. -/
theorem keyword_eq {m n : Outbound} (h : m.encode = n.encode) : m.keyword = n.keyword := by
  have htext : m.text = n.text := String.toByteArray_inj.1 h
  have hrender : m.render = n.render := String.ofList_injective htext
  have hkeyword : m.keyword.toList = n.keyword.toList := by
    rw [← takeWhile_render, hrender, takeWhile_render]
  exact String.toList_injective hkeyword

theorem plain_of_keyword {m : Outbound} (hready : m.keyword ≠ "READY")
    (hend : m.keyword ≠ "TERMINATING") : Plain m.encode where
  ready _ h := hready (keyword_eq h)
  terminating h := hend (keyword_eq h)

end Outbound

end RemoteAutomaton.Message

namespace RemoteAutomaton.Engine

open Automaton (Evaluator Host Interpreter Notice Operation)
open Machine (Definition)
open Message (Outbound Plain)
open Network (Access Prompt Socket)

variable {σ : Type} [Socket σ]

theorem plain_messageOf (n : Notice) : Plain (Link.messageOf n).encode := by
  cases n <;> exact Outbound.plain_of_keyword (by simp [Link.messageOf, Outbound.keyword])
    (by simp [Link.messageOf, Outbound.keyword])

theorem plain_error (text : String) : Plain (Outbound.error text).encode :=
  Outbound.plain_of_keyword (by simp [Outbound.keyword]) (by simp [Outbound.keyword])

/-! ### Reports -/

/-- A link that keeps nothing back and has told only reports since `before`. -/
structure Link.Reports (sent : σ → List ByteArray) (before : List ByteArray) (l : Link σ) : Prop
    where
  live : l.transport.Live
  told : ∃ ds, l.told sent = before ++ ds ∧ ∀ x ∈ ds, Plain x

section Reports

variable {fits : ByteArray → Bool} {sent : σ → List ByteArray} (hσ : Prompt fits sent)
  {before : List ByteArray} {l : Link σ}

omit [Socket σ] in
theorem Link.Reports.append {l' : Link σ} {ds : List ByteArray} (hl : l.Reports sent before)
    (hlive : l'.transport.Live) (htold : l'.told sent = l.told sent ++ ds)
    (hds : ∀ x ∈ ds, Plain x) : l'.Reports sent before := by
  obtain ⟨-, ds', htold', hds'⟩ := hl
  refine ⟨hlive, ds' ++ ds, by rw [htold, htold', List.append_assoc], fun x hx => ?_⟩
  exact (List.mem_append.1 hx).elim (hds' x) (hds x)

include hσ

theorem reports_notify (hl : l.Reports sent before) (n : Notice) :
    (Host.notify l n).Reports sent before := by
  obtain ⟨hlive, htold⟩ := told_notify hσ hl.live n
  refine hl.append hlive htold fun x hx => ?_
  obtain rfl := List.mem_singleton.1 (List.mem_filter.1 hx).1
  exact plain_messageOf n

theorem reports_sendError (hl : l.Reports sent before) (text : String) :
    (l.sendError text).Reports sent before := by
  obtain ⟨hlive, htold⟩ := told_sendError hσ hl.live text
  refine hl.append hlive htold fun x hx => ?_
  obtain rfl := List.mem_singleton.1 (List.mem_filter.1 hx).1
  exact plain_error text

theorem reports_surface {α : Type} {o : Automaton.Outcome (Link σ) α}
    (ho : o.host.Reports sent before) : (surface o).2.Reports sent before := by
  obtain ⟨hlive, htold, -⟩ := told_surface hσ (o := o) ho.live
  refine ho.append hlive htold fun x hx => ?_
  obtain ⟨m, hm, rfl⟩ := List.mem_map.1 (List.mem_filter.1 hx).1
  rcases hr : o.result with e | a
  · rw [hr] at hm
    obtain rfl := List.mem_singleton.1 hm
    exact plain_error _
  · rw [hr] at hm
    cases hm

theorem reports_serve (m : Interpreter) (hl : l.Reports sent before) (q : Request) :
    (q.serve m l).2.Reports sent before := by
  cases q with
  | perform op =>
    refine reports_surface hσ (Interpreter.perform_invariant (P := Link.Reports sent before)
      (fun _ n hl => reports_notify hσ hl n) (fun l id hl => ⟨hl.live, hl.told⟩)
      (fun l ms target hl => ?_) m op hl)
    simp only [Host.schedule, Link.schedule]
    split <;> exact ⟨hl.live, hl.told⟩
  | report text => exact reports_sendError hσ hl text
  | stop | idle => exact hl

end Reports

/-! ### Sessions -/

/-- The session of an engine of that name has told that it is ready, then reports, and at the end
that it is terminating. -/
def Session.Framed (sent : σ → List ByteArray) (name : String) (s : Session σ) : Prop :=
  ∃ ds, s.Tells sent ((Outbound.ready name).encode :: ds) ∧ ∀ x ∈ ds, Plain x

/-- The terminate handler is not called before the end, and is the last one called, when the end
has not been told yet. -/
def Orderly (stopped : Bool) (calls : List (Call × List ByteArray)) : Prop :=
  ∃ before, (∀ c ∈ before, c.1 ≠ .terminate) ∧
    if stopped then
      ∃ ds, Outbound.terminating.encode ∉ ds ∧ calls = before ++ [(.terminate, ds)]
    else calls = before

/-- Something that ends a session. -/
def Happening.Stops : Happening → Prop
  | .event .shutdown | .event .signal => True
  | .event (.datagram d) => ∃ m, Network.receive Message.maxDatagramSize (.ok d) = .ok m
      ∧ m.kind = .command ∧ m.command = .ok .terminate
  | _ => False

omit [Socket σ] in
theorem request_eq_stop_iff {τ : Type} {g : Engine σ τ}
    (hg : g.link.transport.isReceiving = true) {e : Event} :
    g.request e = .stop ↔ (Happening.event e).Stops := by
  cases e with
  | shutdown | signal => exact iff_of_true rfl trivial
  | writable | waitFailed | elapsed => exact iff_of_false Request.noConfusion id
  | expiry =>
    refine iff_of_false (fun h => ?_) id
    simp only [request] at h
    split at h <;> cases h
  | receiveFailed =>
    simp only [request, requestOf, hg, if_true]
    exact iff_of_false Request.noConfusion id
  | datagram d =>
    simp only [request, requestOf, hg, if_true, Happening.Stops]
    rcases Network.receive Message.maxDatagramSize (.ok d) with err | m
    · refine iff_of_false Request.noConfusion ?_
      rintro ⟨m, h, -⟩
      cases h
    · simp only [Except.ok.injEq, exists_eq_left', Request.ofMessage]
      cases hkind : m.kind with
      | input => exact iff_of_false Request.noConfusion fun h => by cases h.1
      | command =>
        dsimp only
        rcases m.command with err | _ | _
        · exact iff_of_false Request.noConfusion fun h => by cases h.2
        · exact iff_of_true rfl ⟨rfl, rfl⟩
        · exact iff_of_false Request.noConfusion fun h => by cases h.2

section Sessions

variable {fits : ByteArray → Bool} {sent : σ → List ByteArray} (hσ : Prompt fits sent)
  (hfits : fits Outbound.terminating.encode = true) {d : Definition} {s : Session σ}
  {g : Engine σ Interpreter} {m : Interpreter} {l : Link σ} {name : String}
  {calls : List (Call × List ByteArray)}

omit [Socket σ] in
theorem terminating_notMem (hl : l.Reports sent [(Outbound.ready name).encode]) :
    Outbound.terminating.encode ∉ l.told sent := by
  obtain ⟨-, ds, htold, hds⟩ := hl
  rw [htold]
  intro hmem
  rcases List.mem_append.1 hmem with hready | hreport
  · have hkeyword := Outbound.keyword_eq (List.mem_singleton.1 hready)
    simp [Outbound.keyword] at hkeyword
  · exact (hds _ hreport).terminating rfl

theorem reports_heed (hs : s.Framed sent name) (hstop : s.engine.stopped = false) (e : Event) :
    (s.engine.heed e).Reports sent [(Outbound.ready name).encode] := by
  obtain ⟨ds, ht, hds⟩ := hs
  have hlive := ht.live hstop
  obtain ⟨htransport, -⟩ := told_heed hlive e
  have htold := ht.told
  rw [hstop, if_neg Bool.false_ne_true, List.append_nil] at htold
  refine ⟨by rwa [htransport], ds, ?_, hds⟩
  rw [Link.told, htransport]
  exact htold

omit [Socket σ] in
theorem orderly_of_running (h : ∀ c ∈ calls, c.1 ≠ .terminate) : Orderly false calls :=
  ⟨calls, h, rfl⟩

theorem call?_ne_terminate (q : Request) : q.call? ≠ some .terminate := by
  cases q with
  | perform op => cases op <;> simp [Request.call?]
  | report | stop | idle => simp [Request.call?]

omit [Socket σ] in
theorem call_ne_terminate {q : Request} {c : Call × List ByteArray}
    (hc : c ∈ q.calls (Link.told sent) l) : c.1 ≠ .terminate := by
  obtain ⟨call, hcall, rfl⟩ := Option.map_eq_some_iff.1 (Option.mem_toList.1 hc)
  rintro rfl
  exact call?_ne_terminate q hcall

include hσ hfits

theorem framed_proceed (hl : l.Reports sent [(Outbound.ready name).encode])
    (hstop : g.stopped = false) (stops : Bool) :
    (Session.proceed g m l stops).Framed sent name := by
  obtain ⟨ds, htold, hds⟩ := hl.told
  obtain ⟨ht, -⟩ := tells_proceed hσ hfits (g := g) (m := m) hl.live hstop stops
  rw [htold] at ht
  exact ⟨ds, ht, hds⟩

/-- A session that goes on or ends calls the terminate handler only if it ends. -/
theorem orderly_proceed (hl : l.Reports sent [(Outbound.ready name).encode])
    (hstop : g.stopped = false) (stops : Bool) (h : ∀ c ∈ calls, c.1 ≠ .terminate) :
    Orderly (Session.proceed g m l stops).engine.stopped
      (calls ++ endCalls (Link.told sent) l stops) := by
  obtain ⟨-, hstopped⟩ := tells_proceed hσ hfits (g := g) (m := m) hl.live hstop stops
  rw [hstopped, endCalls]
  rcases stops || l.stopRequested with _ | _
  · rw [if_neg Bool.false_ne_true, List.append_nil]
    exact orderly_of_running h
  · exact ⟨calls, h, l.told sent, terminating_notMem hl, rfl⟩

theorem framed_take (hv : s.Valid d) (hs : s.Framed sent name) (x : Happening) :
    (s.take x).Framed sent name := by
  cases x with
  | drift now asleep due =>
    obtain ⟨ds, ht, hds⟩ := hs
    exact ⟨ds, ht.drift now asleep due, hds⟩
  | event e =>
    rcases hstop : s.engine.stopped with _ | _
    · obtain ⟨hg, -⟩ := hv.working hstop
      rw [Session.take, step_eq hg hstop]
      exact framed_proceed hσ hfits (reports_serve hσ _ (reports_heed hs hstop e) _) hstop _
    · rwa [Session.take, step_of_stopped hstop]

theorem orderly_take (hv : s.Valid d) (hs : s.Framed sent name)
    (hcalls : Orderly s.engine.stopped calls) (x : Happening) :
    Orderly (s.take x).engine.stopped (calls ++ s.callsAt (Link.told sent) x) := by
  cases x with
  | drift now asleep due => rwa [Session.callsAt, List.append_nil]
  | event e =>
    rw [Session.take, Session.callsAt, Session.callsOf]
    rcases hstop : s.engine.stopped with _ | _
    · obtain ⟨hg, -⟩ := hv.working hstop
      rw [hstop] at hcalls
      obtain ⟨before, hbefore, rfl⟩ := hcalls
      rw [step_eq hg hstop, if_neg Bool.false_ne_true, ← List.append_assoc]
      refine orderly_proceed hσ hfits (reports_serve hσ _ (reports_heed hs hstop e) _) hstop _ ?_
      intro c hc
      exact (List.mem_append.1 hc).elim (hbefore c) call_ne_terminate
    · rwa [step_of_stopped hstop, if_pos rfl, List.append_nil]

omit hσ hfits in
theorem isTerminating_ended (hm : m.running ≠ none) :
    (Session.ended g m l).interpreter.isTerminating = true := by
  obtain ⟨a, ha⟩ := Option.ne_none_iff_exists'.1 hm
  simp only [Session.ended, Interpreter.terminate, ha]
  rfl

omit hσ hfits in
/-- A session that has been started and has ended has a terminated interpreter. -/
theorem isTerminating_take (hv : s.Valid d) (x : Happening)
    (hs : s.engine.stopped = true → s.interpreter.isTerminating = true)
    (hstopped : (s.take x).engine.stopped = true) :
    (s.take x).interpreter.isTerminating = true := by
  cases x with
  | drift now asleep due => exact hs hstopped
  | event e =>
    rw [Session.take] at hstopped ⊢
    rcases hstop : s.engine.stopped with _ | _
    · obtain ⟨hg, hw⟩ := hv.working hstop
      rw [step_eq hg hstop, Session.proceed] at hstopped ⊢
      split_ifs at hstopped ⊢
      · exact isTerminating_ended (agrees_serve hw e).running_ne_none
      · exact absurd (hstop.symm.trans hstopped) Bool.false_ne_true
    · rw [step_of_stopped hstop]
      exact hs hstop

/-- What ends a session ends it at once. -/
theorem stopped_take (hv : s.Valid d) (hs : s.Framed sent name) {x : Happening} (hx : x.Stops) :
    (s.take x).engine.stopped = true := by
  cases x with
  | drift now asleep due => exact hx.elim
  | event e =>
    rw [Session.take]
    rcases hstop : s.engine.stopped with _ | _
    · obtain ⟨hg, -⟩ := hv.working hstop
      obtain ⟨ds, ht, -⟩ := id hs
      have hrequest : s.engine.request e = .stop :=
        (request_eq_stop_iff (ht.live hstop).isReceiving).2 hx
      have hlive := (reports_serve hσ s.interpreter (reports_heed hs hstop e)
        (s.engine.request e)).live
      rw [step_eq hg hstop, (tells_proceed hσ hfits hlive hstop _).2, hrequest]
      rfl
    · rwa [step_of_stopped hstop]

end Sessions

/-! ### After the end -/

/-- What can be done to an engine and its link from outside the loop. -/
inductive Late where
  | run (events : List Event)
  | stop
  | send (m : Outbound)
  | sendError (text : String)
  | notify (n : Notice)

/-- Runs the engine again, stops it again, or sends through its link. -/
def Session.late (s : Session σ) : Late → Session σ
  | .run events =>
    let r := s.engine.run s.interpreter events
    ⟨r.2.1, r.2.2⟩
  | .stop => { s with engine := s.engine.stop }
  | .send m => { s with engine := { s.engine with link := s.engine.link.send m } }
  | .sendError text => { s with engine := { s.engine with link := s.engine.link.sendError text } }
  | .notify n => { s with engine := { s.engine with link := Host.notify s.engine.link n } }

section Late

variable {s : Session σ}

/-- A session that has stopped and whose channel is closed. -/
structure Session.Over (s : Session σ) : Prop where
  stopped : s.engine.stopped = true
  closed : s.engine.link.transport.isOpen = false

theorem takeAll_of_stopped {τ : Type} {g : Engine σ τ} {a : τ} (hstop : g.stopped = true) :
    ∀ events : List Event, g.takeAll a events = (g, a)
  | [] => rfl
  | e :: events => by
    have hstep : g.step a e = (g, a) := by rw [step, if_pos hstop]
    rw [takeAll, List.foldl_cons]
    dsimp only
    rw [hstep]
    exact takeAll_of_stopped hstop events

theorem transport_send_of_closed {l : Link σ} (hl : l.transport.isOpen = false) (m : Outbound) :
    (l.send m).transport = l.transport := by
  rw [Link.transport_send, Network.Transport.send_of_closed hl]

/-- Running again does nothing, or only says on the closed channel what is missing. -/
theorem run_of_stopped {τ : Type} {g : Engine σ τ} (hstop : g.stopped = true)
    (hclosed : g.link.transport.isOpen = false) (a : τ) (events : List Event) :
    ∃ l, (g.run a events).2.1 = { g with link := l } ∧ l.transport = g.link.transport
      ∧ l.timers = g.link.timers := by
  rcases hmissing : g.handlers.missing with _ | ⟨name, names⟩
  · have hbegin : g.begin a = (.ok (), g, a) := by
      unfold begin
      rw [hmissing]
      dsimp only
      rw [if_pos hstop]
    refine ⟨g.link, ?_, rfl, rfl⟩
    rw [run, hbegin]
    dsimp only
    rw [takeAll_of_stopped hstop]
  · unfold run begin
    rw [hmissing]
    exact ⟨_, rfl, transport_send_of_closed hclosed _, Link.timers_send⟩

/-- A session that is over stays so, and neither its channel nor its timers change any more. -/
theorem over_late (hs : s.Over) (x : Late) :
    (s.late x).Over ∧ (s.late x).engine.link.transport = s.engine.link.transport
      ∧ (s.late x).engine.link.timers = s.engine.link.timers := by
  have hkept : ∀ s' : Session σ, s'.engine.stopped = true →
      s'.engine.link.transport = s.engine.link.transport →
      s'.engine.link.timers = s.engine.link.timers →
      s'.Over ∧ s'.engine.link.transport = s.engine.link.transport
        ∧ s'.engine.link.timers = s.engine.link.timers := fun s' hstop htransport htimers =>
    ⟨⟨hstop, by rw [htransport, hs.closed]⟩, htransport, htimers⟩
  cases x with
  | run events =>
    obtain ⟨l, hrun, htransport, htimers⟩ :=
      run_of_stopped hs.stopped hs.closed s.interpreter events
    refine hkept _ ?_ ?_ ?_
    all_goals rw [Session.late, hrun]
    · exact hs.stopped
    · exact htransport
    · exact htimers
  | stop =>
    have hstop : s.engine.stop = s.engine := by rw [stop, if_pos hs.stopped]
    refine hkept _ ?_ ?_ ?_
    all_goals rw [Session.late, hstop]
    exact hs.stopped
  | send m => exact hkept _ hs.stopped (transport_send_of_closed hs.closed m) Link.timers_send
  | sendError text =>
    exact hkept _ hs.stopped (transport_send_of_closed hs.closed (.error text))
      Link.timers_sendError
  | notify n =>
    refine hkept _ hs.stopped ?_ Link.timers_notify
    exact Link.transport_notify.trans (by rw [Network.Transport.send_of_closed hs.closed])

theorem over_lates : ∀ (xs : List Late) {s : Session σ}, s.Over →
    (xs.foldl Session.late s).engine.link.transport = s.engine.link.transport
      ∧ (xs.foldl Session.late s).engine.link.timers = s.engine.link.timers
  | [], _, _ => ⟨rfl, rfl⟩
  | x :: xs, s, hs => by
    obtain ⟨hover, htransport, htimers⟩ := over_late hs x
    obtain ⟨htransport', htimers'⟩ := over_lates xs hover
    exact ⟨htransport'.trans htransport, htimers'.trans htimers⟩

end Late

/-! ### The start -/

/-- What could be evaluated has begun. -/
theorem exists_ok_of_map {α β : Type} {x : Except Error α} {f : α → β} {b : β}
    (h : x.toOption.map f = some b) : ∃ a, x = .ok a ∧ f a = b := by
  rcases x with err | a
  · cases h
  · exact ⟨a, rfl, Option.some.inj h⟩

section Start

variable {fits : ByteArray → Bool} {sent : σ → List ByteArray} {d : Definition} {e : Evaluator}
  {access : Access σ} {settings : Settings} {r : Except Error Unit} {s : Session σ}

theorem reports_connect {g : Engine σ Interpreter} (hσ : Prompt fits sent)
    (hfresh : ∀ address isV4 socket, access.bind address = .ok (isV4, socket) → sent socket = [])
    (hg : connect access settings = .ok g) :
    g.link.Reports sent [(Outbound.ready settings.name).encode] := by
  obtain ⟨hlive, -, address, isV4, socket, hbind, htold⟩ := told_connect hσ hg
  rw [hfresh address isV4 socket hbind] at htold
  exact ⟨hlive, [], htold, List.forall_mem_nil _⟩

theorem framed_begin (hσ : Prompt fits sent) (hfits : fits Outbound.terminating.encode = true)
    (hfresh : ∀ address isV4 socket, access.bind address = .ok (isV4, socket) → sent socket = [])
    (hbegin : Session.begin access settings (.ofDefinition d e) = .ok (r, s)) :
    s.Framed sent settings.name := by
  obtain ⟨g, hg, ⟨err, -, -, rfl⟩ | ⟨-, -, rfl⟩⟩ := session_begin_cases hbegin
  · have hreports := reports_sendError hσ (reports_connect hσ hfresh hg) err.report
    obtain ⟨ds, htold, hds⟩ := hreports.told
    refine ⟨ds, ?_, hds⟩
    have htells := tells_stop hσ hfits (m := .ofDefinition d e)
      (g := { g with handlers := interpreterHandlers, link := g.link.sendError err.report })
      hreports.live (connect_ok hg).1
    rwa [htold] at htells
  · have hreports := reports_serve hσ (.ofDefinition d e) (reports_connect hσ hfresh hg)
      (.perform .start)
    exact framed_proceed hσ hfits (g := { g with handlers := interpreterHandlers }) hreports
      (connect_ok hg).1 false

end Start

/-! ### Runs -/

section Runs

variable {fits : ByteArray → Bool} {sent : σ → List ByteArray} {d : Definition} {s : Session σ}
  {name : String} {calls : List (Call × List ByteArray)}

/-- What holds between two happenings of a session that was started and has made these calls. -/
structure Shaped (sent : σ → List ByteArray) (d : Definition) (name : String) (s : Session σ)
    (calls : List (Call × List ByteArray)) : Prop where
  valid : s.Valid d
  framed : s.Framed sent name
  orderly : Orderly s.engine.stopped calls
  terminating : s.engine.stopped = true → s.interpreter.isTerminating = true

theorem shaped_run (hσ : Prompt fits sent) (hfits : fits Outbound.terminating.encode = true) :
    ∀ (happenings : List Happening) {s : Session σ} {calls : List (Call × List ByteArray)},
      Shaped sent d name s calls → ∃ calls',
        happenings.foldl Watch.take (.ofSession (Link.told sent) s calls)
            = .ofSession (Link.told sent) (happenings.foldl Session.take s) calls'
          ∧ Shaped sent d name (happenings.foldl Session.take s) calls'
  | [], _, calls, hs => ⟨calls, rfl, hs⟩
  | x :: rest, s, calls, hs => by
    have hwatch := watches_take (Link.told sent) calls
      (fun hstop => (hs.valid.working hstop).1) x
    rw [List.foldl_cons, List.foldl_cons, hwatch]
    exact shaped_run hσ hfits rest
      { valid := valid_take hs.valid x
        framed := framed_take hσ hfits hs.valid hs.framed x
        orderly := orderly_take hσ hfits hs.valid hs.framed hs.orderly x
        terminating := isTerminating_take hs.valid x hs.terminating }

theorem framed_run (hσ : Prompt fits sent) (hfits : fits Outbound.terminating.encode = true) :
    ∀ (happenings : List Happening) {s : Session σ}, s.Valid d → s.Framed sent name →
      (happenings.foldl Session.take s).Framed sent name
  | [], _, _, hs => hs
  | x :: rest, _, hv, hs =>
    framed_run hσ hfits rest (valid_take hv x) (framed_take hσ hfits hv hs x)

/-- Once stopped, a session makes no more calls and stays stopped. -/
theorem stopped_run {κ : Type} (look : Link σ → κ) (calls : List (Call × κ)) :
    ∀ (happenings : List Happening) {s : Session σ}, s.engine.stopped = true →
      happenings.foldl Watch.take (.ofSession look s calls)
          = .ofSession look (happenings.foldl Session.take s) calls
        ∧ (happenings.foldl Session.take s).engine.stopped = true
  | [], _, hstop => ⟨rfl, hstop⟩
  | x :: rest, s, hstop => by
    have hcalls : s.callsAt look x = [] := by
      cases x with
      | event e => rw [Session.callsAt, Session.callsOf, if_pos hstop]
      | drift => rfl
    have hwatch := watches_take look calls
      (fun hrun => absurd (hrun.symm.trans hstop) Bool.false_ne_true) x
    rw [hcalls, List.append_nil] at hwatch
    rw [List.foldl_cons, List.foldl_cons, hwatch]
    exact stopped_run look calls rest (stays_stopped hstop x)

/-- A session that could start is in shape from its start on. -/
theorem shaped_begin {access : Access σ} {settings : Settings} {e : Evaluator}
    (hσ : Prompt fits sent) (hfits : fits Outbound.terminating.encode = true)
    (hfresh : ∀ address isV4 socket, access.bind address = .ok (isV4, socket) → sent socket = [])
    (hbegin : Session.begin access settings (.ofDefinition d e) = .ok (.ok (), s)) :
    ∃ calls, Watch.begin (Link.told sent) access settings (.ofDefinition d e)
        = .ok (.ok (), .ofSession (Link.told sent) s calls)
      ∧ Shaped sent d settings.name s calls := by
  have hvalid := valid_begin hbegin
  have hframed := framed_begin hσ hfits hfresh hbegin
  obtain ⟨g, hg, ⟨err, -, hr, -⟩ | ⟨hs, -, rfl⟩⟩ := session_begin_cases hbegin
  · cases hr
  · obtain ⟨state, hs⟩ := Option.ne_none_iff_exists'.1 hs
    have hreports := reports_serve hσ (.ofDefinition d e) (reports_connect hσ hfresh hg)
      (.perform .start)
    have hagrees := agrees_start (e := e) (g := g) (by rw [(connect_ok hg).2]) hs
    refine ⟨_, watch_begin_of_some hg hs, hvalid, hframed, ?_, fun hstopped => ?_⟩
    · exact orderly_proceed hσ hfits (g := { g with handlers := interpreterHandlers }) hreports
        (connect_ok hg).1 false (List.forall_mem_nil _)
    · simp only [Session.proceed] at hstopped ⊢
      split_ifs at hstopped ⊢
      · exact isTerminating_ended hagrees.running_ne_none
      · exact absurd ((connect_ok hg).1.symm.trans hstopped) Bool.false_ne_true

/-- A session has the same run under watch.  If it could not start it has stopped without a call,
and else it is in shape. -/
theorem watch_run {access : Access σ} {settings : Settings} {e : Evaluator}
    {r : Except Error Unit} (hσ : Prompt fits sent)
    (hfits : fits Outbound.terminating.encode = true)
    (hfresh : ∀ address isV4 socket, access.bind address = .ok (isV4, socket) → sent socket = [])
    (hbegin : Session.begin access settings (.ofDefinition d e) = .ok (r, s)) :
    ∃ w, Watch.begin (Link.told sent) access settings (.ofDefinition d e) = .ok (r, w)
      ∧ ∀ happenings : List Happening, ∃ calls,
        happenings.foldl Watch.take w
            = .ofSession (Link.told sent) (happenings.foldl Session.take s) calls
          ∧ (∀ err, r = .error err →
            (happenings.foldl Session.take s).engine.stopped = true ∧ calls = [])
          ∧ (r = .ok () → Shaped sent d settings.name (happenings.foldl Session.take s) calls) := by
  rcases r with err | _
  · have hstop : s.engine.stopped = true ∧ d.initial = none := by
      obtain ⟨g, hg, ⟨err, hs, -, rfl⟩ | ⟨-, hr, -⟩⟩ := session_begin_cases hbegin
      · have hstop := (connect_ok hg).1
        exact ⟨(stop_of_not_stopped (g := { g with
          handlers := interpreterHandlers, link := g.link.sendError err.report }) hstop).1, hs⟩
      · cases hr
    refine ⟨_, watch_begin_of_none hstop.2 hbegin, fun happenings => ?_⟩
    obtain ⟨hwatch, hstopped⟩ := stopped_run (Link.told sent) [] happenings hstop.1
    exact ⟨[], hwatch, fun _ _ => ⟨hstopped, rfl⟩, fun hr => by cases hr⟩
  · obtain ⟨calls, hw, hshaped⟩ := shaped_begin hσ hfits hfresh hbegin
    refine ⟨_, hw, fun happenings => ?_⟩
    obtain ⟨calls', hwatch, hshaped'⟩ := shaped_run hσ hfits happenings hshaped
    exact ⟨calls', hwatch, fun _ hr => (by cases hr), fun _ => hshaped'⟩

end Runs

/-- The datagrams of a session that has begun over a socket that takes what is small enough: it is
ready, it reports, and it is terminating.  The watched handlers see the same run: the terminate
handler is called once, last, and before the end is told, unless the automaton could not be
started, when none is called.  After the end there is no timer, and nothing that happens or is done
is told. -/
theorem session_shape {access : Access σ} {settings : Settings} {d : Definition} {e : Evaluator}
    {sent : σ → List ByteArray} {r : Except Error Unit} {s₀ : Session σ}
    (hσ : Prompt (fun x => decide (x.size ≤ Message.maxDatagramSize)) sent)
    (hfresh : ∀ address isV4 socket, access.bind address = .ok (isV4, socket) → sent socket = [])
    (hbegin : Session.begin access settings (.ofDefinition d e) = .ok (r, s₀)) :
    ∃ w₀, Watch.begin (Link.told sent) access settings (.ofDefinition d e) = .ok (r, w₀)
      ∧ ∀ happenings : List Happening,
        let s := happenings.foldl Session.take s₀
        let w := happenings.foldl Watch.take w₀
        (w.engine = s.engine.watched (Link.told sent) ∧ w.automaton.automaton = s.interpreter)
          ∧ (∃ mid, s.engine.link.told sent = (Outbound.ready settings.name).encode :: mid
                ++ (if s.engine.stopped then [Outbound.terminating.encode] else [])
              ∧ ∀ x ∈ mid, Plain x)
          ∧ (∀ err, r = .error err → s.engine.stopped = true ∧ w.calls = [])
          ∧ (r = .ok () →
            (s.engine.stopped = true ↔ s.interpreter.isTerminating = true)
              ∧ (∀ x : Happening, x.Stops → (s.take x).engine.stopped = true)
              ∧ Orderly s.engine.stopped w.calls)
          ∧ (s.engine.stopped = true →
            (∀ id, ¬ s.engine.link.timers.contains id) ∧ s.engine.link.timers.size = 0
              ∧ (∀ x, (w.take x).calls = w.calls ∧ (s.take x).engine.stopped = true)
              ∧ ∀ xs : List Late,
                (xs.foldl Session.late s).engine.link.told sent = s.engine.link.told sent
                  ∧ (xs.foldl Session.late s).engine.link.timers = s.engine.link.timers) := by
  have hfits : decide (Outbound.terminating.encode.size ≤ Message.maxDatagramSize) = true := by
    decide +kernel
  obtain ⟨w₀, hw₀, hrun⟩ := watch_run hσ hfits hfresh hbegin
  refine ⟨w₀, hw₀, fun happenings => ?_⟩
  intro s w
  obtain ⟨calls, hw, hfailed, hshaped⟩ := hrun happenings
  have hcalls : w.calls = calls := congrArg Watch.calls hw
  have hvalid : s.Valid d := valid_run happenings (valid_begin hbegin)
  have hframed : s.Framed sent settings.name := framed_run hσ hfits happenings
    (valid_begin hbegin) (framed_begin hσ hfits hfresh hbegin)
  obtain ⟨ds, ht, hds⟩ := id hframed
  refine ⟨?_, ⟨ds, ht.told, hds⟩, fun err hr => ?_, fun hr => ⟨⟨(hshaped hr).terminating, ?_⟩,
    fun x hx => stopped_take hσ hfits hvalid hframed hx, ?_⟩, fun hstop => ⟨?_, ?_, fun x => ?_,
    fun xs => ?_⟩⟩
  · exact ⟨congrArg Watch.engine hw, congrArg (fun w => w.automaton.automaton) hw⟩
  · rw [hcalls]
    exact hfailed err hr
  · intro hterm
    rcases hstop : s.engine.stopped with _ | _
    swap
    · rfl
    obtain ⟨-, -, a, hm, hend, -⟩ := hvalid.working hstop
    rw [Interpreter.isTerminating, hm] at hterm
    exact absurd hterm hend
  · rw [hcalls]
    exact (hshaped hr).orderly
  · exact (hvalid.quiet hstop).empty
  · exact Timer.Arena.size_eq_length List.nodup_nil fun id =>
      iff_of_false ((hvalid.quiet hstop).empty id) List.not_mem_nil
  · obtain ⟨hwatch, hstop'⟩ := stopped_run (Link.told sent) calls [x] hstop
    refine ⟨?_, hstop'⟩
    have hw' : w = .ofSession (Link.told sent) s calls := hw
    rw [hcalls, hw']
    exact congrArg Watch.calls hwatch
  · obtain ⟨htransport, htimers⟩ := over_lates xs (s := s) ⟨hstop, ht.closed hstop⟩
    exact ⟨by rw [Link.told, Link.told, htransport], htimers⟩

open CommandLine Message Network in
/-- A failure to receive is reported, and the session goes on until it is asked to end. -/
theorem session_shape_blink : ∃ r,
    ∃ s₀ : Session (Wire fun x => decide (x.size ≤ maxDatagramSize)),
    Session.begin Wire.access {} (.ofDefinition Blink.definition Blink.registry.evaluator)
        = .ok (r, s₀)
      ∧ (let s := [Happening.event (.receiveFailed "connection refused"),
          .event (.datagram (Inbound.ofInput "start" "1").encode),
          .event (.datagram (Inbound.ofCommand .terminate).encode)].foldl Session.take s₀
        (∃ mid, s.engine.link.told Wire.sent
              = (Outbound.ready "statewire").encode :: mid ++ [Outbound.terminating.encode]
            ∧ ∀ x ∈ mid, Plain x)
          ∧ (Outbound.error "RECV_FAILED: receive failed: connection refused").encode
            ∈ s.engine.link.told Wire.sent
          ∧ s.interpreter.isTerminating = true ∧ s.engine.link.timers.size = 0) := by
  let access : Access (Wire fun x => decide (x.size ≤ maxDatagramSize)) := Wire.access
  let happenings := [Happening.event (.receiveFailed "connection refused"),
    .event (.datagram (Inbound.ofInput "start" "1").encode),
    .event (.datagram (Inbound.ofCommand .terminate).encode)]
  let report := (Outbound.error "RECV_FAILED: receive failed: connection refused").encode
  have hrun : ((Session.begin access {}
      (.ofDefinition Blink.definition Blink.registry.evaluator)).toOption.map fun x =>
        let s := happenings.foldl Session.take x.2
        (x.1.isOk, s.engine.stopped,
          decide (∃ x ∈ s.engine.link.told Wire.sent, x.data = report.data)))
        = some (true, true, true) := by
    decide +kernel
  obtain ⟨⟨err | _, s₀⟩, hbegin, hx⟩ := exists_ok_of_map hrun
  all_goals obtain ⟨hr, hx⟩ := Prod.mk.inj hx
  · cases hr
  · obtain ⟨w₀, -, hshape⟩ := session_shape Wire.prompt (fun _ _ _ => Wire.fresh) hbegin
    obtain ⟨-, ⟨mid, htold, hmid⟩, -, hstarted, hended⟩ := hshape happenings
    obtain ⟨hstop, hreport⟩ := Prod.mk.inj hx
    obtain ⟨x, hmem, hdata⟩ := of_decide_eq_true hreport
    obtain rfl : x = report := ByteArray.ext hdata
    rw [hstop] at htold
    exact ⟨_, s₀, hbegin, ⟨mid, htold, hmid⟩, hmem,
      (hstarted rfl).1.1 hstop, (hended hstop).2.1⟩

end RemoteAutomaton.Engine
