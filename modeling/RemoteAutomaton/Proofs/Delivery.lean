import RemoteAutomaton.Network.Transport

/-!
# What becomes of the datagrams

A `Logged` socket keeps a list of what it was offered and what it answered.  Offering a queue to it
ends in one of three ways: the queue is empty, or its first datagram would have to wait, or its
first datagram was rejected and dropped (`offer_offering`).  So the datagrams that were decided on,
followed by those in the queue, stay the datagrams that were handed over (`decided_performAll`), and
whatever the socket answers, none is lost, sent twice or overtaken (`handed_over_kept`).
-/

namespace RemoteAutomaton.Network

variable {σ : Type}

/-! ### What a socket was offered -/

/-- A socket with what it was offered and answered, in order. -/
structure Logged (σ : Type) where
  socket : σ
  offers : List (ByteArray × Answer) := []

instance [Socket σ] : Socket (Logged σ) where
  trySend l d :=
    let (answer, socket) := Socket.trySend l.socket d
    (answer, ⟨socket, l.offers ++ [(d, answer)]⟩)
  isWritable l := Socket.isWritable l.socket
  wait l := ⟨Socket.wait l.socket, l.offers⟩

/-- The datagrams that the socket took. -/
def accepted (offers : List (ByteArray × Answer)) : List ByteArray :=
  offers.filterMap fun
    | (d, .accepted) => some d
    | _ => none

/-- The datagrams that the socket rejected. -/
def rejected (offers : List (ByteArray × Answer)) : List ByteArray :=
  offers.filterMap fun
    | (d, .rejected _) => some d
    | _ => none

/-- The datagrams that were taken or rejected, and whether they were rejected. -/
def decided (offers : List (ByteArray × Answer)) : List (ByteArray × Bool) :=
  offers.filterMap fun
    | (d, .accepted) => some (d, false)
    | (d, .rejected _) => some (d, true)
    | (_, .wouldBlock) => none

theorem decided_append (xs ys : List (ByteArray × Answer)) :
    decided (xs ++ ys) = decided xs ++ decided ys := List.filterMap_append

theorem decided_taken : ∀ ds : List ByteArray,
    (decided (ds.map (·, .accepted))).map (·.1) = ds
  | [] => rfl
  | d :: ds => congrArg (d :: ·) (decided_taken ds)

theorem accepted_eq : ∀ offers : List (ByteArray × Answer),
    accepted offers = ((decided offers).filter (! ·.2)).map (·.1)
  | [] => rfl
  | (d, .accepted) :: offers => congrArg (d :: ·) (accepted_eq offers)
  | (_, .rejected _) :: offers | (_, .wouldBlock) :: offers => accepted_eq offers

theorem rejected_eq : ∀ offers : List (ByteArray × Answer),
    rejected offers = ((decided offers).filter (·.2)).map (·.1)
  | [] => rfl
  | (d, .rejected _) :: offers => congrArg (d :: ·) (rejected_eq offers)
  | (_, .accepted) :: offers | (_, .wouldBlock) :: offers => rejected_eq offers

/-- Datagrams that wait are not rejected. -/
theorem waiting : ∀ ds : List ByteArray, (ds.map (·, false)).map (·.1) = ds
    ∧ (ds.map (·, false)).filter (! ·.2) = ds.map (·, false)
    ∧ (ds.map (·, false)).filter (·.2) = []
  | [] => ⟨rfl, rfl, rfl⟩
  | d :: ds => by
    obtain ⟨hfst, hkept, hnone⟩ := waiting ds
    exact ⟨congrArg (d :: ·) hfst, congrArg ((d, false) :: ·) hkept, hnone⟩

namespace Transport

/-! ### One offer of the queue -/

/-- What offering datagrams to the peer can come to: the result, the offers made and the datagrams
left. -/
inductive Offering (peer : Address) :
    List ByteArray → Except Error Unit → List (ByteArray × Answer) → List ByteArray → Prop
  | emptied (queue : List ByteArray) :
      Offering peer queue (.ok ()) (queue.map (·, .accepted)) []
  | blocked (taken : List ByteArray) (d : ByteArray) (rest : List ByteArray) :
      Offering peer (taken ++ d :: rest) (.ok ()) (taken.map (·, .accepted) ++ [(d, .wouldBlock)])
        (d :: rest)
  | rejected (taken : List ByteArray) (d : ByteArray) (rest : List ByteArray) (reason : String) :
      Offering peer (taken ++ d :: rest) (.error (.send peer.text reason))
        (taken.map (·, .accepted) ++ [(d, .rejected reason)]) rest

namespace Offering

variable {peer : Address} {queue left : List ByteArray} {r : Except Error Unit}
  {offers : List (ByteArray × Answer)}

theorem cons (h : Offering peer queue r offers left) (d : ByteArray) :
    Offering peer (d :: queue) r ((d, .accepted) :: offers) left := by
  cases h with
  | emptied => exact .emptied (d :: queue)
  | blocked taken => exact .blocked (d :: taken) _ _
  | rejected taken => exact .rejected (d :: taken) _ _ _

/-- What was decided on leaves the front of the queue. -/
theorem decided_append_left (h : Offering peer queue r offers left) :
    (decided offers).map (·.1) ++ left = queue := by
  cases h with
  | emptied => rw [decided_taken, List.append_nil]
  | blocked taken d rest | rejected taken d rest reason =>
    rw [decided_append, List.map_append, decided_taken, List.append_assoc]
    rfl

/-- A datagram is rejected exactly if offering fails; it is the last one that is offered, and the
only one that is dropped. -/
theorem of_error (h : Offering peer queue r offers left) :
    ((∃ e, r = .error e) ↔ ∃ d reason, (d, .rejected reason) ∈ offers)
      ∧ ∀ e, r = .error e → ∃ taken d reason, e = .send peer.text reason
        ∧ offers = taken.map (·, .accepted) ++ [(d, .rejected reason)]
        ∧ queue = taken ++ d :: left := by
  cases h with
  | emptied => exact ⟨by simp, fun e he => by cases he⟩
  | blocked => exact ⟨by simp, fun e he => by cases he⟩
  | rejected taken d rest reason =>
    refine ⟨by simp, fun e he => ⟨taken, d, reason, ?_, rfl, rfl⟩⟩
    cases he
    rfl

theorem of_ok (h : Offering peer queue r offers left) (hr : r = .ok ()) :
    left = [] ∨ ∃ d, offers.getLast? = some (d, .wouldBlock) := by
  cases h with
  | emptied => exact .inl rfl
  | blocked taken d => exact .inr ⟨d, List.getLast?_concat⟩
  | rejected => cases hr

end Offering

section Offer

variable [Socket σ]

theorem trySend_logged (l : Logged σ) (d : ByteArray) :
    Socket.trySend l d
      = ((Socket.trySend l.socket d).1,
        ⟨(Socket.trySend l.socket d).2, l.offers ++ [(d, (Socket.trySend l.socket d).1)]⟩) := rfl

theorem offer_offering (peer : Address) : ∀ (queue : List ByteArray) (l : Logged σ),
    ∃ offers, (offer peer l queue).2.1.offers = l.offers ++ offers
      ∧ Offering peer queue (offer peer l queue).1 offers (offer peer l queue).2.2
  | [], l => ⟨[], (List.append_nil _).symm, .emptied []⟩
  | d :: rest, l => by
    rcases hs : Socket.trySend l.socket d with ⟨answer, s⟩
    unfold offer
    rw [trySend_logged, hs]
    cases answer with
    | accepted =>
      obtain ⟨offers, hoffers, h⟩ := offer_offering peer rest ⟨s, l.offers ++ [(d, .accepted)]⟩
      exact ⟨(d, .accepted) :: offers, by simp [hoffers], h.cons d⟩
    | wouldBlock => exact ⟨[(d, .wouldBlock)], rfl, .blocked [] d rest⟩
    | rejected reason => exact ⟨[(d, .rejected reason)], rfl, .rejected [] d rest reason⟩

/-- The log changes nothing. -/
theorem offer_logged (peer : Address) : ∀ (queue : List ByteArray) (l : Logged σ),
    (offer peer l.socket queue)
      = ((offer peer l queue).1, (offer peer l queue).2.1.socket, (offer peer l queue).2.2)
  | [], _ => rfl
  | d :: rest, l => by
    rcases hs : Socket.trySend l.socket d with ⟨answer, s⟩
    unfold offer
    rw [trySend_logged, hs]
    cases answer with
    | accepted => exact offer_logged peer rest ⟨s, l.offers ++ [(d, .accepted)]⟩
    | wouldBlock | rejected => rfl

end Offer

/-! ### Calls -/

/-- What is asked of a channel. -/
inductive Call where
  | send (m : Message.Outbound)
  | flush
  deriving DecidableEq, Repr

/-- The datagrams that a call hands over. -/
def Call.handed : Call → List ByteArray
  | send m => [m.encode]
  | flush => []

def perform [Socket σ] (t : Transport σ) : Call → Except Error Unit × Transport σ
  | .send m => t.send m
  | .flush => t.flush

def performAll [Socket σ] (t : Transport σ) : List Call → Transport σ
  | [] => t
  | c :: calls => performAll (t.perform c).2 calls

/-- The channel over the same socket with an empty log. -/
def logged (t : Transport σ) : Transport (Logged σ) := { t with socket := ⟨t.socket, []⟩ }

/-- The channel without the log of its socket. -/
def plain (w : Transport (Logged σ)) : Transport σ := { w with socket := w.socket.socket }

variable [Socket σ] {w : Transport (Logged σ)}

theorem perform_of_open {t : Transport σ} (ht : t.isOpen = true) (c : Call) :
    t.perform c = ((offer t.peer t.socket (t.queue ++ c.handed)).1,
      { t with socket := (offer t.peer t.socket (t.queue ++ c.handed)).2.1
               queue := (offer t.peer t.socket (t.queue ++ c.handed)).2.2 }) := by
  cases c with
  | send m =>
    rw [perform, send, if_pos ht, flush, if_pos ht]
    rfl
  | flush =>
    rw [perform, flush, if_pos ht, Call.handed, List.append_nil]

theorem perform_keeps (hw : w.isOpen = true) (c : Call) :
    (w.perform c).2.isOpen = true ∧ (w.perform c).2.peer = w.peer := by
  rw [perform_of_open hw]
  exact ⟨hw, rfl⟩

theorem perform_offering (hw : w.isOpen = true) (c : Call) :
    ∃ offers, (w.perform c).2.socket.offers = w.socket.offers ++ offers
      ∧ Offering w.peer (w.queue ++ c.handed) (w.perform c).1 offers (w.perform c).2.queue := by
  rw [perform_of_open hw]
  exact offer_offering w.peer (w.queue ++ c.handed) w.socket

theorem perform_plain (hw : w.isOpen = true) (c : Call) :
    w.plain.perform c = ((w.perform c).1, (w.perform c).2.plain) := by
  have hplain : w.plain.isOpen = true := hw
  rw [perform_of_open hw, perform_of_open hplain]
  simp only [plain]
  rw [offer_logged]

/-- A call decides on datagrams from the front of the queue. -/
theorem decided_perform (hw : w.isOpen = true) (c : Call) :
    (decided (w.perform c).2.socket.offers).map (·.1) ++ (w.perform c).2.queue
      = (decided w.socket.offers).map (·.1) ++ w.queue ++ c.handed := by
  obtain ⟨offers, hoffers, h⟩ := perform_offering hw c
  rw [hoffers, decided_append, List.map_append, List.append_assoc, h.decided_append_left,
    List.append_assoc]

theorem performAll_plain : ∀ (calls : List Call) {w : Transport (Logged σ)}, w.isOpen = true →
    (w.performAll calls).isOpen = true ∧ (w.performAll calls).peer = w.peer
      ∧ (w.performAll calls).plain = w.plain.performAll calls
  | [], w, hw => ⟨hw, rfl, rfl⟩
  | c :: calls, w, hw => by
    obtain ⟨hopen, hpeer⟩ := perform_keeps hw c
    obtain ⟨hopen', hpeer', hplain⟩ := performAll_plain calls hopen
    refine ⟨hopen', hpeer'.trans hpeer, ?_⟩
    rw [performAll, hplain, performAll, perform_plain hw]

theorem decided_performAll : ∀ (calls : List Call) {w : Transport (Logged σ)}, w.isOpen = true →
    (decided (w.performAll calls).socket.offers).map (·.1) ++ (w.performAll calls).queue
      = (decided w.socket.offers).map (·.1) ++ w.queue ++ calls.flatMap Call.handed
  | [], w, hw => (List.append_nil _).symm
  | c :: calls, w, hw => by
    rw [performAll, decided_performAll calls (perform_keeps hw c).1, decided_perform hw,
      List.flatMap_cons, List.append_assoc _ c.handed]

end Transport

open Transport in
/-- Whatever an open channel is asked and whatever its socket answers, every datagram handed over
has one fate: those that were not rejected are, in order, the ones taken and then the ones in the
queue.  A call fails exactly if a datagram was rejected during it, which is then the only one
dropped and the last one offered.  A call that succeeds empties the queue, unless its last offer
would have had to wait. -/
theorem handed_over_kept [Socket σ] (t : Transport σ) (ht : t.isOpen = true) (calls : List Call) :
    let w := t.logged.performAll calls
    w.plain = t.performAll calls
      ∧ (∃ fates : List (ByteArray × Bool),
        fates.map (·.1) = t.queue ++ calls.flatMap Call.handed
          ∧ accepted w.socket.offers ++ w.queue = (fates.filter (! ·.2)).map (·.1)
          ∧ rejected w.socket.offers = (fates.filter (·.2)).map (·.1))
      ∧ ∀ c : Call, ∃ r w' offers, w.perform c = (r, w')
        ∧ w.plain.perform c = (r, w'.plain)
        ∧ w'.socket.offers = w.socket.offers ++ offers
        ∧ ((∃ e, r = .error e) ↔ ∃ d reason, (d, .rejected reason) ∈ offers)
        ∧ (∀ e, r = .error e → ∃ taken d reason, e = .send t.peer.text reason
          ∧ offers = taken.map (·, .accepted) ++ [(d, .rejected reason)]
          ∧ w.queue ++ c.handed = taken ++ d :: w'.queue)
        ∧ (r = .ok () → w'.queue = [] ∨ ∃ d, offers.getLast? = some (d, .wouldBlock)) := by
  intro w
  obtain ⟨hopen, hpeer, hplain⟩ := performAll_plain calls (w := t.logged) ht
  refine ⟨hplain, ⟨decided w.socket.offers ++ w.queue.map (·, false), ?_, ?_, ?_⟩, fun c => ?_⟩
  · rw [List.map_append, (waiting w.queue).1]
    exact decided_performAll calls (w := t.logged) ht
  · rw [accepted_eq, List.filter_append, List.map_append, (waiting w.queue).2.1,
      (waiting w.queue).1]
  · rw [rejected_eq, List.filter_append, (waiting w.queue).2.2, List.append_nil]
  · obtain ⟨offers, hoffers, h⟩ := perform_offering hopen c
    obtain ⟨hrejected, hlast⟩ := h.of_error
    rw [hpeer] at hlast
    exact ⟨(w.perform c).1, (w.perform c).2, offers, rfl, perform_plain hopen c, hoffers, hrejected,
      hlast, h.of_ok⟩

/-- A socket that gives the answers of a list, and then takes everything. -/
structure Script where
  answers : List Answer

instance : Socket Script where
  trySend s _ := (s.answers.headD .accepted, ⟨s.answers.tail⟩)
  isWritable _ := true
  wait := id

/-- A datagram that had to wait is rejected while the next one is sent.  The call fails, and the
next one stays in the queue until it is taken. -/
theorem handed_over_kept_led :
    let t : Transport Script :=
      { socket := ⟨[.wouldBlock, .rejected "full"]⟩, peer := ⟨.v4 127 0 0 1, 0, 7000⟩ }
    let idle := Message.Outbound.state "Idle"
    let led := Message.Outbound.output "led" "1"
    let w := t.logged.performAll [.send idle]
    let w' := t.logged.performAll [.send idle, .send led]
    t.isOpen = true
      ∧ (∃ taken d reason, (w.perform (.send led)).1 = .error (.send t.peer.text reason)
        ∧ [idle.encode, led.encode] = taken ++ d :: w'.queue)
      ∧ accepted w'.socket.offers ++ w'.queue = [led.encode]
      ∧ (w'.perform .flush).1 = .ok () ∧ (w'.perform .flush).2.queue = [] := by
  intro t idle led w w'
  have hfails : (w.perform (.send led)).1 = .error (.send t.peer.text "full") := rfl
  have hflush : (w'.perform .flush).1 = .ok () := rfl
  refine ⟨rfl, ?_, by decide +kernel, hflush, ?_⟩
  · obtain ⟨-, -, hcall⟩ := handed_over_kept t rfl [.send idle]
    obtain ⟨r, v, offers, hv, -, -, -, hlast, -⟩ := hcall (.send led)
    obtain ⟨taken, d, reason, he, -, hwaiting⟩ := hlast _ ((congrArg (·.1) hv).symm.trans hfails)
    have hv' : w' = v := congrArg (·.2) hv
    exact ⟨taken, d, reason, hfails.trans (congrArg _ he), hv' ▸ hwaiting⟩
  · obtain ⟨-, -, hcall⟩ := handed_over_kept t rfl [.send idle, .send led]
    obtain ⟨r, v, offers, hv, -, hoffers, -, -, hok⟩ := hcall .flush
    have htaken : (w'.perform .flush).2.socket.offers.getLast? = some (led.encode, .accepted) := by
      decide +kernel
    have hv' : (w'.perform .flush).2 = v := congrArg (·.2) hv
    rw [hv'] at htaken ⊢
    refine (hok ((congrArg (·.1) hv).symm.trans hflush)).resolve_right fun ⟨d, hd⟩ => ?_
    rw [hoffers, List.getLast?_append, hd] at htaken
    cases htaken

end RemoteAutomaton.Network
