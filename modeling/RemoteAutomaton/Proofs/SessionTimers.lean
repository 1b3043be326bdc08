import Mathlib.Data.List.Basic
import RemoteAutomaton.CommandLine.Blink
import RemoteAutomaton.Proofs.LinkTimers
import RemoteAutomaton.Proofs.Request

/-!
# The timers of a session

An engine and its interpreter keep books of the same timers and change them at different moments: an
expiry leaves the arena before the interpreter hears of it.  Between two events the books agree
(`Agrees`), and once the engine has stopped both are empty (`Quiet`).  Every event keeps this
(`valid_step`).

Timers expire when their surroundings say so, so the queue of a schedule may change in any way
between two events (`Happening`).
-/

namespace RemoteAutomaton.Engine

open Automaton (Evaluator Host Interpreter Operation Outcome Running TimerId)
open Machine (Definition)
open Network (Access Socket)
open Timer (Arena Expired Sleeper)

/-! ### Automata and links that agree -/

section Agreement

variable {σ : Type} {d : Definition} {m : Interpreter} {l : Link σ}

/-- An arena holds the pending timers of an automaton that has not been terminated, and they are
placed in its current state. -/
structure Agreeing (d : Definition) (a : Running) (arena : Arena) : Prop where
  alive : a.alive
  placed : a.Placed d
  holds : Holds d arena a.timers

/-- An interpreter takes events, and an arena holds its pending timers. -/
def Working (d : Definition) (m : Interpreter) (arena : Arena) : Prop :=
  m.definition = d ∧ ∃ a, m.running = some a ∧ ¬ a.terminating ∧ Agreeing d a arena

/-- An interpreter agrees with its link, which knows if the automaton has asked for its end. -/
def Agrees (d : Definition) (m : Interpreter) (l : Link σ) : Prop :=
  m.definition = d ∧ ∃ a, m.running = some a ∧ (a.terminating → l.stopRequested)
    ∧ Agreeing d a l.timers.arena

/-- Nothing is outstanding and nothing is pending. -/
structure Quiet (m : Interpreter) (arena : Arena) : Prop where
  empty : ∀ id, ¬ arena.contains id
  pending : m.pendingTimers = []

theorem Working.agrees {arena : Arena} (h : Working d m arena) (hl : l.timers.arena = arena) :
    Agrees d m l := by
  obtain ⟨hd, a, hm, hend, ha⟩ := h
  exact ⟨hd, a, hm, fun hend' => absurd hend' hend, ha.alive, ha.placed, hl ▸ ha.holds⟩

theorem Agrees.working (h : Agrees d m l) (hl : l.stopRequested = false) :
    Working d m l.timers.arena := by
  obtain ⟨hd, a, hm, hend, ha⟩ := h
  refine ⟨hd, a, hm, fun hend' => ?_, ha⟩
  rw [hend hend'] at hl
  cases hl

/-- A timer that expires is pending, for a delayed transition of the current state that leads to the
state the timer was asked for. -/
theorem Working.next {x : Expired} {timers : Timer.Schedule} (h : Working d m l.timers.arena)
    (hx : l.timers.next = (some x, timers)) :
    ∃ a p t, m.running = some a ∧ a.Active ∧ a.timers.find? (·.id = x.id) = some p
      ∧ p.transition ∈ d.delayedFrom a.current ∧ d.transitions[p.transition]? = some t
      ∧ x.target = t.target ∧ Holds d timers.arena (a.release x.id).timers := by
  obtain ⟨-, a, hm, hend, ha⟩ := h
  rcases hc : Timer.Schedule.claim l.timers.arena l.timers.due with ⟨r, arena, due⟩
  rw [Timer.Schedule.next, hc] at hx
  cases hx
  obtain ⟨e, ht, htarget, -, -, -⟩ := Timer.claim_some hc
  have he := (Arena.take_eq_some.1 ht).1
  have hmem := (ha.holds.contains_iff x.id).1 (Arena.contains_iff.2 ⟨e, he⟩)
  obtain ⟨q, hq, hqid⟩ := List.mem_map.1 hmem
  obtain ⟨p, hp⟩ : ∃ p, a.timers.find? (·.id = x.id) = some p := by
    refine Option.isSome_iff_exists.1 (List.find?_isSome.2 ⟨q, hq, by simpa using hqid⟩)
  have hpid : p.id = x.id := by simpa using List.find?_some hp
  have hpmem : p ∈ a.timers := List.mem_of_find?_eq_some hp
  obtain ⟨t, deadline, htr, hentry⟩ := ha.holds.entry p hpmem
  rw [hpid, he] at hentry
  cases hentry
  exact ⟨a, p, t, hm, ⟨ha.alive, hend⟩, hp, ha.placed.mem hpmem, htr, htarget, ha.holds.take ht⟩

end Agreement

variable {σ : Type} [Socket σ]

/-! ### Operations -/

section Operations

variable {d : Definition} {m : Interpreter} {l : Link σ}

theorem stable_agreeing (d : Definition) (e : Evaluator) :
    Running.Stable d e fun a (l : Link σ) => Agreeing d a l.timers.arena where
  guardFailed g m ha :=
    ⟨ha.alive, ha.placed, (books_holds d).stable.guardFailed (e := e) g m ha.holds⟩
  enter ht ha :=
    ⟨Running.alive_enter.trans ha.alive, Running.placed_enter,
      (books_holds d).stable.enter ht ha.holds⟩

theorem Agreeing.prepare {a : Running} {op : Operation}
    (halive : a.alive) (hplaced : a.Placed d) (hop : op ≠ .terminate)
    (hkept : Holds d l.timers.arena (op.kept a)) :
    Agreeing d (op.prepare d a l).1 (op.prepare d a l).2.timers.arena where
  alive := by
    cases op with
    | start | step | moveTo | input | report => exact halive
    | fire id =>
      simp only [Operation.prepare]
      split <;> exact halive
    | terminate => exact absurd rfl hop
  placed := hplaced.prepare
  holds := (books_holds d).prepare op hkept

theorem timers_surface {α : Type} {o : Outcome (Link σ) α} :
    (surface o).2.timers = o.host.timers := by
  obtain ⟨err | x, m, l⟩ := o
  all_goals
    simp only [surface]
    split
  · exact Link.timers_sendError
  · exact Link.timers_sendError
  · rfl
  · rfl

/-- An operation that is reported leaves interpreter and link in agreement. -/
theorem agrees_surface {α : Type} {o : Outcome (Link σ) α} {a : Running}
    (hd : o.interpreter.definition = d) (hm : o.interpreter.running = some a)
    (ha : Agreeing d a o.host.timers.arena) : Agrees d (surface o).1 (surface o).2 := by
  refine ⟨hd, a, hm, fun hend => ?_, by rwa [timers_surface]⟩
  have hterm : o.interpreter.isTerminating = true := by rwa [Interpreter.isTerminating, hm]
  simp only [surface, hterm]
  rfl

theorem agrees_perform {a : Running} {op : Operation} (hd : m.definition = d)
    (hm : m.running = some a) (halive : a.alive) (hplaced : a.Placed d) (hop : op ≠ .terminate)
    (hkept : Holds d l.timers.arena (op.kept a)) :
    Agrees d (surface (m.perform l op)).1 (surface (m.perform l op)).2 := by
  subst hd
  obtain ⟨a', hrun, ha'⟩ := Interpreter.stable_perform (stable_agreeing m.definition m.evaluator)
    hm (Agreeing.prepare halive hplaced hop hkept)
  exact agrees_surface Interpreter.definition_perform hrun ha'

end Operations

/-! ### Events -/

section Events

variable {d : Definition} {g : Engine σ Interpreter} {m : Interpreter}

omit [Socket σ] in
theorem arena_next (hx : g.link.timers.next.1 = none) :
    g.link.timers.next.2.arena = g.link.timers.arena := by
  rcases hc : Timer.Schedule.claim g.link.timers.arena g.link.timers.due with ⟨r, arena, due⟩
  simp only [Timer.Schedule.next, hc] at hx ⊢
  subst hx
  exact (Timer.claim_none hc).1

/-- The timers once an event has been taken note of. -/
def Event.advance (timers : Timer.Schedule) : Event → Timer.Schedule
  | .elapsed ms => timers.elapse ms
  | .expiry => timers.next.2
  | _ => timers

theorem timers_heed {τ : Type} (g : Engine σ τ) (e : Event) :
    (g.heed e).timers = e.advance g.link.timers := by
  cases e with
  | shutdown | signal | elapsed | expiry | datagram | receiveFailed => rfl
  | writable => exact Link.timers_flush
  | waitFailed => exact Link.timers_waitFailed

/-- An event that asks for no operation leaves the outstanding timers alone. -/
theorem arena_heed {e : Event} (hreq : ∀ op, g.request e ≠ .perform op) :
    (g.heed e).timers.arena = g.link.timers.arena := by
  rw [timers_heed]
  cases e with
  | shutdown | signal | writable | waitFailed | elapsed | datagram | receiveFailed => rfl
  | expiry =>
    refine arena_next ?_
    rcases hx : g.link.timers.next.1 with _ | x
    · rfl
    · exact absurd (by rw [request, hx]) (hreq (.fire x.id))

/-- What an event asks for is done in agreement.  A timer that is handed out has been dropped by the
arena already, and firing it makes the interpreter follow. -/
theorem agrees_serve (h : Working d m g.link.timers.arena) (e : Event) :
    Agrees d ((g.request e).serve m (g.heed e)).1 ((g.request e).serve m (g.heed e)).2 := by
  have hidle : (∀ op, g.request e ≠ .perform op) → Agrees d m (g.heed e) := fun hreq =>
    h.agrees (arena_heed hreq)
  rcases hreq : g.request e with op | text | _ | _
  · obtain ⟨hd, a, hm, hend, ha⟩ := id h
    rcases request_eq_perform hreq with ⟨hl, ⟨name, value, rfl⟩ | rfl⟩ | ⟨x, timers, hx, rfl, hl⟩
    · exact agrees_perform hd hm ha.alive ha.placed (by simp) (hl ▸ ha.holds)
    · exact agrees_perform hd hm ha.alive ha.placed (by simp) (hl ▸ ha.holds)
    · obtain ⟨b, p, t, hb, hact, -, -, -, -, hholds⟩ := h.next hx
      rw [hm] at hb
      cases hb
      refine agrees_perform hd hm ha.alive ha.placed (by simp) ?_
      rw [hl]
      simp only [Operation.kept, if_pos hact]
      exact hholds
  · exact h.agrees (l := (g.heed e).sendError text) <| (congrArg _ Link.timers_sendError).trans <|
      arena_heed fun op hop => by rw [hreq] at hop; cases hop
  · exact hidle fun op hop => by rw [hreq] at hop; cases hop
  · exact hidle fun op hop => by rw [hreq] at hop; cases hop

theorem timers_stop (hstop : g.stopped = false) :
    g.stop.link.timers = (g.link.timers.cancelAll).2 := by
  rw [stop, if_neg (Bool.eq_false_iff.1 hstop)]
  change (drainQueue ((g.link.send .terminating).cancelAll).2).timers = _
  rw [timers_drainQueue]
  change ((g.link.send .terminating).timers.cancelAll).2 = _
  rw [Link.timers_send]

theorem stop_of_not_stopped (hstop : g.stopped = false) :
    g.stop.stopped = true ∧ ∀ id, ¬ g.stop.link.timers.contains id := by
  refine ⟨by rw [stop, if_neg (Bool.eq_false_iff.1 hstop)], fun id => ?_⟩
  rw [timers_stop hstop, Timer.Schedule.contains, Arena.contains]
  change ¬ (g.link.timers.arena.clear.entry? id).isSome
  rw [Arena.entry_clear]
  exact Bool.false_ne_true

/-- A session that ends leaves nothing behind, whatever was outstanding. -/
theorem quiet_ended {l : Link σ} (hstop : g.stopped = false) (hm : m.running ≠ none) :
    (Session.ended g m l).engine.stopped = true
      ∧ Quiet (Session.ended g m l).interpreter
        (Session.ended g m l).engine.link.timers.arena := by
  obtain ⟨a, ha⟩ := Option.ne_none_iff_exists'.1 hm
  obtain ⟨hstopped, hempty⟩ := stop_of_not_stopped (g := g.drained (m.terminate l).2) hstop
  refine ⟨hstopped, hempty, ?_⟩
  simp only [Session.ended, Interpreter.terminate, ha]
  rfl

/-- What holds of a session between two events. -/
structure Session.Valid (d : Definition) (s : Session σ) : Prop where
  quiet : s.engine.stopped = true → Quiet s.interpreter s.engine.link.timers.arena
  working : s.engine.stopped = false → s.engine.handlers = interpreterHandlers
    ∧ Working d s.interpreter s.engine.link.timers.arena

omit [Socket σ] in
theorem Agrees.running_ne_none {l : Link σ} (h : Agrees d m l) : m.running ≠ none := by
  obtain ⟨-, a, ha, -⟩ := h
  rw [ha]
  exact Option.some_ne_none a

/-- An engine that has agreed with its interpreter goes on in agreement or ends. -/
theorem valid_proceed {l : Link σ} (hg : g.handlers = interpreterHandlers)
    (hstop : g.stopped = false) (h : Agrees d m l) (stops : Bool) :
    (Session.proceed g m l stops).Valid d := by
  unfold Session.proceed
  split_ifs with hends
  · obtain ⟨hstopped, hquiet⟩ := quiet_ended (l := (g.drained l).link) hstop h.running_ne_none
    refine ⟨fun _ => hquiet, fun hno => ?_⟩
    rw [hstopped] at hno
    cases hno
  · refine ⟨fun hyes => ?_, fun _ => ⟨hg, h.working ?_⟩⟩
    · exact absurd (hstop.symm.trans hyes) Bool.false_ne_true
    · exact Bool.eq_false_iff.2 fun hl => hends (by rw [hl, Bool.or_true])

theorem valid_step {s : Session σ} (hs : s.Valid d) (e : Event) : (s.step e).Valid d := by
  rcases hstop : s.engine.stopped with _ | _
  · obtain ⟨hg, hw⟩ := hs.working hstop
    rw [step_eq hg hstop]
    exact valid_proceed hg hstop (agrees_serve hw e) _
  · rwa [step_of_stopped hstop]

end Events

/-! ### The start -/

section Start

variable {d : Definition} {e : Evaluator} {g : Engine σ Interpreter}

theorem agreeing_start (ht : g.link.timers.arena = {}) {s : String} (hs : d.initial = some s) :
    ∃ a, ((Interpreter.ofDefinition d e).start g.link).interpreter.running = some a
      ∧ Agreeing d a ((Interpreter.ofDefinition d e).start g.link).host.timers.arena := by
  have hempty : Holds d g.link.timers.arena (Running.initially d s).timers := by
    rw [ht]
    exact holds_empty
  have hinit : Agreeing d (Running.initially d s) g.link.timers.arena :=
    ⟨rfl, List.nil_sublist _, hempty⟩
  exact Interpreter.stable_start (m := .ofDefinition d e) (stable_agreeing d e) rfl hs
    ((stable_agreeing d e).enter (d.initial_mem s hs) hinit)

theorem agrees_start (ht : g.link.timers.arena = {}) {s : String} (hs : d.initial = some s) :
    let r := (Request.perform .start).serve (.ofDefinition d e) g.link
    Agrees d r.1 r.2 := by
  obtain ⟨a, hm, ha⟩ := agreeing_start (e := e) ht hs
  exact agrees_surface (o := (Interpreter.ofDefinition d e).perform g.link .start)
    Interpreter.definition_perform hm ha

/-- A session begins in agreement, or has stopped. -/
theorem valid_begin {access : Access σ} {settings : Settings} {r : Except Error Unit}
    {s : Session σ} (h : Session.begin access settings (.ofDefinition d e) = .ok (r, s)) :
    s.Valid d := by
  obtain ⟨g, hg, ⟨err, -, -, rfl⟩ | ⟨hs, -, rfl⟩⟩ := session_begin_cases h
  · obtain ⟨hstopped, hempty⟩ := stop_of_not_stopped (g := { g with
      handlers := interpreterHandlers, link := g.link.sendError err.report }) (connect_ok hg).1
    exact ⟨fun _ => ⟨hempty, rfl⟩, fun h => by rw [hstopped] at h; cases h⟩
  · obtain ⟨state, hs⟩ := Option.ne_none_iff_exists'.1 hs
    exact valid_proceed (g := { g with handlers := interpreterHandlers }) rfl (connect_ok hg).1
      (agrees_start (by rw [(connect_ok hg).2]) hs) false

end Start

/-! ### Runs -/

/-- An event of the engine, or a change of time and of the timers that sleep and are queued. -/
inductive Happening where
  | event (e : Event)
  | drift (now : Nat) (asleep : List Sleeper) (due : List TimerId)

def Session.take (s : Session σ) : Happening → Session σ
  | .event e => s.step e
  | .drift now asleep due =>
    let timers := { s.engine.link.timers with now, asleep, due }
    { s with engine := { s.engine with link := { s.engine.link with timers } } }

theorem valid_take {d : Definition} {s : Session σ} (hs : s.Valid d) (x : Happening) :
    (s.take x).Valid d := by
  cases x with
  | event e => exact valid_step hs e
  | drift now asleep due => exact ⟨hs.quiet, hs.working⟩

theorem stays_stopped {s : Session σ} (hstop : s.engine.stopped = true) (x : Happening) :
    (s.take x).engine.stopped = true := by
  cases x with
  | event e => rwa [Session.take, step_of_stopped hstop]
  | drift => exact hstop

theorem valid_run {d : Definition} : ∀ (happenings : List Happening) {s : Session σ},
    s.Valid d → Session.Valid d (happenings.foldl Session.take s)
  | [], _, hs => hs
  | x :: rest, _, hs => valid_run rest (valid_take hs x)

/-- Between two events of a session that was begun with a fresh interpreter, the outstanding timers
of the engine are the pending ones of the interpreter.  The timer that the engine hands out next is
pending, for a delayed transition of the current state that leads to the target handed out, so
firing it never misses.  A session that has stopped has no timers on either side. -/
theorem session_timers_agree {access : Access σ} {settings : Settings} {d : Definition}
    {e : Evaluator} {r : Except Error Unit} {s₀ : Session σ} (happenings : List Happening)
    (hbegin : Session.begin access settings (.ofDefinition d e) = .ok (r, s₀)) :
    let s := happenings.foldl Session.take s₀
    let timers := s.engine.link.timers
    (s.engine.stopped = true →
        (∀ id, ¬ timers.contains id) ∧ timers.size = 0 ∧ s.interpreter.pendingTimers = [])
      ∧ (s.engine.stopped = false →
        (∀ id, timers.contains id ↔ id ∈ s.interpreter.pendingTimers)
          ∧ timers.size = s.interpreter.pendingTimers.length
          ∧ ∀ x timers', timers.next = (some x, timers') →
            s.engine.dispatch s.interpreter .expiry = (false, surface
                (s.interpreter.fireTimer { s.engine.link with timers := timers' } x.id))
              ∧ ∃ a p t, s.interpreter.running = some a ∧ a.Active
                ∧ a.timers.find? (·.id = x.id) = some p
                ∧ p.transition ∈ d.delayedFrom a.current
                ∧ d.transitions[p.transition]? = some t ∧ x.target = t.target) := by
  intro s timers
  have hs : s.Valid d := valid_run happenings (valid_begin hbegin)
  refine ⟨fun hstop => ?_, fun hstop => ?_⟩
  · obtain ⟨hempty, hpending⟩ := hs.quiet hstop
    refine ⟨hempty, ?_, hpending⟩
    exact Arena.size_eq_length List.nodup_nil fun id =>
      iff_of_false (hempty id) (List.not_mem_nil)
  · obtain ⟨hg, hw⟩ := hs.working hstop
    obtain ⟨-, a, hm, hend, ha⟩ := id hw
    have hpending : s.interpreter.pendingTimers = a.timers.map (·.id) := by
      rw [Interpreter.pendingTimers, hm]
    rw [hpending]
    refine ⟨ha.holds.contains_iff, ha.holds.size_eq, fun x timers' hx => ⟨?_, ?_⟩⟩
    · simp only [dispatch]
      rw [show s.engine.link.timers.next = (some x, timers') from hx, hg]
      rfl
    · obtain ⟨b, p, t, hb, hact, hp, hmem, ht, htarget, -⟩ := hw.next hx
      exact ⟨b, p, t, hb, hact, hp, hmem, ht, htarget⟩

open CommandLine Network in
theorem session_timers_agree_blink : ∃ r, ∃ s₀ : Session Outbox,
    Session.begin (Outbox.access true false) {}
        (.ofDefinition Blink.definition Blink.registry.evaluator) = .ok (r, s₀)
      ∧ (let s := [Happening.event (.datagram (Message.Inbound.ofInput "start" "1").encode),
          .event (.elapsed 500)].foldl Session.take s₀
        s.engine.stopped = false ∧ s.interpreter.pendingTimers = [⟨0, 1⟩]
          ∧ s.engine.link.timers.contains ⟨0, 1⟩ ∧ s.engine.link.timers.size = 1) := by
  let happenings := [Happening.event (.datagram (Message.Inbound.ofInput "start" "1").encode),
    .event (.elapsed 500)]
  have hrun : ((Session.begin (Outbox.access true false) {}
      (.ofDefinition Blink.definition Blink.registry.evaluator)).toOption.map fun x =>
        let s := happenings.foldl Session.take x.2
        (s.engine.stopped, s.interpreter.pendingTimers)) = some (false, [⟨0, 1⟩]) := by
    decide +kernel
  rcases hbegin : Session.begin (Outbox.access true false) {}
    (.ofDefinition Blink.definition Blink.registry.evaluator) with err | ⟨r, s₀⟩
  · rw [hbegin] at hrun
    cases hrun
  · rw [hbegin] at hrun
    obtain ⟨hstop, hpending⟩ := Prod.mk.inj (Option.some.inj hrun)
    obtain ⟨hcontains, hsize, -⟩ := (session_timers_agree happenings hbegin).2 hstop
    refine ⟨r, s₀, rfl, hstop, hpending, (hcontains _).2 ?_, hsize.trans ?_⟩
    · rw [hpending]
      exact List.mem_singleton.2 rfl
    · rw [hpending]
      rfl

end RemoteAutomaton.Engine
