import Mathlib.Data.List.Nodup
import RemoteAutomaton.Proofs.SessionShape

/-!
# Sessions and interpreters

A session adds nothing to the interpreter that it runs.  Driven directly against a recorder with
the operations that the events ask for, the same interpreter takes the same way, and what the
recorder is told is what the observer is told (`session_refines_interpreter`).  The two name their
timers differently: the places of an arena are used again, those of a recorder are all one, and a
timer of the one belongs to the timer of the other with its generation (`SameGeneration`).
-/

namespace RemoteAutomaton.Engine

open Automaton (Evaluator Host Interpreter Notice Operation Outcome Pending Record Recorder Running
  SameOperation SameOutcome SameTimers Simulation TimerId)
open Machine (Definition)
open Message (Outbound)
open Network (Access Prompt Socket)

/-! ### Driving an interpreter directly -/

/-- The message that a recorded call becomes.  Timers are not told. -/
def messageOf? : Record → Option Outbound
  | .notice n => some (Link.messageOf n)
  | .scheduled .. | .cancelled _ => none

/-- What an operation tells: the calls that are recorded from it, and its failure. -/
def messagesOf (n : Interpreter) (k : Recorder) (op : Operation) : List Outbound :=
  ((n.perform k op).host.records.toList.drop k.records.size).filterMap messageOf?
    ++ failureOf (n.perform k op).result

/-- What operations tell in order. -/
def messages (n : Interpreter) (k : Recorder) : List Operation → List Outbound
  | [] => []
  | op :: ops =>
    messagesOf n k op ++ messages (n.perform k op).interpreter (n.perform k op).host ops

/-- The timer of a recorder that has the generation of a timer. -/
def SameGeneration (i j : TimerId) : Prop := j = ⟨0, i.generation⟩

/-- The operation of a driven interpreter that a request becomes. -/
def Request.operation? : Request → Option Operation
  | perform (.fire id) => some (.fire ⟨0, id.generation⟩)
  | perform op => some op
  | report _ | stop | idle => none

/-- The operations that what happens to a session asks for, until it has stopped. -/
def Session.operationsAt {σ : Type} (s : Session σ) : Happening → List Operation
  | .event e => if s.engine.stopped then [] else (s.engine.request e).operation?.toList
  | .drift .. => []

/-- What is received is an input or a command. -/
def Happening.Served : Happening → Prop
  | .event (.datagram d) => ∃ m, Network.receive Message.maxDatagramSize (.ok d) = .ok m
      ∧ (m.kind = .input ∨ ∃ c, m.command = .ok c)
  | .event (.receiveFailed _) => False
  | _ => True

variable {σ : Type} [Socket σ]

def Session.operations (s : Session σ) : List Happening → List Operation
  | [] => []
  | x :: rest => s.operationsAt x ++ (s.take x).operations rest

theorem messages_append : ∀ (ops ops' : List Operation) (n : Interpreter) (k : Recorder),
    messages n k (ops ++ ops')
      = messages n k ops ++ messages (n.performAll k ops).1 (n.performAll k ops).2 ops'
  | [], _, _, _ => rfl
  | op :: ops, ops', n, k => by
    simp only [List.cons_append, messages, Interpreter.performAll]
    rw [messages_append ops ops', List.append_assoc]

/-! ### Links and recorders -/

section Recorded

variable {sent : σ → List ByteArray} {old : List Record} {base : List ByteArray} {l : Link σ}
  {k : Recorder}

/-- A link and a recorder that have been told the same since `base` and `old`. -/
structure Recorded (sent : σ → List ByteArray) (old : List Record) (base : List ByteArray)
    (l : Link σ) (k : Recorder) : Prop where
  live : l.transport.Live
  generation : k.generation = l.timers.arena.generation
  refused : k.refused = []
  told : ∃ new, k.records.toList = old ++ new
    ∧ l.told sent = base ++ (new.filterMap messageOf?).map Outbound.encode

/-- An automaton cannot tell a link from a recorder. -/
theorem simulation_recorded (hσ : Prompt (fun _ => true) sent) :
    Simulation (Recorded sent old base) SameGeneration where
  notify {l k} n h := by
    obtain ⟨hlive, htold⟩ := told_notify hσ h.live n
    obtain ⟨new, hrecords, htold'⟩ := h.told
    refine ⟨hlive, ?_, h.refused, new ++ [.notice n], ?_, ?_⟩
    · rw [Link.timers_notify, ← h.generation]
      rfl
    · simp [Host.notify, Recorder.push, hrecords]
    · rw [htold, htold', List.filter_true]
      simp [messageOf?]
  cancel {l k i j} h _ := by
    obtain ⟨new, hrecords, htold⟩ := h.told
    refine ⟨h.live, ?_, h.refused, new ++ [.cancelled j], ?_, ?_⟩
    · simp only [Host.cancel, Link.cancel, Timer.Schedule.cancel]
      split
      · rename_i e arena htake
        exact h.generation.trans (Timer.Arena.generation_take htake).symm
      · exact h.generation
    · simp [Host.cancel, Recorder.push, hrecords]
    · rw [List.filterMap_append, List.filterMap_cons_none rfl, List.filterMap_nil, List.append_nil]
      exact htold
  schedule {l k ms} target h hms := by
    obtain ⟨new, hrecords, htold⟩ := h.told
    have hrefused : ¬ target ∈ k.refused := by
      rw [h.refused]
      exact List.not_mem_nil
    simp only [Host.schedule, Link.schedule, Timer.schedule_of_pos hms, Recorder.schedule,
      if_neg hrefused, if_neg (Nat.pos_iff_ne_zero.1 hms)]
    refine ⟨?_, h.live, ?_, h.refused, new ++ [.scheduled ⟨0, k.generation + 1⟩ ms target], ?_, ?_⟩
    · simp only [Except.mapError, Automaton.SameAnswer, SameGeneration]
      rw [Timer.Arena.generation_id_insert, h.generation]
    · rw [Timer.Arena.generation_insert, h.generation]
    · simp [hrecords]
    · rw [List.filterMap_append, List.filterMap_cons_none rfl, List.filterMap_nil, List.append_nil]
      exact htold

omit [Socket σ] in
theorem Recorded.afresh (h : Recorded sent old base l k) :
    Recorded sent k.records.toList (l.told sent) l k :=
  ⟨h.live, h.generation, h.refused, [], by simp, by simp⟩

/-- What a session is told of an operation is what the driven interpreter tells of it. -/
theorem recorded_serve (hσ : Prompt (fun _ => true) sent) {m n : Interpreter}
    {op op' : Operation} (hop : SameOperation (m.SameId n) op op')
    (hm : m.Alike SameGeneration n) (h : Recorded sent old base l k) :
    let r := (Request.perform op).serve m l
    r.1.Alike SameGeneration (n.perform k op').interpreter
      ∧ Recorded sent (n.perform k op').host.records.toList (r.2.told sent) r.2
        (n.perform k op').host
      ∧ r.2.told sent = l.told sent ++ (messagesOf n k op').map Outbound.encode
      ∧ r.2.stopRequested
        = (l.stopRequested || (n.perform k op').interpreter.isTerminating) := by
  intro r
  obtain ⟨hresult, hm', hhost⟩ := (simulation_recorded hσ).perform hop hm h.afresh
  obtain ⟨hlive, htold, hstop⟩ := told_surface hσ (o := m.perform l op) hhost.live
  obtain ⟨new, hrecords, htold'⟩ := hhost.told
  refine ⟨hm', ⟨hlive, ?_, hhost.refused, [], by simp, by simp⟩, ?_, ?_⟩
  · exact hhost.generation.trans (congrArg (·.arena.generation) timers_surface.symm)
  · have hnew : (n.perform k op').host.records.toList.drop k.records.size = new := by
      rw [hrecords, ← Array.length_toList, List.drop_left]
    refine htold.trans ?_
    rw [htold', List.filter_true, messagesOf, hnew, hresult, List.map_append, List.append_assoc]
  · refine hstop.trans ?_
    rw [stopRequested_perform, ← hm'.isTerminating]

end Recorded

/-! ### Sessions and driven interpreters -/

section Refines

variable {sent : σ → List ByteArray} {d : Definition} {s : Session σ} {n : Interpreter}
  {k : Recorder} {ds : List ByteArray}

/-- The driven interpreter is alike to that of a session that runs, and its recorder has counted as
many timers; what it told and what the session told is `ds`.  Once terminated it is alike to the
interpreter of a session that has stopped. -/
structure Refines (sent : σ → List ByteArray) (d : Definition) (s : Session σ) (n : Interpreter)
    (k : Recorder) (ds : List ByteArray) : Prop where
  valid : s.Valid d
  tells : s.Tells sent ds
  generation : s.engine.stopped = false → k.generation = s.engine.link.timers.arena.generation
  refused : k.refused = []
  alike : s.engine.stopped = false → s.interpreter.Alike SameGeneration n
  ended : s.engine.stopped = true → s.interpreter.Alike SameGeneration (n.terminate k).1

/-- Timers of which at most those with the id `i` have its generation. -/
theorem sameIds {i : TimerId} : ∀ {l l' : List Pending}, SameTimers SameGeneration l l' →
    (∀ p ∈ l, p.id.generation = i.generation → p.id = i) →
    List.Forall₂ (fun p q : Pending => p.id = i ↔ q.id = ⟨0, i.generation⟩) l l'
  | _, _, .nil, _ => .nil
  | p :: _, q :: _, .cons hpq hl, hi => by
    have hq : q.id = ⟨0, p.id.generation⟩ := hpq.1
    refine .cons ⟨fun hp => by rw [hq, hp], fun hqi => ?_⟩
      (sameIds hl fun p hp => hi p (List.mem_cons_of_mem _ hp))
    rw [hq] at hqi
    exact hi p (List.mem_cons_self ..) (congrArg (·.generation) hqi)

omit [Socket σ] in
/-- The timer that is handed out next and the one of its generation are the same pending timer,
since an arena gives each generation once. -/
theorem sameId_of_next {m n : Interpreter} {l : Link σ} {x : Timer.Expired}
    {timers : Timer.Schedule} (hm : m.Alike SameGeneration n)
    (hw : Working d m l.timers.arena) (hx : l.timers.next = (some x, timers)) :
    m.SameId n x.id ⟨0, x.id.generation⟩ := by
  intro a b ha hb
  obtain ⟨a', p₀, t, ha', -, hp₀, -⟩ := hw.next hx
  obtain ⟨-, a'', ha'', -, hagree⟩ := hw
  cases ha.symm.trans ha'
  cases ha.symm.trans ha''
  have hid : p₀.id = x.id := by simpa using List.find?_some hp₀
  rcases hm.cases with ⟨hnone, -⟩ | ⟨a', b', ha', hb', ts, rfl, hts⟩
  · cases ha.symm.trans hnone
  · cases ha.symm.trans ha'
    cases hb.symm.trans hb'
    refine sameIds hts fun p hp hgen => ?_
    rw [← hid] at hgen ⊢
    rw [List.inj_on_of_nodup_map hagree.holds.distinct hp (List.mem_of_find?_eq_some hp₀) hgen]

theorem sameOperation_request {e : Event} {op : Operation} (hs : s.Valid d)
    (hstop : s.engine.stopped = false) (hm : s.interpreter.Alike SameGeneration n)
    (hrequest : s.engine.request e = .perform op) :
    ∃ op', (s.engine.request e).operation? = some op'
      ∧ SameOperation (s.interpreter.SameId n) op op' := by
  obtain ⟨-, hw⟩ := hs.working hstop
  rw [hrequest]
  rcases request_eq_perform hrequest with ⟨-, ⟨name, value, rfl⟩ | rfl⟩ | ⟨x, timers, hx, rfl, -⟩
  · exact ⟨_, rfl, .other fun i => Operation.noConfusion⟩
  · exact ⟨_, rfl, .other fun i => Operation.noConfusion⟩
  · exact ⟨_, rfl, .fire (sameId_of_next hm hw hx)⟩

theorem generation_next (timers : Timer.Schedule) :
    timers.next.2.arena.generation = timers.arena.generation := by
  simp only [Timer.Schedule.next]
  rcases hc : Timer.Schedule.claim timers.arena timers.due with ⟨_ | x, arena, due⟩
  · rw [(Timer.claim_none hc).1]
  · obtain ⟨e, htake, -⟩ := Timer.claim_some hc
    exact Timer.Arena.generation_take htake

theorem recorded_heed {old : List Record} {base : List ByteArray} {g : Engine σ Interpreter}
    (h : Recorded sent old base g.link k) (e : Event) : Recorded sent old base (g.heed e) k := by
  rw [heed_of_live h.live]
  refine ⟨h.live, h.generation.trans ?_, h.refused, h.told⟩
  cases e with
  | shutdown | signal | writable | waitFailed | elapsed | datagram | receiveFailed => rfl
  | expiry => exact (generation_next g.link.timers).symm

theorem refines_proceed (hσ : Prompt (fun _ => true) sent) {g : Engine σ Interpreter}
    {m : Interpreter} {l : Link σ} {stops : Bool} {old : List Record} {base : List ByteArray}
    (hvalid : (Session.proceed g m l stops).Valid d) (hstop : g.stopped = false)
    (hm : m.Alike SameGeneration n) (h : Recorded sent old base l k) :
    Refines sent d (.proceed g m l stops) n k (l.told sent)
      ∧ (Session.proceed g m l stops).engine.stopped = (stops || l.stopRequested) := by
  obtain ⟨ht, hstopped⟩ := tells_proceed hσ rfl (g := g) (m := m) h.live hstop stops
  refine ⟨⟨hvalid, ht, fun hgoing => ?_, h.refused, fun hgoing => ?_, fun hended => ?_⟩, hstopped⟩
  all_goals simp only [Session.proceed]
  · rw [hstopped] at hgoing
    rw [if_neg (Bool.eq_false_iff.1 hgoing)]
    exact h.generation
  · rw [hstopped] at hgoing
    rwa [if_neg (Bool.eq_false_iff.1 hgoing)]
  · rw [hstopped] at hended
    rw [if_pos hended]
    exact hm.terminate _ _

theorem Refines.recorded (h : Refines sent d s n k ds) (hstop : s.engine.stopped = false) :
    Recorded sent k.records.toList (s.engine.link.told sent) s.engine.link k :=
  ⟨h.tells.live hstop, h.generation hstop, h.refused, [], by simp, by simp⟩

theorem Refines.told (h : Refines sent d s n k ds) (hstop : s.engine.stopped = false) :
    s.engine.link.told sent = ds := by
  rw [h.tells.told, hstop, if_neg Bool.false_ne_true, List.append_nil]

theorem Refines.stopped (h : Refines sent d s n k ds) (hend : n.isTerminating = true) :
    s.engine.stopped = true := by
  rcases hstop : s.engine.stopped with _ | _
  · obtain ⟨-, -, a, ha, hgoing, -⟩ := h.valid.working hstop
    rw [(h.alike hstop).isTerminating, Interpreter.isTerminating, ha] at hend
    exact absurd hend hgoing
  · rfl

omit [Socket σ] in
/-- Of a session that takes only inputs and commands nothing asks for the report of a failure. -/
theorem not_report_of_served {e : Event} (he : (Happening.event e).Served) (text : String) :
    s.engine.request e ≠ .report text := by
  intro h
  cases e with
  | shutdown | signal | writable | waitFailed | elapsed => cases h
  | expiry =>
    simp only [request] at h
    split at h <;> cases h
  | receiveFailed => exact he
  | datagram data =>
    obtain ⟨m, hreceive, hm⟩ := he
    simp only [request, requestOf, hreceive, Request.ofMessage] at h
    split_ifs at h
    split at h
    · cases h
    · rename_i hkind
      rcases hm with hinput | ⟨c, hc⟩
      · rw [hinput] at hkind
        cases hkind
      · rw [hc] at h
        cases c <;> cases h

/-- Of what an event can ask for, an operation is done by both, no failure to report comes up among
what is served, and the end is asked of the session alone. -/
theorem refines_step (hσ : Prompt (fun _ => true) sent) (h : Refines sent d s n k ds)
    (hstop : s.engine.stopped = false) {e : Event} (he : (Happening.event e).Served) :
    let ops := (s.engine.request e).operation?.toList
    Refines sent d (s.step e) (n.performAll k ops).1 (n.performAll k ops).2
        (ds ++ (messages n k ops).map Outbound.encode)
      ∧ ((s.step e).engine.stopped = true
        ↔ (Happening.event e).Stops ∨ (n.performAll k ops).1.isTerminating = true) := by
  have hm := h.alike hstop
  have hvalid : (s.step e).Valid d := valid_step h.valid e
  obtain ⟨hg, hw⟩ := h.valid.working hstop
  have hrecorded := recorded_heed (h.recorded hstop) e
  have hlive := h.tells.live hstop
  obtain ⟨htransport, hunrequested⟩ := told_heed hlive e
  have htold : (s.engine.heed e).told sent = ds := by
    rw [Link.told, htransport]
    exact h.told hstop
  rw [h.tells.unrequested hstop] at hunrequested
  have hstops := request_eq_stop_iff hlive.isReceiving (e := e)
  rw [step_eq hg hstop] at hvalid ⊢
  rcases hrequest : s.engine.request e with op | text | _ | _
  · obtain ⟨op', hop', hsame⟩ := sameOperation_request h.valid hstop hm hrequest
    obtain ⟨hm', hrecorded', htold', hstop'⟩ := recorded_serve hσ hsame hm hrecorded
    rw [hrequest] at hvalid hop' hstops
    obtain ⟨hrefines, hstopped⟩ := refines_proceed hσ hvalid hstop hm' hrecorded'
    rw [hop']
    refine ⟨?_, ?_⟩
    · rw [htold', htold, ← List.append_nil (messagesOf n k op')] at hrefines
      exact hrefines
    · rw [hstopped, hstop', hunrequested, ← hstops, Request.isStop, Bool.false_or, Bool.false_or]
      exact ⟨.inr, fun h => h.resolve_left Request.noConfusion⟩
  · exact absurd hrequest (not_report_of_served he text)
  · rw [hrequest] at hvalid
    obtain ⟨hrefines, hstopped⟩ := refines_proceed hσ (l := s.engine.heed e) hvalid hstop hm
      hrecorded
    rw [htold, ← List.append_nil ds] at hrefines
    exact ⟨hrefines, iff_of_true hstopped (.inl (hstops.1 hrequest))⟩
  · rw [hrequest] at hvalid hstops
    obtain ⟨hrefines, hstopped⟩ := refines_proceed hσ (l := s.engine.heed e) hvalid hstop hm
      hrecorded
    have hgoing' : (Session.proceed s.engine s.interpreter (s.engine.heed e) false).engine.stopped
        = false := by
      rw [hunrequested] at hstopped
      exact hstopped
    rw [htold, ← List.append_nil ds] at hrefines
    refine ⟨hrefines, iff_of_false (Bool.eq_false_iff.1 hgoing') ?_⟩
    rintro (hends | hends)
    · exact Request.noConfusion (hstops.2 hends)
    · exact absurd (hstop.symm.trans (h.stopped hends)) Bool.false_ne_true

theorem refines_drift (h : Refines sent d s n k ds) (now : Nat) (asleep : List Timer.Sleeper)
    (due : List TimerId) : Refines sent d (s.take (.drift now asleep due)) n k ds where
  valid := valid_take h.valid _
  tells := h.tells.drift now asleep due
  generation := h.generation
  refused := h.refused
  alike := h.alike
  ended := h.ended

/-- A session and the driven interpreter take together what happens. -/
theorem refines_take (hσ : Prompt (fun _ => true) sent) (h : Refines sent d s n k ds)
    {x : Happening} (hx : x.Served) :
    let ops := s.operationsAt x
    Refines sent d (s.take x) (n.performAll k ops).1 (n.performAll k ops).2
        (ds ++ (messages n k ops).map Outbound.encode)
      ∧ ((s.take x).engine.stopped = true ↔ s.engine.stopped = true ∨ x.Stops
        ∨ (n.performAll k ops).1.isTerminating = true) := by
  cases x with
  | drift now asleep due =>
    have hrefines := refines_drift h now asleep due
    rw [← List.append_nil ds] at hrefines
    refine ⟨hrefines, ⟨.inl, ?_⟩⟩
    rintro (hstop | hno | hend)
    · exact hstop
    · exact hno.elim
    · exact h.stopped hend
  | event e =>
    rcases hstop : s.engine.stopped with _ | _
    · obtain ⟨hrefines, hstopped⟩ := refines_step hσ h hstop hx
      simp only [Session.take, Session.operationsAt, hstop, if_neg Bool.false_ne_true]
      exact ⟨hrefines, hstopped.trans ⟨.inr, fun h => h.resolve_left Bool.false_ne_true⟩⟩
    · simp only [Session.take, step_of_stopped hstop, Session.operationsAt, hstop, if_true]
      rw [← List.append_nil ds] at h
      exact ⟨h, iff_of_true trivial (.inl trivial)⟩

theorem operations_of_stopped : ∀ (xs : List Happening) {s : Session σ},
    s.engine.stopped = true → s.operations xs = []
  | [], _, _ => rfl
  | x :: xs, s, hstop => by
    have hnone : s.operationsAt x = [] := by
      cases x with
      | event e => rw [Session.operationsAt, if_pos hstop]
      | drift => rfl
    rw [Session.operations, hnone, operations_of_stopped xs (stays_stopped hstop x),
      List.append_nil]

/-- An interpreter that has asked for the end is asked for nothing more. -/
theorem isTerminating_operations (xs : List Happening)
    (hstop : n.isTerminating = true → s.engine.stopped = true) (hend : n.isTerminating = true) :
    (n.performAll k (s.operations xs)).1.isTerminating = true := by
  rw [operations_of_stopped xs (hstop hend)]
  exact hend

theorem refines_run (hσ : Prompt (fun _ => true) sent) : ∀ (xs : List Happening) {s : Session σ}
    {n : Interpreter} {k : Recorder} {ds : List ByteArray}, Refines sent d s n k ds →
    (∀ x ∈ xs, x.Served) →
    let s' := xs.foldl Session.take s
    let ops := s.operations xs
    Refines sent d s' (n.performAll k ops).1 (n.performAll k ops).2
        (ds ++ (messages n k ops).map Outbound.encode)
      ∧ (s'.engine.stopped = true ↔ s.engine.stopped = true ∨ (∃ x ∈ xs, x.Stops)
        ∨ (n.performAll k ops).1.isTerminating = true)
  | [], s, n, k, ds, h, _ => by
    refine ⟨(List.append_nil ds).symm ▸ h, ⟨.inl, ?_⟩⟩
    rintro (hstop | ⟨x, hx, -⟩ | hend)
    · exact hstop
    · cases hx
    · exact h.stopped hend
  | x :: xs, s, n, k, ds, h, hserved => by
    intro s' ops
    obtain ⟨hx, hstopped⟩ := refines_take hσ h (hserved x (List.mem_cons_self ..))
    obtain ⟨hxs, hstopped'⟩ := refines_run hσ xs hx fun y hy =>
      hserved y (List.mem_cons_of_mem _ hy)
    have hops : ops = s.operationsAt x ++ (s.take x).operations xs := rfl
    rw [hops, Interpreter.performAll_append, messages_append, List.map_append, ← List.append_assoc]
    refine ⟨hxs, hstopped'.trans ?_⟩
    have hends := isTerminating_operations xs (s := s.take x)
      (n := (n.performAll k (s.operationsAt x)).1) (k := (n.performAll k (s.operationsAt x)).2)
      fun hend => hstopped.2 (.inr (.inr hend))
    rw [hstopped, List.exists_mem_cons_iff]
    constructor
    · rintro ((hstop | hstop | hend) | hstop | hend)
      exacts [.inl hstop, .inr (.inl (.inl hstop)), .inr (.inr (hends hend)),
        .inr (.inl (.inr hstop)), .inr (.inr hend)]
    · rintro (hstop | (hstop | hstop) | hend)
      exacts [.inl (.inl hstop), .inl (.inr (.inl hstop)), .inr (.inl hstop), .inr (.inr hend)]

/-- A session that could start begins with the driven interpreter that was asked to start. -/
theorem refines_begin (hσ : Prompt (fun _ => true) sent) {access : Access σ} {settings : Settings}
    {e : Evaluator} {r : Except Error Unit}
    (hfresh : ∀ address isV4 socket, access.bind address = .ok (isV4, socket) → sent socket = [])
    (hd : d.initial ≠ none)
    (hbegin : Session.begin access settings (.ofDefinition d e) = .ok (r, s)) :
    let n := Interpreter.ofDefinition d e
    let ops := [Operation.start]
    Refines sent d s (n.performAll ({} : Recorder) ops).1 (n.performAll ({} : Recorder) ops).2
        ((Outbound.ready settings.name :: messages n {} ops).map Outbound.encode)
      ∧ (s.engine.stopped = true ↔ (n.performAll ({} : Recorder) ops).1.isTerminating = true) := by
  intro n ops
  have hvalid := valid_begin hbegin
  obtain ⟨g, hg, ⟨err, hnone, -, -⟩ | ⟨-, -, rfl⟩⟩ := session_begin_cases hbegin
  · exact absurd hnone hd
  · obtain ⟨hstop, htimers⟩ := connect_ok hg
    obtain ⟨hlive, hunrequested, address, isV4, socket, hbind, htold⟩ := told_connect hσ hg
    rw [hfresh address isV4 socket hbind, List.nil_append] at htold
    have hrecorded : Recorded sent [] (g.link.told sent) g.link {} :=
      ⟨hlive, by rw [htimers], rfl, [], rfl, by simp⟩
    have hfresh' : n.Alike SameGeneration n := ⟨rfl, rfl, .none⟩
    obtain ⟨hm, hrecorded', htold', hstop'⟩ := recorded_serve hσ
      (.other fun _ => Operation.noConfusion : SameOperation (n.SameId n) .start .start) hfresh'
      hrecorded
    obtain ⟨hrefines, hstopped⟩ := refines_proceed hσ
      (g := { g with handlers := interpreterHandlers }) hvalid hstop hm hrecorded'
    rw [hunrequested, Bool.false_or] at hstop'
    refine ⟨?_, by rw [hstopped, Bool.false_or, hstop']; rfl⟩
    rw [htold', htold, ← List.append_nil (messagesOf n {} .start)] at hrefines
    exact hrefines

theorem records_cancelAll : ∀ (ps : List Pending) (k : Recorder),
    (Running.cancelAll k ps).records.toList
      = k.records.toList ++ ps.map fun p => .cancelled p.id
  | [], k => (List.append_nil _).symm
  | p :: ps, k => by
    rw [Running.cancelAll, records_cancelAll ps]
    simp [Host.cancel, Recorder.push]

/-- The end of a driven interpreter tells nothing: all that is left to do is to cancel timers. -/
theorem messagesOf_terminate (n : Interpreter) (k : Recorder) : messagesOf n k .terminate = [] := by
  simp only [messagesOf, Interpreter.perform, Interpreter.terminate, failureOf, List.append_nil]
  rw [← Array.length_toList]
  cases n.running with
  | none => rw [List.drop_length, List.filterMap_nil]
  | some a =>
    dsimp only
    rw [records_cancelAll, List.drop_left]
    simp [messageOf?]

end Refines

/-- A session over a socket that takes everything is the interpreter that it runs.  Driven directly,
from the start and through the operations that the events ask for to the end, the interpreter stays
alike to that of the session; the session tells that it is ready, what the interpreter tells its
host and the failures that it returns, and at last that it is terminating.  It ends when it is asked
to, or when the interpreter asks for it. -/
theorem session_refines_interpreter {access : Access σ} {settings : Settings} {d : Definition}
    {e : Evaluator} {sent : σ → List ByteArray} {r : Except Error Unit} {s₀ : Session σ}
    (hσ : Prompt (fun _ => true) sent)
    (hfresh : ∀ address isV4 socket, access.bind address = .ok (isV4, socket) → sent socket = [])
    (hd : d.initial ≠ none)
    (hbegin : Session.begin access settings (.ofDefinition d e) = .ok (r, s₀))
    (happenings : List Happening) (hserved : ∀ x ∈ happenings, x.Served) :
    let s := happenings.foldl Session.take s₀
    let n := Interpreter.ofDefinition d e
    let asked := Operation.start :: s₀.operations happenings
    let ops := asked ++ if s.engine.stopped then [.terminate] else []
    s.engine.link.told sent
        = (Outbound.ready settings.name :: messages n {} ops
            ++ if s.engine.stopped then [Outbound.terminating] else []).map Outbound.encode
      ∧ s.interpreter.Alike SameGeneration (n.performAll ({} : Recorder) ops).1
      ∧ (s.engine.stopped = true ↔ (∃ x ∈ happenings, x.Stops)
        ∨ (n.performAll ({} : Recorder) asked).1.isTerminating = true) := by
  intro s n asked ops
  obtain ⟨hstart, hstopped⟩ := refines_begin hσ hfresh hd hbegin
  obtain ⟨hrun, hstopped'⟩ := refines_run hσ happenings hstart hserved
  have hasked : asked = [.start] ++ s₀.operations happenings := rfl
  rw [← List.map_append, List.cons_append, ← messages_append, ← Interpreter.performAll_append,
    ← hasked] at hrun
  have hends := isTerminating_operations happenings
    (k := (n.performAll ({} : Recorder) [.start]).2) hstopped.2
  rw [← Interpreter.performAll_append, ← hasked] at hstopped' hends
  rw [hstopped] at hstopped'
  refine ⟨?_, ?_, hstopped'.trans (or_iff_right_of_imp fun hend => .inr (hends hend))⟩
  · rw [hrun.tells.told, messages_append]
    rcases s.engine.stopped with _ | _
    · simp [messages, n]
    · simp [messages, messagesOf_terminate, n]
  · rw [Interpreter.performAll_append]
    rcases hstop : s.engine.stopped with _ | _
    · exact hrun.alike hstop
    · exact hrun.ended hstop

open CommandLine Message Network in
theorem session_refines_interpreter_blink : ∃ r, ∃ s₀ : Session (Wire fun _ => true),
    Session.begin Wire.access {} (.ofDefinition Blink.definition Blink.registry.evaluator)
        = .ok (r, s₀)
      ∧ (let s := [Happening.event (.datagram (Inbound.ofInput "start" "1").encode),
          .event (.datagram (Inbound.ofCommand .getStatus).encode), .event (.elapsed 500),
          .event .expiry, .event .signal].foldl Session.take s₀
        let n := Interpreter.ofDefinition Blink.definition Blink.registry.evaluator
        let ops := [.start, .input "start" "1", .report, .fire ⟨0, 1⟩, .terminate]
        s.engine.link.told Wire.sent
            = (Outbound.ready "statewire" :: messages n {} ops
                ++ [Outbound.terminating]).map Outbound.encode
          ∧ s.interpreter.Alike SameGeneration (n.performAll ({} : Recorder) ops).1) := by
  let access : Access (Wire fun _ => true) := Wire.access
  let happenings := [Happening.event (.datagram (Inbound.ofInput "start" "1").encode),
    .event (.datagram (Inbound.ofCommand .getStatus).encode), .event (.elapsed 500),
    .event .expiry, .event .signal]
  have hrun : ((Session.begin access {}
      (.ofDefinition Blink.definition Blink.registry.evaluator)).toOption.map fun x =>
        ((happenings.foldl Session.take x.2).engine.stopped, x.2.operations happenings))
      = some (true, [.input "start" "1", .report, .fire ⟨0, 1⟩]) := by
    decide +kernel
  have hserved : ∀ x ∈ happenings, x.Served := by
    simp only [happenings, List.forall_mem_cons, Happening.Served]
    refine ⟨⟨.ofInput "start" "1", rfl, .inl rfl⟩,
      ⟨.ofCommand .getStatus, rfl, .inr ⟨.getStatus, rfl⟩⟩, trivial, trivial, trivial,
      List.forall_mem_nil _⟩
  obtain ⟨⟨r, s₀⟩, hbegin, hx⟩ := exists_ok_of_map hrun
  obtain ⟨hstop, hops⟩ := Prod.mk.inj hx
  obtain ⟨htold, halike, -⟩ := session_refines_interpreter Wire.prompt
    (fun _ _ _ => Wire.fresh) (by decide +kernel) hbegin happenings hserved
  rw [hops, hstop] at htold halike
  exact ⟨r, s₀, hbegin, htold, halike⟩

end RemoteAutomaton.Engine
