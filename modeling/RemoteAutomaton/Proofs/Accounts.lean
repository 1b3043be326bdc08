import RemoteAutomaton.CommandLine.Blink
import RemoteAutomaton.Proofs.Books
import RemoteAutomaton.Proofs.Simulation

/-!
# What becomes of every timer

Every timer that a host has granted is pending, or has been cancelled once, or its expiry has been
taken once (`timers_accounted`).  The books behind this are balanced by every single operation:
what was pending and what is granted is pending or cancelled afterwards (`balance`).  Whether an
expiry was taken shows only if no timer is granted twice, so that is assumed of the whole run.

The pending timers have been granted since the automaton has entered its current state.
-/

namespace RemoteAutomaton.Automaton

open Machine (Definition Transition)

/-! ### What calls tell of timers -/

/-- The timer that a call has granted. -/
def HostCall.issued? : HostCall → Option TimerId
  | .schedule _ _ (.ok id) => some id
  | _ => none

/-- The timer that a call cancels. -/
def HostCall.cancelled? : HostCall → Option TimerId
  | .cancel id => some id
  | _ => none

/-- The state that a call reports. -/
def HostCall.state? : HostCall → Option String
  | .notice (.state s) => some s
  | _ => none

def issued (calls : List HostCall) : List TimerId := calls.filterMap (·.issued?)

def cancelled (calls : List HostCall) : List TimerId := calls.filterMap (·.cancelled?)

/-- Takes a call into account for the last state reported and the calls since then. -/
def track (x : Option (String × List HostCall)) (c : HostCall) :
    Option (String × List HostCall) :=
  match c.state? with
  | some s => some (s, [])
  | none => x.map fun e => (e.1, e.2 ++ [c])

/-- The last state that some calls report, and the calls after that report. -/
def lastState (calls : List HostCall) : Option (String × List HostCall) := calls.foldl track none

/-- The state that a run has entered last, and the calls that came after the report of it in the
same operation.  A status report enters no state. -/
def latestEntry (log : List (Operation × List HostCall)) : Option (String × List HostCall) :=
  log.foldl (fun x y => if y.1 = .report then x else (lastState y.2).or x) none

namespace Interpreter

variable {σ : Type} [Host σ] (m : Interpreter) (h : σ)

/-- The timer whose expiry an operation takes: it is pending before and no longer after. -/
def taken : Operation → List TimerId
  | .fire id =>
    if id ∈ m.pendingTimers ∧ id ∉ (m.perform h (.fire id)).interpreter.pendingTimers then [id]
    else []
  | _ => []

/-- The timers whose expiry a run takes. -/
def expired (m : Interpreter) (h : σ) : List Operation → List TimerId
  | [] => []
  | op :: ops =>
    m.taken h op ++ expired (m.perform h op).interpreter (m.perform h op).host ops

/-- The pending timers without the one that an operation fires. -/
def kept (op : Operation) : List TimerId :=
  match m.running with
  | some a => (op.kept a).map (·.id)
  | none => []

end Interpreter

/-! ### The balance of one operation -/

section Balance

variable {σ : Type} [Host σ] {d : Definition}

theorem calls_schedule {t t' : Traced σ} {ms : Nat} {target : String}
    {r : Except Error TimerId} (hs : Host.schedule t ms target = (r, t')) :
    t'.calls = .schedule ms target r :: t.calls := by
  simp only [Host.schedule, Prod.mk.injEq] at hs
  obtain ⟨hr, rfl⟩ := hs
  rw [hr]

/-- Timers that were there at the beginning or have been granted since are there still, or have been
cancelled. -/
def Balanced (base : List TimerId) (calls : List HostCall) (l : List Pending) : Prop :=
  (base ++ issued calls).Perm (l.map (·.id) ++ cancelled calls)

theorem Balanced.grant {base : List TimerId} {calls : List HostCall} {l : List Pending}
    (hl : Balanced base calls l) (ms : Nat) (target : String) (p : Pending) :
    Balanced base (.schedule ms target (.ok p.id) :: calls) (l ++ [p]) := by
  have hin : (base ++ p.id :: issued calls).Perm (p.id :: (base ++ issued calls)) :=
    List.perm_middle
  have hout : ((l ++ [p]).map (·.id) ++ cancelled calls).Perm
      (p.id :: (l.map (·.id) ++ cancelled calls)) := by
    rw [List.map_append, List.append_assoc]
    exact List.perm_middle
  exact hin.trans ((List.Perm.cons p.id hl).trans hout.symm)

theorem Balanced.cancel {base : List TimerId} {calls : List HostCall} {p : Pending}
    {l : List Pending} (hl : Balanced base calls (p :: l)) :
    Balanced base (.cancel p.id :: calls) l := by
  have hmid : (p.id :: l.map (·.id) ++ cancelled calls).Perm
      (l.map (·.id) ++ p.id :: cancelled calls) := List.perm_middle.symm
  exact List.Perm.trans hl hmid

theorem books_balanced (base : List TimerId) :
    Books d fun (t : Traced σ) l => Balanced base t.calls l where
  failure _ hl := hl
  notify _ hl := hl
  cancel hl := hl.cancel
  refused hs hl := by
    rw [calls_schedule hs]
    exact hl
  granted {t l ms i tr id t'} _ _ hs hl := by
    rw [calls_schedule hs]
    exact hl.grant ms tr.target ⟨id, i⟩

theorem balanced_nil {l : List Pending} : Balanced (l.map (·.id)) [] l := by
  simp [Balanced, issued, cancelled]

namespace Interpreter

variable {m : Interpreter} {h : σ} {op : Operation}

theorem callsOf_of_not_started (hm : m.running = none)
    (hop : op = .start → m.definition.initial = none) : m.callsOf h op = [] := by
  rw [callsOf, (perform_of_not_started hm hop).2]
  rfl

theorem balance_of_balanced {base : List TimerId} {a : Running}
    (hrun : (m.perform h op).interpreter.running = some a)
    (hbal : Balanced base (m.callsOf h op).reverse a.timers) :
    (base ++ issued (m.callsOf h op)).Perm
      ((m.perform h op).interpreter.pendingTimers ++ cancelled (m.callsOf h op)) := by
  have hin : (issued (m.callsOf h op).reverse).Perm (issued (m.callsOf h op)) :=
    (List.reverse_perm _).filterMap _
  have hout : (cancelled (m.callsOf h op).reverse).Perm (cancelled (m.callsOf h op)) :=
    (List.reverse_perm _).filterMap _
  rw [pendingTimers, hrun]
  exact (hin.symm.append_left base).trans (List.Perm.trans hbal (hout.append_left _))

/-- What was pending before an operation and is not fired by it, and what is granted during the
operation, is pending afterwards or has been cancelled. -/
theorem balance (m : Interpreter) (h : σ) (op : Operation) :
    (m.kept op ++ issued (m.callsOf h op)).Perm
      ((m.perform h op).interpreter.pendingTimers ++ cancelled (m.callsOf h op)) := by
  rcases hm : m.running with _ | a
  · rw [kept, hm]
    by_cases hstart : op = .start → m.definition.initial = none
    · rw [callsOf_of_not_started hm hstart, (perform_of_not_started hm hstart).1, pendingTimers, hm]
      rfl
    · obtain ⟨rfl, hinit⟩ := Classical.not_imp.1 hstart
      obtain ⟨s, hs⟩ := Option.ne_none_iff_exists'.1 hinit
      have hbooks := books_balanced (σ := σ) (d := m.definition) []
      obtain ⟨a, hrun, hbal⟩ := stable_traced_start (h := h) hbooks.stable hm hs
        (hbooks.stable.enter (m.definition.initial_mem s hs) (balanced_nil (l := [])))
      exact balance_of_balanced hrun hbal
  · have hbooks := books_balanced (σ := σ) (d := m.definition) ((op.kept a).map (·.id))
    obtain ⟨a', hrun, hbal⟩ := stable_traced (h := h) hbooks.stable hm
      (hbooks.prepare op balanced_nil)
    rw [kept, hm]
    exact balance_of_balanced hrun hbal

end Interpreter

end Balance

/-! ### The latest entry -/

/-- A timer has been granted by one of some calls, for the state that its transition leads to. -/
def Granted (d : Definition) (calls : List HostCall) (p : Pending) : Prop :=
  ∃ t ms, d.transitions[p.transition]? = some t ∧ HostCall.schedule ms t.target (.ok p.id) ∈ calls

theorem Granted.mono {d : Definition} {calls calls' : List HostCall} {p : Pending}
    (hp : Granted d calls p) (hsub : calls ⊆ calls') : Granted d calls' p := by
  obtain ⟨t, ms, ht, hmem⟩ := hp
  exact ⟨t, ms, ht, hsub hmem⟩

section Entry

variable {d : Definition}

/-- The last entry that some calls tell of, the last call first, or else `base`, is that of a state
`s`, and some timers have been granted since. -/
def SinceEntry (d : Definition) (base : Option (String × List HostCall)) (s : String)
    (calls : List HostCall) (l : List Pending) : Prop :=
  ∃ later, (lastState calls.reverse).or base = some (s, later) ∧ ∀ p ∈ l, Granted d later p

variable {base : Option (String × List HostCall)} {s : String} {calls : List HostCall}
  {l : List Pending}

/-- Calls that report no state leave the last entry where it is. -/
theorem SinceEntry.exists_later (hl : SinceEntry d base s calls l) {c : HostCall}
    (hc : c.state? = none) :
    ∃ later, (lastState (c :: calls).reverse).or base = some (s, later)
      ∧ (∀ p ∈ l, Granted d later p) ∧ (base = none → c ∈ later) := by
  obtain ⟨later, hlast, hl⟩ := hl
  have hrec : lastState (c :: calls).reverse
      = (lastState calls.reverse).map fun e => (e.1, e.2 ++ [c]) := by
    simp [lastState, track, hc]
  rw [hrec]
  rcases hst : lastState calls.reverse with _ | ⟨s', later'⟩
  · rw [hst] at hlast
    refine ⟨later, hlast, hl, ?_⟩
    rintro rfl
    cases hlast
  · rw [hst] at hlast
    cases hlast
    refine ⟨later ++ [c], rfl, fun p hp => ?_, fun _ => ?_⟩
    · exact (hl p hp).mono (List.subset_append_left ..)
    · exact List.mem_append_right _ (List.mem_singleton.2 rfl)

theorem SinceEntry.hear (hl : SinceEntry d base s calls l) {c : HostCall} (hc : c.state? = none) :
    SinceEntry d base s (c :: calls) l := by
  obtain ⟨later, hlast, hgranted, -⟩ := hl.exists_later hc
  exact ⟨later, hlast, hgranted⟩

theorem SinceEntry.grant (hl : SinceEntry d none s calls l) {ms i : Nat} {t : Transition}
    {id : TimerId} (ht : d.transitions[i]? = some t) :
    SinceEntry d none s (.schedule ms t.target (.ok id) :: calls) (l ++ [⟨id, i⟩]) := by
  obtain ⟨later, hlast, hgranted, hnew⟩ :=
    hl.exists_later (c := .schedule ms t.target (.ok id)) rfl
  refine ⟨later, hlast, fun p hp => ?_⟩
  rcases List.mem_append.1 hp with hp | hp
  · exact hgranted p hp
  · obtain rfl := List.mem_singleton.1 hp
    exact ⟨t, ms, ht, hnew rfl⟩

variable {σ : Type} [Host σ] {e : Evaluator}

theorem scheduling_sinceEntry :
    Scheduling d fun (t : Traced σ) l => SinceEntry d none s t.calls l where
  failure e hl := hl.hear rfl
  refused hs hl := by
    rw [calls_schedule hs]
    exact hl.hear rfl
  granted ht _ hs hl := by
    rw [calls_schedule hs]
    exact hl.grant ht

/-- Whatever was before, the timers that an entry leaves pending are granted during it. -/
theorem sinceEntry_enter (base : Option (String × List HostCall)) (a : Running) (t : Traced σ)
    (target : String) : SinceEntry d base (a.enter d e t target).1.current
      (a.enter d e t target).2.calls (a.enter d e t target).1.timers := by
  have hstate : SinceEntry d none target
      (Host.notify (a.arrive d e t target).2 (.state target)).calls
      (a.arrive d e t target).1.timers := by
    rw [Running.timers_arrive]
    exact ⟨[], by simp [Host.notify, lastState, track, HostCall.state?], List.forall_mem_nil _⟩
  obtain ⟨later, hlast, hl⟩ := scheduling_sinceEntry.scheduleAll (d.delayedFrom target) hstate
  rw [Option.or_none] at hlast
  refine ⟨later, ?_, hl⟩
  rw [Running.current_enter, Running.enter_eq, hlast]
  rfl

theorem stable_sinceEntry (base : Option (String × List HostCall)) :
    Running.Stable d e fun a (t : Traced σ) => SinceEntry d base a.current t.calls a.timers where
  guardFailed _ _ hl := hl.hear rfl
  enter _ _ := sinceEntry_enter base _ _ _

theorem sinceEntry_cancelAll : ∀ (ps : List Pending) {t : Traced σ},
    SinceEntry d base s t.calls l → SinceEntry d base s (Running.cancelAll t ps).calls l
  | [], _, hl => hl
  | _ :: rest, _, hl => sinceEntry_cancelAll rest (hl.hear rfl)

theorem SinceEntry.prepare {a : Running} {op : Operation} {t : Traced σ}
    (ha : SinceEntry d base a.current t.calls a.timers) (hop : op ≠ .report) :
    SinceEntry d base (op.prepare d a t).1.current (op.prepare d a t).2.calls
      (op.prepare d a t).1.timers := by
  obtain ⟨later, hlast, hl⟩ := ha
  cases op with
  | start | step | moveTo | input => exact ⟨later, hlast, hl⟩
  | fire id =>
    simp only [Operation.prepare]
    split
    · exact ⟨later, hlast, fun p hp => hl p (List.eraseP_subset hp)⟩
    · exact ⟨later, hlast, hl⟩
  | report => exact absurd rfl hop
  | terminate => exact sinceEntry_cancelAll a.timers ⟨later, hlast, List.forall_mem_nil _⟩

/-- The pending timers of an interpreter have been granted since the entry `x` of its state. -/
def Interpreter.Since (m : Interpreter) (x : Option (String × List HostCall)) : Prop :=
  ∀ a, m.running = some a →
    ∃ calls, x = some (a.current, calls) ∧ ∀ p ∈ a.timers, Granted m.definition calls p

variable {m : Interpreter} {h : σ}

theorem since_perform (op : Operation) (hm : m.Since base) :
    (m.perform h op).interpreter.Since
      (if op = .report then base else (lastState (m.callsOf h op)).or base) := by
  intro a ha
  rw [Interpreter.definition_perform]
  split_ifs with hop
  · subst hop
    rcases hrun : m.running with _ | b
    · rw [(Interpreter.perform_of_not_started hrun (by simp)).1, hrun] at ha
      cases ha
    · simp only [Interpreter.perform, Interpreter.reportStatus, hrun] at ha
      exact hm a (hrun.trans ha)
  · have hent := Interpreter.stable_traced_started (stable_sinceEntry base)
      (fun s => sinceEntry_enter base _ _ s) (fun b hb => SinceEntry.prepare (hm b hb) hop) ha
    rwa [SinceEntry, List.reverse_reverse] at hent

end Entry

/-! ### Runs -/

section Runs

variable {σ : Type} [Host σ] {m : Interpreter} {h : σ}

theorem since_performAll : ∀ (ops : List Operation) {m : Interpreter} {h : σ}
    {base : Option (String × List HostCall)}, m.Since base →
      (m.performAll h ops).1.Since ((m.log h ops).foldl
        (fun x y => if y.1 = .report then x else (lastState y.2).or x) base)
  | [], _, _, _, hm => hm
  | op :: ops, _, _, _, hm => since_performAll ops (since_perform op hm)

theorem placed_performAll (ops : List Operation) {m : Interpreter} {h : σ}
    (hm : ∀ a, m.running = some a → a.Placed m.definition) :
    ∀ a, (m.performAll h ops).1.running = some a → a.Placed m.definition :=
  Interpreter.invariant_performAll (fun _ => Running.stable_placed)
    (fun _ _ => List.nil_sublist _) (fun _ _ _ ha => ha.prepare) ops rfl hm

theorem fire_of_not_pending {id : TimerId} (hid : id ∉ m.pendingTimers) :
    m.callsOf h (.fire id) = [] ∧ (m.perform h (.fire id)).interpreter = m
      ∧ (m.perform h (.fire id)).host = h := by
  have hall : ∀ {τ : Type} [Host τ] (k : τ), (m.perform k (.fire id)).interpreter = m
      ∧ (m.perform k (.fire id)).host = k := by
    intro τ _ k
    rcases hrun : m.running with _ | a
    · exact Interpreter.perform_of_not_started hrun (by simp)
    · have hnone : a.timers.find? (·.id = id) = none := by
        rw [Interpreter.pendingTimers, hrun] at hid
        refine List.find?_eq_none.2 fun p hp hpid => hid ?_
        exact List.mem_map.2 ⟨p, hp, by simpa using hpid⟩
      simp only [Interpreter.perform, Interpreter.fireTimer_of_not_pending hrun hnone]
      exact ⟨trivial, trivial⟩
  refine ⟨?_, hall h⟩
  rw [Interpreter.callsOf, (hall _).2]
  rfl

theorem kept_fire {a : Running} (hm : m.running = some a) (id : TimerId) :
    m.kept (.fire id) = if a.Active then m.pendingTimers.erase id else m.pendingTimers := by
  rw [Interpreter.kept, Interpreter.pendingTimers, hm]
  simp only [Operation.kept]
  split
  · exact map_id_eraseP a.timers id
  · rfl

theorem taken_fire_of_not_active {a : Running} {id : TimerId} (hm : m.running = some a)
    (ha : ¬ a.Active) : m.taken h (.fire id) = [] := by
  have hsame : (m.perform h (.fire id)).interpreter = m := by
    simp only [Interpreter.perform, Interpreter.fireTimer_of_not_active hm ha]
  rw [Interpreter.taken, hsame]
  exact if_neg fun hboth => hboth.2 hboth.1

theorem count_taken_of_ne {id other : TimerId} (hne : other ≠ id) :
    (m.taken h (.fire other)).count id = 0 := by
  rw [Interpreter.taken]
  split_ifs
  · exact List.count_eq_zero.2 fun hmem => hne (List.mem_singleton.1 hmem).symm
  · rfl

/-- A pending timer that an operation fires, and that is granted at most once, is taken. -/
theorem taken_fire {id : TimerId} (hmem : id ∈ m.pendingTimers)
    (hkept : m.kept (.fire id) = m.pendingTimers.erase id)
    (hone : m.pendingTimers.count id + (issued (m.callsOf h (.fire id))).count id ≤ 1) :
    m.taken h (.fire id) = [id] := by
  have hbal := (m.balance h (.fire id)).count_eq id
  rw [hkept, List.count_append, List.count_append, List.count_erase_self] at hbal
  have hpos : 0 < m.pendingTimers.count id := List.count_pos_iff.2 hmem
  have hgone : id ∉ (m.perform h (.fire id)).interpreter.pendingTimers :=
    List.count_eq_zero.1 (by omega)
  rw [Interpreter.taken, if_pos ⟨hmem, hgone⟩]

/-- Only the timer that is fired leaves the list, and it does not come back. -/
theorem count_kept (id : TimerId) (op : Operation)
    (hone : m.pendingTimers.count id + (issued (m.callsOf h op)).count id ≤ 1) :
    m.pendingTimers.count id = (m.kept op).count id + (m.taken h op).count id := by
  rcases hm : m.running with _ | a
  · cases op <;> simp [Interpreter.kept, Interpreter.taken, Interpreter.pendingTimers, hm]
  cases op with
  | start | step | moveTo | input | report | terminate =>
    simp [Interpreter.kept, Interpreter.taken, Interpreter.pendingTimers, Operation.kept, hm]
  | fire other =>
    have hkept := kept_fire hm other
    by_cases hact : a.Active
    · rw [if_pos hact] at hkept
      by_cases hid : other = id
      · subst hid
        by_cases hmem : other ∈ m.pendingTimers
        · have hpos : 0 < m.pendingTimers.count other := List.count_pos_iff.2 hmem
          rw [taken_fire hmem hkept hone, hkept, List.count_erase_self, List.count_singleton_self]
          omega
        · rw [Interpreter.taken, if_neg fun hboth => hmem hboth.1, hkept,
            List.erase_of_not_mem hmem]
          rfl
      · rw [count_taken_of_ne hid, hkept, List.count_erase_of_ne (Ne.symm hid)]
        rfl
    · rw [if_neg hact] at hkept
      rw [taken_fire_of_not_active hm hact, hkept]
      rfl

/-- Of a timer that is granted at most once, each operation keeps the account. -/
theorem account_perform (id : TimerId) (op : Operation)
    (hone : m.pendingTimers.count id + (issued (m.callsOf h op)).count id ≤ 1) :
    m.pendingTimers.count id + (issued (m.callsOf h op)).count id
      = (m.perform h op).interpreter.pendingTimers.count id
        + (cancelled (m.callsOf h op)).count id + (m.taken h op).count id := by
  have hbal := (m.balance h op).count_eq id
  have hkept := count_kept (h := h) id op hone
  rw [List.count_append, List.count_append] at hbal
  omega

theorem account_performAll (id : TimerId) : ∀ (ops : List Operation) {m : Interpreter} {h : σ},
    m.pendingTimers.count id + (issued (m.calls h ops)).count id ≤ 1 →
      m.pendingTimers.count id + (issued (m.calls h ops)).count id
        = (m.performAll h ops).1.pendingTimers.count id
          + (cancelled (m.calls h ops)).count id + (m.expired h ops).count id
  | [], _, _, _ => by simp [Interpreter.calls, Interpreter.log, issued, cancelled,
      Interpreter.expired, Interpreter.performAll]
  | op :: ops, m, h, hone => by
    rw [Interpreter.calls_cons] at hone ⊢
    simp only [issued, cancelled, List.filterMap_append, List.count_append, Interpreter.expired]
      at hone ⊢
    have hop := account_perform (m := m) (h := h) id op (by simp only [issued]; omega)
    simp only [issued, cancelled] at hop
    have hrest := account_performAll id ops (m := (m.perform h op).interpreter)
      (h := (m.perform h op).host) (by simp only [issued]; omega)
    simp only [issued, cancelled] at hrest
    rw [Interpreter.performAll]
    omega

end Runs

/-- Throughout a run whose host grants no timer twice, the pending timers are for different delayed
transitions of the current state, in the order of declaration, and have been granted during its
latest entry.  Every timer that was ever granted is pending, or was cancelled once, or its expiry
was taken once; firing any other timer does nothing. -/
theorem timers_accounted {σ : Type} [Host σ] (d : Definition) (e : Evaluator) (h : σ)
    (ops : List Operation)
    (hfresh : (issued ((Interpreter.ofDefinition d e).calls h ops)).Nodup) :
    let m := Interpreter.ofDefinition d e
    let after := m.performAll h ops
    (∀ a, after.1.running = some a →
        (∀ p ∈ a.timers, p.transition ∈ d.delayedFrom a.current)
          ∧ a.timers.Pairwise (·.transition < ·.transition)
          ∧ ∃ calls, latestEntry (m.log h ops) = some (a.current, calls)
            ∧ ∀ p ∈ a.timers, ∃ t ms, d.transitions[p.transition]? = some t
              ∧ HostCall.schedule ms t.target (.ok p.id) ∈ calls)
      ∧ (∀ id, after.1.pendingTimers.count id + (cancelled (m.calls h ops)).count id
          + (m.expired h ops).count id = if id ∈ issued (m.calls h ops) then 1 else 0)
      ∧ ∀ id, id ∉ after.1.pendingTimers →
        after.1.callsOf after.2 (.fire id) = []
          ∧ (after.1.perform after.2 (.fire id)).interpreter = after.1
          ∧ (after.1.perform after.2 (.fire id)).host = after.2 := by
  intro m after
  have hdef : after.1.definition = d := Interpreter.definition_performAll _ _ _
  refine ⟨fun a ha => ?_, fun id => ?_, fun id hid => fire_of_not_pending hid⟩
  · have hplaced : a.Placed d := placed_performAll ops (fun b hb => by cases hb) a ha
    have hsince : after.1.Since (latestEntry (m.log h ops)) :=
      since_performAll ops fun b hb => by cases hb
    obtain ⟨calls, hlast, hl⟩ := hsince a ha
    rw [hdef] at hl
    exact ⟨fun p hp => hplaced.mem hp, hplaced.increasing, calls, hlast, hl⟩
  · have hcount := account_performAll id ops (m := m) (h := h)
      ((Nat.zero_add _).symm ▸ List.nodup_iff_count.1 hfresh id)
    rw [← hcount, show m.pendingTimers.count id = 0 from rfl, Nat.zero_add]
    split_ifs with hid
    · exact hfresh.count.trans (if_pos hid)
    · exact List.count_eq_zero.2 hid

open CommandLine in
theorem timers_accounted_blink :
    let m := Interpreter.ofDefinition Blink.definition Blink.registry.evaluator
    let ops : List Operation := [.start, .input "start" "1", .fire ⟨0, 1⟩, .fire ⟨0, 1⟩,
      .input "stop" "1", .input "start" "1"]
    let calls := m.calls ({} : Recorder) ops
    (issued calls).Nodup ∧ issued calls = [⟨0, 1⟩, ⟨0, 2⟩, ⟨0, 3⟩]
      ∧ m.expired ({} : Recorder) ops = [⟨0, 1⟩] ∧ cancelled calls = [⟨0, 2⟩]
      ∧ (m.performAll ({} : Recorder) ops).1.pendingTimers.count ⟨0, 3⟩ = 1 := by
  intro m ops calls
  have hissued : issued calls = [⟨0, 1⟩, ⟨0, 2⟩, ⟨0, 3⟩] := by decide +kernel
  have hexpired : m.expired ({} : Recorder) ops = [⟨0, 1⟩] := by decide +kernel
  have hcancelled : cancelled calls = [⟨0, 2⟩] := by decide +kernel
  have hfresh : (issued calls).Nodup := by
    rw [hissued]
    decide
  obtain ⟨-, haccount, -⟩ := timers_accounted Blink.definition Blink.registry.evaluator
    ({} : Recorder) ops hfresh
  have hthree := haccount ⟨0, 3⟩
  rw [hexpired, hcancelled, hissued] at hthree
  exact ⟨hfresh, hissued, hexpired, hcancelled, hthree⟩

end RemoteAutomaton.Automaton
