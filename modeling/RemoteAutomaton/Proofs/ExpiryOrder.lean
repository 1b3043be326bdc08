import Mathlib.Data.List.DropRight
import Mathlib.Data.Prod.Lex
import RemoteAutomaton.Proofs.TimerMap

/-!
# The order in which timers expire

Timers are handed out in the order of their deadlines, and those of one deadline in the order in
which they were scheduled.  The queue of a schedule may hold ids of timers that are gone; what
counts are the timers in it that are outstanding (`queued`).  The timers that have been handed out,
followed by those that are queued, are in order (`InTurn`): handing one out moves it from the second
list to the first, and an advance of the clock adds later ones at the end.
-/

namespace RemoteAutomaton.Timer

open Automaton (TimerId)
open Schedule (claim)

/-- The place of a timer in the order of expiry. -/
def Expired.rank (x : Expired) : Nat ×ₗ Nat := toLex (x.deadline, x.id.generation)

def Sleeper.rank (z : Sleeper) : Nat ×ₗ Nat := toLex (z.deadline, z.id.generation)

/-- The outstanding timer with an id, as it is handed out. -/
def Arena.timer? (a : Arena) (id : TimerId) : Option Expired :=
  (a.entry? id).map fun e => ⟨id, e.target, e.deadline⟩

/-- The timers that are due and outstanding, in the order of the queue. -/
def Schedule.queued (s : Schedule) : List Expired := s.due.filterMap s.arena.timer?

/-- The sleepers that an advance of the clock to some time wakes, in the order of their rank. -/
def Schedule.woken (s : Schedule) (time : Nat) : List Sleeper :=
  (s.asleep.filter (·.deadline ≤ time)).mergeSort Sleeper.before

def Answer.expired? : Answer → Option Expired
  | .handedOut x => x
  | _ => none

/-- The timers that have been handed out. -/
def expiries (history : List (Action × Answer)) : List Expired :=
  history.filterMap (·.2.expired?)

def Action.isAdvance : Action → Bool
  | .elapse _ => true
  | _ => false

/-- The time of the last advance of the clock. -/
def advanced (history : List (Action × Answer)) : Nat :=
  clock (history.rdropWhile (! ·.1.isAdvance))

section History

variable {history : List (Action × Answer)} {x : Expired} {y : Action × Answer}

theorem expiries_concat :
    expiries (history ++ [y]) = expiries history ++ y.2.expired?.toList := by
  rw [expiries, List.filterMap_append]
  cases h : y.2.expired? <;> simp [expiries, h]

theorem expiries_concat_of_none (hexpired : y.2.expired? = none) :
    expiries (history ++ [y]) = expiries history := by
  rw [expiries_concat, hexpired, Option.toList_none, List.append_nil]

theorem advanced_concat (hadv : y.1.isAdvance = false) :
    advanced (history ++ [y]) = advanced history := by
  rw [advanced, List.rdropWhile_concat_pos _ _ _ (by simp [hadv]), advanced]

theorem advanced_concat_elapse {ms : Nat} {r : Answer} :
    advanced (history ++ [(.elapse ms, r)]) = clock history + ms := by
  rw [advanced, List.rdropWhile_concat_neg _ _ _ (by simp [Action.isAdvance]), clock_concat]
  rfl

theorem advanced_le_clock (history : List (Action × Answer)) :
    advanced history ≤ clock history := by
  induction history using List.reverseRecOn with
  | nil => exact Nat.le_refl _
  | append_singleton history y ih =>
    cases hadv : y.1.isAdvance with
    | false =>
      rw [advanced_concat hadv, clock_concat]
      exact Nat.le_add_right_of_le ih
    | true =>
      rw [advanced, List.rdropWhile_concat_neg _ _ _ (by simp [hadv])]

end History

/-! ### The queue -/

section Queue

variable {history history' : List (Action × Answer)} {s s' : Schedule} {x : Expired}

theorem Arena.timer?_eq_none {a : Arena} {id : TimerId} :
    a.timer? id = none ↔ ¬ a.contains id := by
  rw [Arena.timer?, Option.map_eq_none_iff, Arena.contains, Option.not_isSome_iff_eq_none]

theorem Sleeper.before_iff {a b : Sleeper} : a.before b = true ↔ a.rank ≤ b.rank := by
  rw [Sleeper.rank, Sleeper.rank, Prod.Lex.toLex_le_toLex, Sleeper.before]
  simp

theorem Schedule.mem_woken {time : Nat} {z : Sleeper} :
    z ∈ s.woken time ↔ z ∈ s.asleep ∧ z.deadline ≤ time := by
  rw [Schedule.woken, List.mem_mergeSort, List.mem_filter, decide_eq_true_eq]

theorem Schedule.queued_elapse (s : Schedule) (ms : Nat) : (s.elapse ms).queued
    = s.queued ++ (s.woken (s.now + ms)).filterMap (s.arena.timer? ·.id) := by
  have hdue : (s.elapse ms).due = s.due ++ (s.woken (s.now + ms)).map (·.id) := rfl
  rw [Schedule.queued, hdue, List.filterMap_append, List.filterMap_map]
  rfl

theorem Follows.advanced_le_now (hs : Follows history s) : advanced history ≤ s.now := by
  rw [hs.now]
  exact advanced_le_clock history

theorem Follows.timer?_eq_some (hs : Follows history s) {id : TimerId} :
    s.arena.timer? id = some x ↔ x.id = id ∧ Outstanding history x := by
  rw [Arena.timer?, Option.map_eq_some_iff, hs.outstanding]
  constructor
  · rintro ⟨e, he, rfl⟩
    refine ⟨rfl, ?_⟩
    rw [he, ← (Arena.entry_eq_some.1 he).2]
  · rintro ⟨rfl, he⟩
    exact ⟨_, he, rfl⟩

theorem Follows.rank_eq (hs : Follows history s) {z : Sleeper} (hz : z ∈ s.asleep)
    (hx : s.arena.timer? z.id = some x) : x.deadline = z.deadline ∧ x.rank = z.rank := by
  obtain ⟨e, he, rfl⟩ := Option.map_eq_some_iff.1 hx
  rw [Expired.rank, Sleeper.rank, (hs.asleep z hz).2 e he]
  exact ⟨rfl, rfl⟩

theorem Follows.mem_queued (hs : Follows history s) :
    x ∈ s.queued ↔ x.id ∈ s.due ∧ Outstanding history x := by
  simp [Schedule.queued, hs.timer?_eq_some]

theorem filterMap_sublist_filterMap {α β : Type} {f g : α → Option β}
    (h : ∀ a b, f a = some b → g a = some b) : ∀ l : List α, (l.filterMap f).Sublist (l.filterMap g)
  | [] => .slnil
  | a :: l => by
    rw [List.filterMap_cons, List.filterMap_cons]
    cases hf : f a with
    | none => cases g a with
      | none => exact filterMap_sublist_filterMap h l
      | some b => exact (filterMap_sublist_filterMap h l).cons b
    | some b =>
      rw [h a b hf]
      exact (filterMap_sublist_filterMap h l).cons_cons b

/-- When no timer is added, what is queued of some ids can only become less. -/
theorem Follows.filterMap_sublist (hs : Follows history s) (hs' : Follows history' s')
    (hout : ∀ x, Outstanding history' x → Outstanding history x) (ids : List TimerId) :
    (ids.filterMap s'.arena.timer?).Sublist (ids.filterMap s.arena.timer?) := by
  refine filterMap_sublist_filterMap (fun id x hx => ?_) ids
  rw [hs'.timer?_eq_some] at hx
  exact hs.timer?_eq_some.2 ⟨hx.1, hout x hx.2⟩

theorem queued_of_claim : ∀ {due : List TimerId} {a a' : Arena} {x : Expired} {rest : List TimerId},
    claim a due = (some x, a', rest) → due.filterMap a.timer? = x :: rest.filterMap a.timer?
  | [], _, _, _, _, h => by cases h
  | id :: due, a, a', x, rest, h => by
    simp only [claim] at h
    split at h
    · rename_i e a'' ht
      cases h
      rw [List.filterMap_cons_some]
      rw [Arena.timer?, (Arena.take_eq_some.1 ht).1, Option.map_some]
    · rename_i hnone
      rw [List.filterMap_cons_none (Arena.timer?_eq_none.2 (Arena.take_eq_none.1 hnone)),
        queued_of_claim h]

end Queue

/-! ### The invariant -/

/-- The timers that have been handed out and those that are queued are in order, and have been
reached by the last advance; every other timer that is outstanding sleeps, and has not. -/
structure InTurn (history : List (Action × Answer)) (s : Schedule) : Prop where
  ordered : (expiries history ++ s.queued).Pairwise (·.rank < ·.rank)
  reached : ∀ x ∈ expiries history ++ s.queued, x.deadline ≤ advanced history
  asleep : ∀ z ∈ s.asleep, advanced history < z.deadline
  spawned : s.asleep.Pairwise (·.id.generation < ·.id.generation)
  waiting : ∀ x, Outstanding history x → x.id ∈ s.due ∨ ⟨x.deadline, x.id⟩ ∈ s.asleep

theorem inTurn_empty : InTurn [] {} where
  ordered := .nil
  reached := List.forall_mem_nil _
  asleep := List.forall_mem_nil _
  spawned := .nil
  waiting x := by
    rintro ⟨before, later, delay, hsplit, -⟩
    simp at hsplit

section Steps

variable {history : List (Action × Answer)} {s s' : Schedule} {y : Action × Answer}

/-- Between advances and new timers, those that are queued are handed out in turn or go. -/
theorem InTurn.keep (h : InTurn history s) (hadv : y.1.isAdvance = false)
    (hissued : y.2.issued? = none)
    (hsub : (expiries (history ++ [y]) ++ s'.queued).Sublist (expiries history ++ s.queued))
    (hasleep : s'.asleep.Sublist s.asleep)
    (hwaiting : ∀ x, Outstanding history x → ¬ Ends x.id y → (x.id ∈ s.due → x.id ∈ s'.due)
      ∧ (⟨x.deadline, x.id⟩ ∈ s.asleep → ⟨x.deadline, x.id⟩ ∈ s'.asleep)) :
    InTurn (history ++ [y]) s' where
  ordered := h.ordered.sublist hsub
  reached x hx := by
    rw [advanced_concat hadv]
    exact h.reached x (hsub.subset hx)
  asleep z hz := by
    rw [advanced_concat hadv]
    exact h.asleep z (hasleep.subset hz)
  spawned := h.spawned.sublist hasleep
  waiting x hx := by
    obtain ⟨hx, hend⟩ := outstanding_of_concat hissued hx
    obtain ⟨hdue, hsleeps⟩ := hwaiting x hx hend
    exact (h.waiting x hx).imp hdue hsleeps

/-- An action that hands nothing out and leaves the queue alone. -/
theorem InTurn.keep_of_due_eq (hs : Follows history s) (hs' : Follows (history ++ [y]) s')
    (h : InTurn history s) (hadv : y.1.isAdvance = false) (hissued : y.2.issued? = none)
    (hexpired : y.2.expired? = none) (hdue : s'.due = s.due)
    (hasleep : s'.asleep.Sublist s.asleep)
    (hsleeps : ∀ x, Outstanding history x → ¬ Ends x.id y →
      ⟨x.deadline, x.id⟩ ∈ s.asleep → ⟨x.deadline, x.id⟩ ∈ s'.asleep) :
    InTurn (history ++ [y]) s' := by
  refine h.keep hadv hissued ?_ hasleep fun x hx hend => ⟨fun h => hdue ▸ h, hsleeps x hx hend⟩
  rw [expiries_concat_of_none hexpired, Schedule.queued, hdue]
  exact List.Sublist.append_left
    (hs.filterMap_sublist hs' (fun x hx => (outstanding_of_concat hissued hx).1) _) _

/-- A timer that is scheduled sleeps beyond the last advance. -/
theorem InTurn.issue (hs : Follows history s) (h : InTurn history s) {x : Expired} {arena : Arena}
    (hx : Issues s x arena) {delay : Nat} (hdelay : x.deadline = s.now + delay) (hpos : 0 < delay) :
    InTurn (history ++ [(.schedule delay x.target, .scheduled (.ok x.id))])
      { s with arena, asleep := s.asleep ++ [⟨x.deadline, x.id⟩] } := by
  have hqueued : s.due.filterMap arena.timer? = s.queued := by
    refine List.filterMap_congr fun id hid => ?_
    rw [Arena.timer?, Arena.timer?, hx.entry_of_le (hs.due id hid).1]
  constructor
  case ordered =>
    rw [expiries_concat_of_none rfl, Schedule.queued, hqueued]
    exact h.ordered
  case reached =>
    rw [expiries_concat_of_none rfl, Schedule.queued, hqueued, advanced_concat rfl]
    exact h.reached
  case asleep =>
    intro z hz
    rw [advanced_concat rfl]
    rcases List.mem_append.1 hz with hz | hz
    · exact h.asleep z hz
    · rw [List.mem_singleton.1 hz]
      exact hdelay ▸ Nat.lt_of_le_of_lt hs.advanced_le_now (Nat.lt_add_of_pos_right hpos)
  case spawned =>
    refine List.pairwise_append.2 ⟨h.spawned, List.pairwise_singleton _ _, fun z hz w hw => ?_⟩
    rw [List.mem_singleton.1 hw, hx.newest]
    exact Nat.lt_succ_of_le (hs.asleep z hz).1
  case waiting =>
    intro z hz
    rcases outstanding_concat.1 hz with ⟨delay', hy, hdead⟩ | ⟨hz, -⟩
    · obtain ⟨id, target, deadline⟩ := z
      cases hy
      refine .inr (List.mem_append_right _ (List.mem_singleton.2 ?_))
      rw [hdead, ← hs.now, hdelay]
    · exact (h.waiting z hz).imp_right (List.mem_append_left _)

/-- The timers that an advance to some time wakes are in order. -/
theorem InTurn.woken_ordered (hs : Follows history s) (h : InTurn history s) (time : Nat) :
    ((s.woken time).filterMap (s.arena.timer? ·.id)).Pairwise (·.rank < ·.rank) := by
  have hsorted : (s.woken time).Pairwise (·.before · = true) := by
    refine List.pairwise_mergeSort (fun a b c hab hbc => ?_) (fun a b => ?_) _
    · rw [Sleeper.before_iff] at hab hbc ⊢
      exact hab.trans hbc
    · rw [Bool.or_eq_true, Sleeper.before_iff, Sleeper.before_iff]
      exact le_total _ _
  have hdistinct : (s.woken time).Pairwise (·.id.generation ≠ ·.id.generation) := by
    refine (List.mergeSort_perm ..).symm.pairwise ?_ fun h => h.symm
    exact (h.spawned.sublist List.filter_sublist).imp Nat.ne_of_lt
  rw [List.pairwise_filterMap]
  refine (hsorted.and hdistinct).imp_of_mem fun {z w} hz hw hzw x hx y hy => ?_
  rw [(hs.rank_eq (Schedule.mem_woken.1 hz).1 hx).2, (hs.rank_eq (Schedule.mem_woken.1 hw).1 hy).2]
  refine lt_of_le_of_ne (Sleeper.before_iff.1 hzw.1) fun heq => hzw.2 ?_
  exact congrArg (fun r => (ofLex r).2) heq

theorem InTurn.deadline_of_woken (hs : Follows history s) (h : InTurn history s) {time : Nat}
    {x : Expired} (hx : x ∈ (s.woken time).filterMap (s.arena.timer? ·.id)) :
    advanced history < x.deadline ∧ x.deadline ≤ time := by
  obtain ⟨z, hz, hzx⟩ := List.mem_filterMap.1 hx
  obtain ⟨hz, hreached⟩ := Schedule.mem_woken.1 hz
  rw [(hs.rank_eq hz hzx).1]
  exact ⟨h.asleep z hz, hreached⟩

/-- What becomes due comes after what was due: it has a later deadline, whatever its age. -/
theorem InTurn.elapse (hs : Follows history s) (h : InTurn history s) (ms : Nat) :
    InTurn (history ++ [(.elapse ms, .done)]) (s.elapse ms) := by
  have hqueued : expiries (history ++ [(.elapse ms, .done)]) ++ (s.elapse ms).queued
      = (expiries history ++ s.queued)
        ++ (s.woken (s.now + ms)).filterMap (s.arena.timer? ·.id) := by
    rw [expiries_concat_of_none rfl, s.queued_elapse, List.append_assoc]
  constructor
  case ordered =>
    rw [hqueued]
    refine List.pairwise_append.2 ⟨h.ordered, h.woken_ordered hs _, fun x hx y hy => ?_⟩
    have hlt := Nat.lt_of_le_of_lt (h.reached x hx) (h.deadline_of_woken hs hy).1
    exact Prod.Lex.toLex_lt_toLex.2 (.inl hlt)
  case reached =>
    intro x hx
    rw [hqueued] at hx
    rw [advanced_concat_elapse, ← hs.now]
    rcases List.mem_append.1 hx with hx | hx
    · exact (h.reached x hx).trans (Nat.le_add_right_of_le hs.advanced_le_now)
    · exact (h.deadline_of_woken hs hx).2
  case asleep =>
    intro z hz
    rw [advanced_concat_elapse, ← hs.now]
    exact of_decide_eq_true (List.mem_filter.1 hz).2
  case spawned => exact h.spawned.sublist List.filter_sublist
  case waiting =>
    intro x hx
    rcases h.waiting x (outstanding_of_concat rfl hx).1 with hdue | hsleeps
    · exact .inl (List.mem_append_left _ hdue)
    · rcases Nat.lt_or_ge (s.now + ms) x.deadline with hlt | hge
      · exact .inr (List.mem_filter.2 ⟨hsleeps, decide_eq_true hlt⟩)
      · exact .inl (List.mem_append_right _
          (List.mem_map_of_mem (f := Sleeper.id) (Schedule.mem_woken.2 ⟨hsleeps, hge⟩)))

theorem InTurn.cancel (hs : Follows history s) (h : InTurn history s) (id : TimerId) :
    InTurn (history ++ [(.cancel id, (s.act (.cancel id)).1)]) (s.act (.cancel id)).2 := by
  have hs' := follows_act hs (.cancel id)
  simp only [Schedule.act, Schedule.cancel] at hs' ⊢
  split
  · rename_i ht
    rw [ht] at hs'
    refine h.keep_of_due_eq hs hs' rfl rfl rfl rfl List.filter_sublist fun x _ hend hx => ?_
    have hid : x.id ≠ id := fun hid => hend (.inl (by rw [hid]))
    exact List.mem_filter.2 ⟨hx, decide_eq_true hid⟩
  · rename_i ht
    rw [ht] at hs'
    exact h.keep_of_due_eq hs hs' rfl rfl rfl rfl (List.Sublist.refl _) fun _ _ _ hx => hx

/-- Handing out leaves a part of what was due, since an id that is claimed may have been queued
twice. -/
theorem InTurn.next (hs : Follows history s) (h : InTurn history s) :
    InTurn (history ++ [(.next, (s.act .next).1)]) (s.act .next).2 := by
  have hs' := follows_act hs .next
  simp only [Schedule.act, Schedule.next] at hs' ⊢
  rcases hc : claim s.arena s.due with ⟨_ | x, arena, due⟩
  · obtain ⟨rfl, rfl, hgone⟩ := claim_none hc
    refine h.keep rfl rfl ?_ (List.Sublist.refl _) fun x hx _ => ⟨fun hdue => ?_, id⟩
    · rw [expiries_concat_of_none rfl]
      exact (List.nil_sublist _).append_left _
    · exact absurd (hs.contains_iff.2 ⟨_, _, hx⟩) (hgone x.id hdue)
  · have hqueued : s.queued = x :: due.filterMap s.arena.timer? := queued_of_claim hc
    rw [hc] at hs'
    refine h.keep rfl rfl ?_ (List.Sublist.refl _) fun z hz hend => ⟨fun hdue => ?_, id⟩
    · rw [expiries_concat, Answer.expired?, Option.toList_some, List.append_assoc, hqueued]
      refine List.Sublist.append_left (List.Sublist.cons_cons x ?_) _
      exact hs.filterMap_sublist hs' (fun z hz => (outstanding_of_concat rfl hz).1) due
    · have hmem := hs.mem_queued.2 ⟨hdue, hz⟩
      rw [hqueued] at hmem
      rcases List.mem_cons.1 hmem with rfl | hmem
      · exact absurd (.inr (.inr rfl)) hend
      · obtain ⟨id, hid, htimer⟩ := List.mem_filterMap.1 hmem
        rwa [(hs.timer?_eq_some.1 htimer).1]

/-- The id of a timer that is gone finds nothing, wherever it stands in the queue. -/
theorem InTurn.echo (h : InTurn history s) (id : TimerId) :
    InTurn (history ++ [(.echo id, .done)]) (s.echo id) := by
  have hqueued : (s.echo id).queued = s.queued := by
    rw [Schedule.echo]
    split
    · rfl
    · rename_i hid
      have hnone := Arena.timer?_eq_none.2 (not_or.1 hid).1
      rw [Schedule.queued, List.filterMap_append, List.filterMap_cons_none hnone]
      exact List.append_nil _
  have hasleep : (s.echo id).asleep = s.asleep := by
    rw [Schedule.echo]
    split <;> rfl
  have hdue : s.due ⊆ (s.echo id).due := by
    rw [Schedule.echo]
    split
    · exact List.Subset.refl _
    · exact List.subset_append_left _ _
  refine h.keep rfl rfl ?_ (hasleep ▸ List.Sublist.refl _) fun x _ _ => ⟨fun hx => hdue hx, ?_⟩
  · rw [expiries_concat_of_none rfl, hqueued]
  · rw [hasleep]
    exact fun hx => hx

theorem inTurn_act (hs : Follows history s) (h : InTurn history s) {a : Action}
    (ha : ∀ id, a ≠ .wake id) : InTurn (history ++ [(a, (s.act a).1)]) (s.act a).2 := by
  have hs' := follows_act hs a
  cases a with
  | schedule delay target =>
    rcases Nat.eq_zero_or_pos delay with rfl | hpos
    · exact h.keep_of_due_eq hs hs' rfl rfl rfl rfl (List.Sublist.refl _) fun _ _ _ hx => hx
    · simp only [Schedule.act, schedule_of_pos hpos]
      exact h.issue hs (issues_insert hs.sound target (s.now + delay)) rfl hpos
  | cancel id => exact h.cancel hs id
  | cancelAll =>
    refine h.keep_of_due_eq hs hs' rfl rfl rfl rfl (List.nil_sublist _) fun x _ hend => ?_
    exact absurd (.inr (.inl rfl)) hend
  | next => exact h.next hs
  | elapse ms => exact h.elapse hs ms
  | wait ms =>
    exact h.keep_of_due_eq hs hs' rfl rfl rfl rfl (List.Sublist.refl _) fun _ _ _ hx => hx
  | wake id => exact absurd rfl (ha id)
  | echo id => exact h.echo id

theorem inTurn_after (actions : List Action) (hactions : ∀ id, .wake id ∉ actions)
    (h : Follows history s ∧ InTurn history s) :
    Follows (history ++ s.history actions) (s.after actions)
      ∧ InTurn (history ++ s.history actions) (s.after actions) := by
  refine after_invariant (P := fun history s => Follows history s ∧ InTurn history s) actions ?_ h
  intro a ha history s h
  exact ⟨follows_act h.1 a, inTurn_act h.1 h.2 fun id hid => hactions id (hid ▸ ha)⟩

end Steps

/-- If sleepers wake only when the clock is advanced, timers are handed out in the order of their
deadlines and, those of one deadline, in the order in which they were scheduled.  When there is
nothing to hand out, every timer that the last advance has reached was handed out or cancelled. -/
theorem handed_out_in_order (actions : List Action) (hactions : ∀ id, .wake id ∉ actions) :
    let s := Schedule.after {} actions
    let history := Schedule.history {} actions
    (expiries history).Pairwise (·.rank < ·.rank)
      ∧ (s.next.1 = none → ∀ past later delay target id,
        history = past ++ (.schedule delay target, .scheduled (.ok id)) :: later →
        clock past + delay ≤ advanced history → ∃ y ∈ later, Ends id y) := by
  intro s history
  obtain ⟨hs, h⟩ : Follows history s ∧ InTurn history s :=
    inTurn_after actions hactions ⟨follows_empty, inTurn_empty⟩
  refine ⟨(List.pairwise_append.1 h.ordered).1, ?_⟩
  intro hnone past later delay target id hsplit hdead
  by_contra hlater
  have hx : Outstanding history ⟨id, target, clock past + delay⟩ :=
    ⟨past, later, delay, hsplit, rfl, fun y hy hend => hlater ⟨y, hy, hend⟩⟩
  rcases hc : claim s.arena s.due with ⟨r, arena, due⟩
  rw [Schedule.next, hc] at hnone
  cases hnone
  rcases h.waiting _ hx with hdue | hsleeps
  · exact (claim_none hc).2.2 id hdue (hs.contains_iff.2 ⟨_, _, hx⟩)
  · exact Nat.not_le.2 (h.asleep _ hsleeps) hdead

/-- A timer is cancelled while it is queued and its slot used again; its id stays in the queue. -/
theorem handed_out_in_order_reused :
    let actions : List Action := [.schedule 300 "Off", .schedule 100 "Left", .schedule 200 "On",
      .elapse 100, .elapse 100, .cancel ⟨1, 2⟩, .schedule 30 "Blink", .next, .elapse 30, .elapse 70,
      .next, .next]
    let history := Schedule.history {} actions
    (∀ id, .wake id ∉ actions)
      ∧ (expiries history).map (·.target) = ["On", "Blink", "Off"]
      ∧ (expiries history).Pairwise (·.rank < ·.rank)
      ∧ (Schedule.after {} actions).next.1 = none ∧ advanced history = 300
      ∧ ∃ y ∈ history.drop 2, Ends ⟨1, 2⟩ y := by
  intro actions history
  have hactions : ∀ id, .wake id ∉ actions := by simp [actions]
  have hnone : (Schedule.after {} actions).next.1 = none := by decide +kernel
  have hadvanced : advanced history = 300 := by decide +kernel
  obtain ⟨hordered, hall⟩ := handed_out_in_order actions hactions
  refine ⟨hactions, by decide +kernel, hordered, hnone, hadvanced, ?_⟩
  exact hall hnone (history.take 1) (history.drop 2) 100 "Left" ⟨1, 2⟩ rfl
    (hadvanced ▸ by decide +kernel)

end RemoteAutomaton.Timer
