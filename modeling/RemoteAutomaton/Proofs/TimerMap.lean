import RemoteAutomaton.Proofs.Arena
import RemoteAutomaton.Timer.Schedule

/-!
# Schedules as maps from ids to timers

What a schedule holds is told by its history alone: a timer is outstanding if it was scheduled and
has since been neither cancelled nor handed out (`Outstanding`).  `Follows` is the invariant by
which a schedule and its history agree; every action keeps it (`follows_act`).

Timers may be late and the ids of cancelled ones may still arrive, so beside what a schedule does
there are the actions of its surroundings: time passes unnoticed (`wait`), one sleeper wakes
(`wake`) and the id of a timer that is gone is queued (`echo`).
-/

namespace RemoteAutomaton.Timer

open Automaton (TimerId)

/-- What is done to a schedule, or happens to it. -/
inductive Action where
  | schedule (delay : Nat) (target : String)
  | cancel (id : TimerId)
  | cancelAll
  | next
  | elapse (milliseconds : Nat)
  | wait (milliseconds : Nat)
  | wake (id : TimerId)
  | echo (id : TimerId)
  deriving DecidableEq, Repr

/-- What comes of it. -/
inductive Answer where
  | scheduled (r : Except Error TimerId)
  | cancelled (found : Bool)
  | cleared (count : Nat)
  | handedOut (x : Option Expired)
  | done

namespace Schedule

/-- Lets time pass without waking any timer. -/
def wait (s : Schedule) (milliseconds : Nat) : Schedule := { s with now := s.now + milliseconds }

/-- Queues a timer that sleeps although its deadline has been reached. -/
def wake (s : Schedule) (id : TimerId) : Schedule :=
  { s with
    asleep := s.asleep.filter fun x => ¬ (x.id = id ∧ x.deadline ≤ s.now)
    due := s.due ++ (s.asleep.filter fun x => x.id = id ∧ x.deadline ≤ s.now).map (·.id) }

/-- Queues the id of a timer that was scheduled at some time and is not outstanding. -/
def echo (s : Schedule) (id : TimerId) : Schedule :=
  if s.contains id ∨ s.arena.generation < id.generation then s else { s with due := s.due ++ [id] }

def act (s : Schedule) : Action → Answer × Schedule
  | .schedule delay target =>
    match s.schedule delay target with
    | .ok (id, s) => (.scheduled (.ok id), s)
    | .error e => (.scheduled (.error e), s)
  | .cancel id => (.cancelled (s.cancel id).1, (s.cancel id).2)
  | .cancelAll => (.cleared s.cancelAll.1, s.cancelAll.2)
  | .next => (.handedOut s.next.1, s.next.2)
  | .elapse ms => (.done, s.elapse ms)
  | .wait ms => (.done, s.wait ms)
  | .wake id => (.done, s.wake id)
  | .echo id => (.done, s.echo id)

/-- The schedule after some actions. -/
def after (s : Schedule) : List Action → Schedule
  | [] => s
  | a :: rest => after (s.act a).2 rest

/-- What was done to a schedule and what came of it, in order. -/
def history (s : Schedule) : List Action → List (Action × Answer)
  | [] => []
  | a :: rest => (a, (s.act a).1) :: history (s.act a).2 rest

end Schedule

/-! ### Histories -/

def Action.duration : Action → Nat
  | .elapse ms | .wait ms => ms
  | _ => 0

/-- The time that has passed. -/
def clock (history : List (Action × Answer)) : Nat :=
  history.foldl (fun n y => n + y.1.duration) 0

def Answer.issued? : Answer → Option TimerId
  | .scheduled (.ok id) => some id
  | _ => none

def Answer.handedOut? : Answer → Option TimerId
  | .handedOut (some x) => some x.id
  | _ => none

/-- The ids of the timers that have been scheduled. -/
def issued (history : List (Action × Answer)) : List TimerId :=
  history.filterMap (·.2.issued?)

/-- The ids of the timers that have been handed out. -/
def handedOut (history : List (Action × Answer)) : List TimerId :=
  history.filterMap (·.2.handedOut?)

/-- A timer is cancelled or handed out. -/
def Ends (id : TimerId) (y : Action × Answer) : Prop :=
  y.1 = .cancel id ∨ y.1 = .cancelAll ∨ y.2.handedOut? = some id

/-- A timer was scheduled, so many milliseconds before its deadline, and has since been neither
cancelled nor handed out. -/
def Outstanding (history : List (Action × Answer)) (x : Expired) : Prop :=
  ∃ before later delay,
    history = before ++ (.schedule delay x.target, .scheduled (.ok x.id)) :: later
      ∧ x.deadline = clock before + delay ∧ ∀ y ∈ later, ¬ Ends x.id y

section History

variable {history : List (Action × Answer)} {x : Expired} {y : Action × Answer}

theorem clock_concat : clock (history ++ [y]) = clock history + y.1.duration := by
  simp [clock]

theorem issued_concat : issued (history ++ [y]) = issued history ++ y.2.issued?.toList := by
  rw [issued, List.filterMap_append]
  cases h : y.2.issued? <;> simp [issued, h]

theorem handedOut_concat :
    handedOut (history ++ [y]) = handedOut history ++ y.2.handedOut?.toList := by
  rw [handedOut, List.filterMap_append]
  cases h : y.2.handedOut? <;> simp [handedOut, h]

/-- What is outstanding after one more action. -/
theorem outstanding_concat : Outstanding (history ++ [y]) x ↔
    (∃ delay, y = (.schedule delay x.target, .scheduled (.ok x.id))
        ∧ x.deadline = clock history + delay)
      ∨ Outstanding history x ∧ ¬ Ends x.id y := by
  constructor
  · rintro ⟨before, later, delay, hsplit, hdead, hlater⟩
    rcases List.eq_nil_or_concat later with rfl | ⟨later, z, rfl⟩
    · obtain ⟨rfl, hy⟩ := List.append_inj' hsplit rfl
      cases hy
      exact .inl ⟨delay, rfl, hdead⟩
    · rw [List.concat_eq_append, ← List.cons_append, ← List.append_assoc] at hsplit
      obtain ⟨rfl, hy⟩ := List.append_inj' hsplit rfl
      cases hy
      refine .inr ⟨⟨before, later, delay, rfl, hdead, fun w hw => hlater w ?_⟩, hlater y ?_⟩
      · simp [hw]
      · simp
  · rintro (⟨delay, rfl, hdead⟩ | ⟨⟨before, later, delay, rfl, hdead, hlater⟩, hy⟩)
    · exact ⟨history, [], delay, rfl, hdead, by simp⟩
    · refine ⟨before, later ++ [y], delay, by simp, hdead, fun w hw => ?_⟩
      rcases List.mem_append.1 hw with hw | hw
      · exact hlater w hw
      · rwa [List.mem_singleton.1 hw]

theorem outstanding_of_concat (hissued : y.2.issued? = none)
    (hx : Outstanding (history ++ [y]) x) : Outstanding history x ∧ ¬ Ends x.id y := by
  rcases outstanding_concat.1 hx with ⟨delay, rfl, -⟩ | hx
  · cases hissued
  · exact hx

end History

/-! ### The invariant -/

/-- A schedule agrees with its history. -/
structure Follows (history : List (Action × Answer)) (s : Schedule) : Prop where
  sound : s.arena.Sound
  now : s.now = clock history
  outstanding : ∀ x : Expired, Outstanding history x ↔
    s.arena.entry? x.id = some ⟨x.id.generation, x.target, x.deadline⟩
  asleep : ∀ z ∈ s.asleep, z.id.generation ≤ s.arena.generation
    ∧ ∀ e, s.arena.entry? z.id = some e → e.deadline = z.deadline
  due : ∀ id ∈ s.due, id.generation ≤ s.arena.generation
    ∧ ∀ e, s.arena.entry? id = some e → e.deadline ≤ s.now
  issued_le : ∀ id ∈ issued history, id.generation ≤ s.arena.generation
  increasing : (issued history).Pairwise (·.generation < ·.generation)
  gone : ∀ id ∈ handedOut history, id.generation ≤ s.arena.generation ∧ ¬ s.contains id
  handedOut_nodup : (handedOut history).Nodup

theorem follows_empty : Follows [] {} where
  sound := Arena.sound_empty
  now := rfl
  outstanding x := by
    constructor
    · rintro ⟨before, later, delay, hsplit, -⟩
      simp at hsplit
    · intro h
      simp [Arena.entry_eq] at h
  asleep z hz := by cases hz
  due id hid := by cases hid
  issued_le id hid := by cases hid
  increasing := .nil
  gone id hid := by cases hid
  handedOut_nodup := List.nodup_nil

section Steps

variable {history : List (Action × Answer)} {s s' : Schedule} {y : Action × Answer}

theorem Follows.contains_iff (hs : Follows history s) {id : TimerId} :
    s.contains id ↔ ∃ target deadline, Outstanding history ⟨id, target, deadline⟩ := by
  rw [Schedule.contains, Arena.contains_iff]
  constructor
  · rintro ⟨e, he⟩
    refine ⟨e.target, e.deadline, (hs.outstanding _).2 ?_⟩
    rw [he, ← (Arena.entry_eq_some.1 he).2]
  · rintro ⟨target, deadline, hx⟩
    exact ⟨_, (hs.outstanding _).1 hx⟩

theorem entry_of_generation_lt {id : TimerId} (hs : s.arena.Sound)
    (hlt : s.arena.generation < id.generation) : s.arena.entry? id = none := by
  rcases he : s.arena.entry? id with _ | e
  · rfl
  · exact absurd (hs.le_of_contains (Arena.contains_iff.2 ⟨e, he⟩)) (Nat.not_le.2 hlt)

theorem schedule_of_pos {delay : Nat} {target : String} (hpos : 0 < delay) :
    s.schedule delay target = .ok ((s.arena.insert target (s.now + delay)).1,
      { s with
        arena := (s.arena.insert target (s.now + delay)).2
        asleep := s.asleep ++ [⟨s.now + delay, (s.arena.insert target (s.now + delay)).1⟩] }) := by
  rw [Schedule.schedule, if_neg (Nat.pos_iff_ne_zero.1 hpos)]

/-- What the arena of a schedule becomes when a timer is put into it. -/
structure Issues (s : Schedule) (x : Expired) (arena : Arena) : Prop where
  sound : arena.Sound
  generation : arena.generation = s.arena.generation + 1
  newest : x.id.generation = s.arena.generation + 1
  entry : ∀ id, arena.entry? id
    = if id = x.id then some ⟨x.id.generation, x.target, x.deadline⟩ else s.arena.entry? id

theorem issues_insert (hs : s.arena.Sound) (target : String) (deadline : Nat) :
    Issues s ⟨(s.arena.insert target deadline).1, target, deadline⟩
      (s.arena.insert target deadline).2 where
  sound := hs.insert
  generation := Arena.generation_insert
  newest := Arena.generation_id_insert
  entry id := by rw [Arena.entry_insert hs, Arena.generation_id_insert]

theorem Issues.entry_of_le {x : Expired} {arena : Arena} (hx : Issues s x arena) {id : TimerId}
    (hle : id.generation ≤ s.arena.generation) : arena.entry? id = s.arena.entry? id := by
  have hnewest := hx.newest
  rw [hx.entry, if_neg]
  rintro rfl
  omega

/-- A timer that is scheduled is outstanding, under an id that is newer than any other. -/
theorem Follows.issue (hs : Follows history s) {x : Expired} {arena : Arena}
    (hx : Issues s x arena) {delay : Nat} (hdelay : x.deadline = s.now + delay) :
    Follows (history ++ [(.schedule delay x.target, .scheduled (.ok x.id))])
      { s with arena, asleep := s.asleep ++ [⟨x.deadline, x.id⟩] } := by
  have hgen := hx.generation
  have hnewest := hx.newest
  constructor
  case sound => exact hx.sound
  case now =>
    rw [clock_concat, ← hs.now]
    rfl
  case outstanding =>
    obtain ⟨id, target, deadline⟩ := x
    have hfresh : s.arena.entry? id = none :=
      entry_of_generation_lt hs.sound (Nat.lt_of_lt_of_eq (Nat.lt_succ_self _) hnewest.symm)
    rintro ⟨other, target', deadline'⟩
    rw [outstanding_concat, hs.outstanding, hx.entry]
    by_cases hid : other = id
    · subst hid
      rw [if_pos rfl, hfresh]
      constructor
      · rintro (⟨delay', hy, hdead⟩ | ⟨h, -⟩)
        · cases hy
          rw [hdead, hdelay, hs.now]
        · cases h
      · intro h
        cases h
        exact .inl ⟨delay, rfl, by rw [hdelay, hs.now]⟩
    · rw [if_neg hid]
      constructor
      · rintro (⟨delay', hy, -⟩ | ⟨h, -⟩)
        · cases hy
          exact absurd rfl hid
        · exact h
      · exact fun h => .inr ⟨h, by simp [Ends, Answer.handedOut?]⟩
  case asleep =>
    intro z hz
    dsimp only at hz ⊢
    rw [hgen]
    rcases List.mem_append.1 hz with hz | hz
    · obtain ⟨hle, hdead⟩ := hs.asleep z hz
      rw [hx.entry_of_le hle]
      exact ⟨Nat.le_succ_of_le hle, hdead⟩
    · obtain rfl := List.mem_singleton.1 hz
      rw [hx.entry, if_pos rfl]
      refine ⟨Nat.le_of_eq hnewest, fun e he => ?_⟩
      cases he
      rfl
  case due =>
    intro id hid
    obtain ⟨hle, hdead⟩ := hs.due id hid
    dsimp only
    rw [hgen, hx.entry_of_le hle]
    exact ⟨Nat.le_succ_of_le hle, hdead⟩
  case issued_le =>
    intro id hid
    rw [issued_concat, List.mem_append] at hid
    dsimp only
    rw [hgen]
    rcases hid with hid | hid
    · exact Nat.le_succ_of_le (hs.issued_le id hid)
    · obtain rfl := List.mem_singleton.1 hid
      exact Nat.le_of_eq hnewest
  case increasing =>
    rw [issued_concat]
    refine List.pairwise_append.2 ⟨hs.increasing, List.pairwise_singleton _ _, ?_⟩
    intro id hid id' hid'
    obtain rfl := List.mem_singleton.1 hid'
    have hle := hs.issued_le id hid
    omega
  case gone =>
    intro id hid
    rw [handedOut_concat, List.mem_append] at hid
    rcases hid with hid | hid
    · obtain ⟨hle, hnot⟩ := hs.gone id hid
      dsimp only
      rw [hgen, Schedule.contains, Arena.contains, hx.entry_of_le hle]
      exact ⟨Nat.le_succ_of_le hle, hnot⟩
    · cases hid
  case handedOut_nodup =>
    rw [handedOut_concat]
    simpa [Answer.handedOut?] using hs.handedOut_nodup

/-- An action that schedules nothing takes exactly those timers out of the arena that it ends.  It
may wake sleepers whose deadline has been reached and queue timers that are gone. -/
theorem Follows.step (hs : Follows history s) (hsound : s'.arena.Sound)
    (hgen : s'.arena.generation = s.arena.generation)
    (hentry : ∀ id e, s'.arena.entry? id = some e ↔ s.arena.entry? id = some e ∧ ¬ Ends id y)
    (hnow : s'.now = s.now + y.1.duration) (hasleep : s'.asleep ⊆ s.asleep)
    (hdue : ∀ id ∈ s'.due, id ∈ s.due ∨ (∃ z ∈ s.asleep, z.id = id ∧ z.deadline ≤ s'.now)
      ∨ id.generation ≤ s.arena.generation ∧ ¬ s.contains id)
    (hissued : y.2.issued? = none)
    (hhanded : ∀ id, y.2.handedOut? = some id → s.contains id) :
    Follows (history ++ [y]) s' := by
  have hsub : ∀ {id}, s'.contains id → s.contains id ∧ ¬ Ends id y := by
    intro id hid
    obtain ⟨e, he⟩ := Arena.contains_iff.1 hid
    obtain ⟨he', hend⟩ := (hentry id e).1 he
    exact ⟨Arena.contains_iff.2 ⟨e, he'⟩, hend⟩
  constructor
  case sound => exact hsound
  case now =>
    rw [clock_concat, ← hs.now, hnow]
  case outstanding =>
    intro x
    rw [outstanding_concat, hs.outstanding, hentry]
    constructor
    · rintro (⟨delay, rfl, -⟩ | h)
      · cases hissued
      · exact h
    · exact .inr
  case asleep =>
    intro z hz
    obtain ⟨hle, hdead⟩ := hs.asleep z (hasleep hz)
    rw [hgen]
    exact ⟨hle, fun e he => hdead e ((hentry _ e).1 he).1⟩
  case due =>
    intro id hid
    rw [hgen, hnow]
    rw [hnow] at hdue
    rcases hdue id hid with hid | ⟨z, hz, rfl, hdead⟩ | ⟨hle, hnot⟩
    · obtain ⟨hle, hdead⟩ := hs.due id hid
      exact ⟨hle, fun e he => Nat.le_add_right_of_le (hdead e ((hentry _ e).1 he).1)⟩
    · obtain ⟨hle, hsame⟩ := hs.asleep z hz
      exact ⟨hle, fun e he => hsame e ((hentry _ e).1 he).1 ▸ hdead⟩
    · refine ⟨hle, fun e he => absurd ?_ hnot⟩
      exact Arena.contains_iff.2 ⟨e, ((hentry _ e).1 he).1⟩
  case issued_le =>
    rw [issued_concat, hissued, hgen]
    simpa using hs.issued_le
  case increasing =>
    rw [issued_concat, hissued]
    simpa using hs.increasing
  case gone =>
    intro id hid
    rw [handedOut_concat, List.mem_append, Option.mem_toList] at hid
    rw [hgen]
    rcases hid with hid | hid
    · obtain ⟨hle, hnot⟩ := hs.gone id hid
      exact ⟨hle, fun hc => hnot (hsub hc).1⟩
    · exact ⟨hs.sound.le_of_contains (hhanded id hid), fun hc => (hsub hc).2 (.inr (.inr hid))⟩
  case handedOut_nodup =>
    rw [handedOut_concat]
    refine List.nodup_append.2 ⟨hs.handedOut_nodup, by cases y.2.handedOut? <;> simp, ?_⟩
    rintro id hid _ hnew rfl
    exact (hs.gone id hid).2 (hhanded id (Option.mem_toList.1 hnew))

/-- An action that ends no timer leaves the arena as it is. -/
theorem Follows.keep (hs : Follows history s) (harena : s'.arena = s.arena)
    (hend : ∀ id, s.contains id → ¬ Ends id y) (hnow : s'.now = s.now + y.1.duration)
    (hasleep : s'.asleep ⊆ s.asleep)
    (hdue : ∀ id ∈ s'.due, id ∈ s.due ∨ (∃ z ∈ s.asleep, z.id = id ∧ z.deadline ≤ s'.now)
      ∨ id.generation ≤ s.arena.generation ∧ ¬ s.contains id)
    (hissued : y.2.issued? = none) (hhanded : y.2.handedOut? = none) :
    Follows (history ++ [y]) s' := by
  refine hs.step (harena ▸ hs.sound) (harena ▸ rfl) ?_ hnow hasleep hdue hissued ?_
  · intro id e
    rw [harena]
    constructor
    · exact fun he => ⟨he, hend id (Arena.contains_iff.2 ⟨e, he⟩)⟩
    · exact And.left
  · rw [hhanded]
    exact fun id h => by cases h

end Steps

/-! ### Claiming -/

section Claim

open Schedule (claim)

/-- Nothing is claimed only if no queued timer is outstanding. -/
theorem claim_none : ∀ {due : List TimerId} {a a' : Arena} {rest : List TimerId},
    claim a due = (none, a', rest) → a' = a ∧ rest = [] ∧ ∀ id ∈ due, ¬ a.contains id
  | [], _, _, _, h => by
    cases h
    exact ⟨rfl, rfl, List.forall_mem_nil _⟩
  | id :: due, a, a', rest, h => by
    simp only [claim] at h
    split at h
    · cases h
    · rename_i hnone
      obtain ⟨ha, hrest, hdue⟩ := claim_none h
      exact ⟨ha, hrest, List.forall_mem_cons.2 ⟨Arena.take_eq_none.1 hnone, hdue⟩⟩

/-- What is claimed is taken out of the arena, with what it was scheduled for. -/
theorem claim_some : ∀ {due : List TimerId} {a a' : Arena} {x : Expired} {rest : List TimerId},
    claim a due = (some x, a', rest) → ∃ e, a.take x.id = some (e, a') ∧ x.target = e.target
      ∧ x.deadline = e.deadline ∧ x.id ∈ due ∧ rest ⊆ due
  | [], _, _, _, _, h => by cases h
  | id :: due, a, a', x, rest, h => by
    simp only [claim] at h
    split at h
    · rename_i e a'' he
      cases h
      exact ⟨e, he, rfl, rfl, List.mem_cons_self .., List.subset_cons_self ..⟩
    · obtain ⟨e, he, htarget, hdead, hmem, hsub⟩ := claim_some h
      exact ⟨e, he, htarget, hdead, List.mem_cons_of_mem _ hmem, List.subset_cons_of_subset _ hsub⟩

end Claim

/-! ### Runs -/

section Runs

variable {history : List (Action × Answer)} {s : Schedule}

theorem not_ends {id : TimerId} {y : Action × Answer} (hcancel : y.1 ≠ .cancel id)
    (hall : y.1 ≠ .cancelAll) (hhanded : y.2.handedOut? = none) : ¬ Ends id y := by
  rintro (h | h | h)
  · exact hcancel h
  · exact hall h
  · rw [hhanded] at h
    cases h

theorem Follows.cancel (hs : Follows history s) (id : TimerId) :
    Follows (history ++ [(.cancel id, (s.act (.cancel id)).1)]) (s.act (.cancel id)).2 := by
  simp only [Schedule.act, Schedule.cancel]
  split
  · rename_i e arena ht
    refine hs.step (Arena.Sound.take ht hs.sound) (Arena.generation_take ht) ?_ rfl ?_
      (fun _ h => .inl h) rfl (fun _ h => by cases h)
    · intro other x
      dsimp only
      rw [Arena.entry_take ht]
      by_cases hid : other = id
      · simp [hid, Ends]
      · have hend : ¬ Ends other (.cancel id, .cancelled true) :=
          not_ends (fun h => hid (Action.cancel.inj h).symm) (by simp) rfl
        simp [hid, hend]
    · exact List.filter_sublist.subset
  · rename_i hnone
    refine hs.keep rfl ?_ rfl (List.Subset.refl _) (fun _ h => .inl h) rfl rfl
    intro other hcontains
    refine not_ends (fun h => ?_) (by simp) rfl
    cases h
    exact Arena.take_eq_none.1 hnone hcontains

theorem Follows.cancelAll (hs : Follows history s) :
    Follows (history ++ [(.cancelAll, (s.act .cancelAll).1)]) (s.act .cancelAll).2 := by
  refine hs.step hs.sound.clear rfl ?_ rfl (List.nil_subset _) (fun _ h => .inl h) rfl
    (fun _ h => by cases h)
  intro id e
  simp [Schedule.act, Schedule.cancelAll, Arena.entry_clear, Ends]

theorem Follows.next (hs : Follows history s) :
    Follows (history ++ [(.next, (s.act .next).1)]) (s.act .next).2 := by
  simp only [Schedule.act, Schedule.next]
  rcases hc : Schedule.claim s.arena s.due with ⟨_ | x, arena, due⟩
  · obtain ⟨rfl, rfl, -⟩ := claim_none hc
    exact hs.keep rfl (fun _ _ => not_ends (by simp) (by simp) rfl) rfl (List.Subset.refl _)
      (fun _ h => by cases h) rfl rfl
  · obtain ⟨e, ht, -, -, -, hsub⟩ := claim_some hc
    refine hs.step (Arena.Sound.take ht hs.sound) (Arena.generation_take ht) ?_ rfl
      (List.Subset.refl _) (fun _ h => .inl (hsub h)) rfl ?_
    · intro other z
      dsimp only
      rw [Arena.entry_take ht]
      by_cases hid : other = x.id
      · simp [hid, Ends, Answer.handedOut?]
      · simp [hid, Ends, Answer.handedOut?, Ne.symm hid]
    · intro id hid
      cases hid
      exact Arena.contains_iff.2 ⟨e, (Arena.take_eq_some.1 ht).1⟩

theorem follows_act (hs : Follows history s) (a : Action) :
    Follows (history ++ [(a, (s.act a).1)]) (s.act a).2 := by
  have hnone : ∀ {b : Action}, (∀ id, b ≠ .cancel id) → b ≠ .cancelAll → ∀ id, s.contains id →
      ¬ Ends id (b, .done) := fun hcancel hall id _ => not_ends (hcancel id) hall rfl
  cases a with
  | schedule delay target =>
    rcases Nat.eq_zero_or_pos delay with rfl | hpos
    · exact hs.keep rfl (fun _ _ => not_ends (by simp) (by simp) rfl) rfl (List.Subset.refl _)
        (fun _ h => .inl h) rfl rfl
    · simp only [Schedule.act, schedule_of_pos hpos]
      exact hs.issue (issues_insert hs.sound target (s.now + delay)) rfl
  | cancel id => exact hs.cancel id
  | cancelAll => exact hs.cancelAll
  | next => exact hs.next
  | elapse ms =>
    refine hs.keep rfl (hnone (by simp) (by simp)) rfl (List.filter_sublist.subset) ?_ rfl rfl
    intro id hid
    simp only [Schedule.act, Schedule.elapse, List.mem_append, List.mem_map, List.mem_mergeSort,
      List.mem_filter, decide_eq_true_eq] at hid
    rcases hid with hid | ⟨z, ⟨hz, hdead⟩, rfl⟩
    · exact .inl hid
    · exact .inr (.inl ⟨z, hz, rfl, hdead⟩)
  | wait ms =>
    exact hs.keep rfl (hnone (by simp) (by simp)) rfl (List.Subset.refl _) (fun _ h => .inl h) rfl
      rfl
  | wake id =>
    refine hs.keep rfl (hnone (by simp) (by simp)) rfl (List.filter_sublist.subset) ?_ rfl rfl
    intro other hid
    simp only [Schedule.act, Schedule.wake, List.mem_append, List.mem_map, List.mem_filter,
      decide_eq_true_eq] at hid
    rcases hid with hid | ⟨z, ⟨hz, -, hdead⟩, rfl⟩
    · exact .inl hid
    · exact .inr (.inl ⟨z, hz, rfl, hdead⟩)
  | echo id =>
    simp only [Schedule.act, Schedule.echo]
    split
    · exact hs.keep rfl (hnone (by simp) (by simp)) rfl (List.Subset.refl _) (fun _ h => .inl h)
        rfl rfl
    · rename_i hid
      obtain ⟨hnot, hle⟩ := not_or.1 hid
      refine hs.keep rfl (hnone (by simp) (by simp)) rfl (List.Subset.refl _) ?_ rfl rfl
      intro other hother
      rcases List.mem_append.1 hother with h | h
      · exact .inl h
      · rw [List.mem_singleton.1 h]
        exact .inr (.inr ⟨Nat.le_of_not_lt hle, hnot⟩)

/-- What every action of a run keeps holds after the run. -/
theorem after_invariant {P : List (Action × Answer) → Schedule → Prop} :
    ∀ (actions : List Action), (∀ a ∈ actions, ∀ {history s}, P history s →
        P (history ++ [(a, (s.act a).1)]) (s.act a).2) →
      ∀ {history s}, P history s → P (history ++ s.history actions) (s.after actions)
  | [], _, history, s, hs => by simpa [Schedule.history, Schedule.after] using hs
  | a :: rest, hstep, history, s, hs => by
    have hrest := after_invariant rest (fun b hb => hstep b (List.mem_cons_of_mem _ hb))
      (hstep a List.mem_cons_self hs)
    rwa [List.append_assoc] at hrest

theorem follows_after (actions : List Action) (hs : Follows history s) :
    Follows (history ++ s.history actions) (s.after actions) :=
  after_invariant (P := Follows) actions (fun a _ _ _ hs => follows_act hs a) hs

end Runs

/-- Whatever is done to a schedule, and however late its timers are, it is a map that its history
determines: it contains the timers that were scheduled and have since been neither cancelled nor
handed out.  Every action answers as it should for that map, ids are never used twice, and a timer
is handed out once at most, not before its deadline, as it was scheduled. -/
theorem schedule_is_map (actions : List Action) :
    let s := Schedule.after {} actions
    let history := Schedule.history {} actions
    (issued history).Pairwise (·.generation < ·.generation)
      ∧ (∀ id, s.contains id ↔
          ∃ target deadline, Outstanding history ⟨id, target, deadline⟩)
      ∧ (∃ ids : List TimerId, ids.Nodup ∧ (∀ id, id ∈ ids ↔ s.contains id) ∧ s.size = ids.length)
      ∧ (∀ target, ∃ e, s.act (.schedule 0 target) = (.scheduled (.error e), s))
      ∧ (∀ delay target, 0 < delay → ∃ id, (s.act (.schedule delay target)).1 = .scheduled (.ok id)
          ∧ ∀ other ∈ issued history, other.generation < id.generation)
      ∧ (∀ id, (s.cancel id).1 = s.contains id)
      ∧ s.cancelAll.1 = s.size
      ∧ (∀ x, s.next.1 = some x → Outstanding history x ∧ x.deadline ≤ clock history)
      ∧ (s.next.1 = none → ∀ id ∈ s.due, ¬ s.contains id)
      ∧ (handedOut history).Nodup := by
  intro s history
  have hs : Follows history s := follows_after actions follows_empty
  refine ⟨hs.increasing, fun id => ?_,
    ⟨s.arena.ids, s.arena.nodup_ids, fun id => Arena.mem_ids, s.arena.size_eq⟩,
    fun target => ⟨_, rfl⟩, fun delay target hpos => ?_, fun id => ?_, s.arena.length_occupiedFrom,
    fun x hx => ?_, fun hx => ?_, hs.handedOut_nodup⟩
  · rw [Schedule.contains, Arena.contains_iff]
    constructor
    · rintro ⟨e, he⟩
      obtain ⟨-, hgen⟩ := Arena.entry_eq_some.1 he
      refine ⟨e.target, e.deadline, (hs.outstanding _).2 ?_⟩
      rw [he, ← hgen]
    · rintro ⟨target, deadline, h⟩
      exact ⟨_, (hs.outstanding _).1 h⟩
  · refine ⟨(s.arena.insert target (s.now + delay)).1, ?_, fun other hother => ?_⟩
    · rw [Schedule.act, schedule_of_pos hpos]
    · rw [Arena.generation_id_insert]
      exact Nat.lt_succ_of_le (hs.issued_le other hother)
  · rw [Schedule.cancel]
    split
    · rename_i e arena ht
      exact (Arena.contains_iff.2 ⟨e, (Arena.take_eq_some.1 ht).1⟩).symm
    · rename_i hnone
      exact (Bool.eq_false_iff.2 (Arena.take_eq_none.1 hnone)).symm
  · rcases hc : Schedule.claim s.arena s.due with ⟨r, arena, due⟩
    rw [Schedule.next, hc] at hx
    cases hx
    obtain ⟨e, ht, htarget, hdead, hmem, -⟩ := claim_some hc
    have he := (Arena.take_eq_some.1 ht).1
    rw [← hs.now, hdead]
    refine ⟨(hs.outstanding x).2 ?_, (hs.due x.id hmem).2 e he⟩
    rw [he, htarget, hdead, ← (Arena.entry_eq_some.1 he).2]
  · rcases hc : Schedule.claim s.arena s.due with ⟨r, arena, due⟩
    rw [Schedule.next, hc] at hx
    cases hx
    exact (claim_none hc).2.2

/-- The first timer is due and cancelled, and its slot used again: its expiry is passed over. -/
example :
    let s := Schedule.after {} [.schedule 10 "On", .elapse 10, .cancel ⟨0, 1⟩, .schedule 20 "Off"]
    s.due = [⟨0, 1⟩] ∧ s.contains ⟨0, 2⟩ ∧ s.next.1 = none := by
  decide +kernel

end RemoteAutomaton.Timer
