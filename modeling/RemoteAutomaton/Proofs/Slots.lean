import Mathlib.Data.List.Nodup
import Mathlib.Order.Bounds.Basic
import RemoteAutomaton.Proofs.TimerMap

/-!
# The slots of an arena

The free list of an arena holds every empty slot once, so a new timer never takes the place of
another.  A slot is made only when all of them are occupied, and then all are occupied again: so an
arena has as many slots as there were ever timers outstanding at the same time.
-/

namespace RemoteAutomaton.Timer

open Automaton (TimerId)

namespace Arena

variable {a a' : Arena} {id : TimerId} {e : Entry} {target : String} {deadline : Nat}

theorem size_le_length (a : Arena) : a.size ≤ a.slots.length := List.countP_le_length

theorem Sound.size_of_free_eq_nil (ha : a.Sound) (hfree : a.free = []) :
    a.size = a.slots.length := by
  rw [size, List.countP_eq_length]
  intro slot hslot
  obtain ⟨i, hi⟩ := List.mem_iff_getElem?.1 hslot
  cases slot with
  | none =>
    have hmem := (ha.mem_free i).2 hi
    rw [hfree] at hmem
    cases hmem
  | some e => rfl

theorem insert_of_free_eq_nil (hfree : a.free = []) :
    (a.insert target deadline).2.free = []
      ∧ (a.insert target deadline).2.slots.length = a.slots.length + 1 := by
  rw [insert, hfree]
  exact ⟨rfl, List.length_append⟩

theorem length_insert_of_free_ne_nil (hfree : a.free ≠ []) :
    (a.insert target deadline).2.slots.length = a.slots.length := by
  obtain ⟨i, free, hfree⟩ := List.exists_cons_of_ne_nil hfree
  rw [insert, hfree]
  exact List.length_set

theorem Sound.slots_insert_of_some (ha : a.Sound) {i : Nat} (hi : a.slots[i]? = some (some e)) :
    (a.insert target deadline).2.slots[i]? = some (some e) := by
  rw [slots_insert ha, if_neg]
  · exact hi
  · rintro rfl
    have hvacant : a.slots[(a.insert target deadline).1.index]?.join = none := vacant_insert ha
    rw [hi] at hvacant
    cases hvacant

theorem length_take (ht : a.take id = some (e, a')) : a'.slots.length = a.slots.length := by
  obtain ⟨-, rfl⟩ := take_eq_some.1 ht
  exact List.length_set

theorem length_clear (a : Arena) : a.clear.slots.length = a.slots.length := List.length_map ..

end Arena

/-- So many timers are outstanding. -/
def OutstandingCount (history : List (Action × Answer)) (n : Nat) : Prop :=
  ∃ ids : List TimerId, ids.Nodup
    ∧ (∀ id, id ∈ ids ↔ ∃ target deadline, Outstanding history ⟨id, target, deadline⟩)
    ∧ ids.length = n

/-- The numbers of timers that have been outstanding at the same time. -/
def countsSoFar (history : List (Action × Answer)) : Set Nat :=
  {n | ∃ past, past <+: history ∧ OutstandingCount past n}

section Steps

variable {history : List (Action × Answer)} {s s' : Schedule} {y : Action × Answer}

theorem Outstanding.mem_issued {x : Expired} (hx : Outstanding history x) :
    x.id ∈ issued history := by
  obtain ⟨before, later, delay, rfl, -⟩ := hx
  exact List.mem_filterMap.2 ⟨_, List.mem_append_right _ List.mem_cons_self, rfl⟩

theorem Follows.outstandingCount_iff (hs : Follows history s) {n : Nat} :
    OutstandingCount history n ↔ n = s.size := by
  constructor
  · rintro ⟨ids, hnodup, hmem, rfl⟩
    refine (Arena.size_eq_length hnodup fun id => ?_).symm
    rw [hmem]
    exact hs.contains_iff
  · rintro rfl
    refine ⟨s.arena.ids, s.arena.nodup_ids, fun id => ?_, s.arena.size_eq.symm⟩
    rw [Arena.mem_ids]
    exact hs.contains_iff

theorem Follows.mem_issued (hs : Follows history s) {i : Nat} {e : Entry}
    (hi : s.arena.slots[i]? = some (some e)) : ⟨i, e.generation⟩ ∈ issued history := by
  have hx : Outstanding history ⟨⟨i, e.generation⟩, e.target, e.deadline⟩ :=
    (hs.outstanding _).2 (Arena.entry_eq_some.2 ⟨hi, rfl⟩)
  exact hx.mem_issued

/-- No two slots hold timers of one generation. -/
theorem Follows.index_eq (hs : Follows history s) {i j : Nat} {e f : Entry}
    (hi : s.arena.slots[i]? = some (some e)) (hj : s.arena.slots[j]? = some (some f))
    (hgen : e.generation = f.generation) : i = j := by
  have hdistinct : ((issued history).map (·.generation)).Nodup :=
    List.pairwise_map.2 (hs.increasing.imp Nat.ne_of_lt)
  have hid := List.inj_on_of_nodup_map hdistinct (hs.mem_issued hi) (hs.mem_issued hj) hgen
  exact congrArg TimerId.index hid

/-- The number of slots stays as it is, unless a timer comes to slots that are all occupied. -/
theorem length_slots_act (s : Schedule) (a : Action) :
    (s.act a).2.arena.slots.length = s.arena.slots.length
      ∨ s.arena.free = [] ∧ (s.act a).2.arena.free = []
        ∧ (s.act a).2.arena.slots.length = s.arena.slots.length + 1 := by
  cases a with
  | schedule delay target =>
    rcases Nat.eq_zero_or_pos delay with rfl | hpos
    · exact .inl rfl
    · simp only [Schedule.act, schedule_of_pos hpos]
      by_cases hfree : s.arena.free = []
      · exact .inr ⟨hfree, Arena.insert_of_free_eq_nil hfree⟩
      · exact .inl (Arena.length_insert_of_free_ne_nil hfree)
  | cancel id =>
    simp only [Schedule.act, Schedule.cancel]
    split
    · rename_i ht
      exact .inl (Arena.length_take ht)
    · exact .inl rfl
  | cancelAll => exact .inl (Arena.length_clear _)
  | next =>
    simp only [Schedule.act, Schedule.next]
    rcases hc : Schedule.claim s.arena s.due with ⟨_ | x, arena, due⟩
    · exact .inl (by rw [(claim_none hc).1])
    · obtain ⟨e, ht, -⟩ := claim_some hc
      exact .inl (Arena.length_take ht)
  | elapse ms => exact .inl rfl
  | wait ms => exact .inl rfl
  | wake id => exact .inl rfl
  | echo id =>
    simp only [Schedule.act, Schedule.echo]
    split <;> exact .inl rfl

theorem countsSoFar_concat (hs' : Follows (history ++ [y]) s') :
    countsSoFar (history ++ [y]) = insert s'.size (countsSoFar history) := by
  ext n
  constructor
  · rintro ⟨past, hpast, hcount⟩
    rcases List.prefix_concat_iff.1 hpast with rfl | hpast
    · exact .inl (hs'.outstandingCount_iff.1 hcount)
    · exact .inr ⟨past, hpast, hcount⟩
  · rintro (hn | ⟨past, hpast, hcount⟩)
    · exact ⟨_, List.prefix_refl _, hs'.outstandingCount_iff.2 hn⟩
    · exact ⟨past, hpast.trans (List.prefix_append _ _), hcount⟩

theorem isGreatest_empty : IsGreatest (countsSoFar []) ({} : Schedule).arena.slots.length := by
  constructor
  · exact ⟨[], List.prefix_refl _, follows_empty.outstandingCount_iff.2 rfl⟩
  · rintro n ⟨past, hpast, hcount⟩
    rw [List.prefix_nil.1 hpast] at hcount
    exact Nat.le_of_eq (follows_empty.outstandingCount_iff.1 hcount)

theorem isGreatest_act (hs : Follows history s)
    (h : IsGreatest (countsSoFar history) s.arena.slots.length) (a : Action) :
    IsGreatest (countsSoFar (history ++ [(a, (s.act a).1)])) (s.act a).2.arena.slots.length := by
  have hs' := follows_act hs a
  have hmax : (s.act a).2.arena.slots.length = max (s.act a).2.size s.arena.slots.length := by
    have hle := (s.act a).2.arena.size_le_length
    rcases length_slots_act s a with hsame | ⟨-, hfree, hgrown⟩
    · rw [hsame] at hle ⊢
      exact (max_eq_right hle).symm
    · rw [Schedule.size, hs'.sound.size_of_free_eq_nil hfree, hgrown]
      exact (max_eq_left (Nat.le_succ _)).symm
  rw [countsSoFar_concat hs', hmax]
  exact h.insert _

theorem isGreatest_after (actions : List Action)
    (h : Follows history s ∧ IsGreatest (countsSoFar history) s.arena.slots.length) :
    Follows (history ++ s.history actions) (s.after actions)
      ∧ IsGreatest (countsSoFar (history ++ s.history actions))
        (s.after actions).arena.slots.length := by
  refine after_invariant (P := fun history s => Follows history s
    ∧ IsGreatest (countsSoFar history) s.arena.slots.length) actions ?_ h
  exact fun a _ _ _ h => ⟨follows_act h.1 a, isGreatest_act h.1 h.2 a⟩

end Steps

/-- Whatever is done to a schedule, the free list of its arena holds every empty slot once, every
timer has a generation of its own, and a new one is put where none is.  There are as many slots as
there were ever timers outstanding at the same time, and another one is made only when none is
free. -/
theorem arena_is_tight (actions : List Action) :
    let s := Schedule.after {} actions
    let history := Schedule.history {} actions
    s.arena.free.Nodup
      ∧ (∀ i : Nat, i ∈ s.arena.free ↔ s.arena.slots[i]? = some none)
      ∧ (∀ (i : Nat) (e : Entry), s.arena.slots[i]? = some (some e) →
        e.generation ≤ s.arena.generation)
      ∧ (∀ (i j : Nat) (e f : Entry), s.arena.slots[i]? = some (some e) →
        s.arena.slots[j]? = some (some f) → e.generation = f.generation → i = j)
      ∧ (∀ delay target (i : Nat) (e : Entry), s.arena.slots[i]? = some (some e) →
        (s.act (.schedule delay target)).2.arena.slots[i]? = some (some e))
      ∧ IsGreatest (countsSoFar history) s.arena.slots.length
      ∧ ∀ a, s.arena.slots.length < (s.act a).2.arena.slots.length → s.arena.free = [] := by
  intro s history
  obtain ⟨hs, h⟩ : Follows history s ∧ IsGreatest (countsSoFar history) s.arena.slots.length :=
    isGreatest_after actions ⟨follows_empty, isGreatest_empty⟩
  refine ⟨hs.sound.free_nodup, hs.sound.mem_free, hs.sound.generation_le,
    fun i j e f hi hj hgen => hs.index_eq hi hj hgen, fun delay target i e he => ?_, h,
    fun a hgrows => ?_⟩
  · rcases Nat.eq_zero_or_pos delay with rfl | hpos
    · exact he
    · simp only [Schedule.act, schedule_of_pos hpos]
      exact hs.sound.slots_insert_of_some he
  · rcases length_slots_act s a with hsame | ⟨hfree, -⟩
    · exact absurd hsame (Nat.ne_of_gt hgrows)
    · exact hfree

end RemoteAutomaton.Timer
