import RemoteAutomaton.Engine.Loop
import RemoteAutomaton.Proofs.Books
import RemoteAutomaton.Proofs.TimerMap

/-!
# The timers of a link

A link keeps the timers of an automaton in an arena: it holds exactly the pending ones, each for the
state that its transition leads to (`Holds`).  So a link is a host that keeps books of the pending
timers (`books_holds`).  Nothing that a link sends touches its timers.
-/

namespace RemoteAutomaton.Engine

open Automaton (Books Host Notice Pending TimerId)
open Machine (Definition)
open Network (Socket Transport)
open Timer (Arena)

/-! ### Arenas that hold the pending timers -/

structure Holds (d : Definition) (a : Arena) (ps : List Pending) : Prop where
  sound : a.Sound
  distinct : (ps.map (·.id.generation)).Nodup
  entry : ∀ p ∈ ps, ∃ t deadline, d.transitions[p.transition]? = some t
    ∧ a.entry? p.id = some ⟨p.id.generation, t.target, deadline⟩
  only : ∀ id, a.contains id → id ∈ ps.map (·.id)

section Holds

variable {d : Definition} {a : Arena} {ps : List Pending}

theorem Holds.nodup (h : Holds d a ps) : (ps.map (·.id)).Nodup := by
  refine List.pairwise_map.2 ((List.pairwise_map.1 h.distinct).imp fun hgen hid => hgen ?_)
  rw [hid]

theorem Holds.contains_iff (h : Holds d a ps) (id : TimerId) :
    a.contains id ↔ id ∈ ps.map (·.id) := by
  refine ⟨h.only id, fun hid => ?_⟩
  obtain ⟨p, hp, rfl⟩ := List.mem_map.1 hid
  obtain ⟨t, deadline, -, he⟩ := h.entry p hp
  exact Arena.contains_iff.2 ⟨_, he⟩

theorem Holds.size_eq (h : Holds d a ps) : a.size = (ps.map (·.id)).length :=
  Arena.size_eq_length h.nodup h.contains_iff

theorem holds_empty : Holds d {} [] where
  sound := Arena.sound_empty
  distinct := List.nodup_nil
  entry := List.forall_mem_nil _
  only id hid := by simp [Arena.contains, Arena.entry_eq] at hid

theorem Holds.fresh (h : Holds d a ps) (target : String) (deadline : Nat) :
    (a.insert target deadline).1.generation ∉ ps.map (·.id.generation) := by
  intro hmem
  obtain ⟨p, hp, hgen⟩ := List.mem_map.1 hmem
  have hle := h.sound.le_of_contains ((h.contains_iff _).2 (List.mem_map_of_mem hp))
  rw [hgen, Arena.generation_id_insert] at hle
  exact Nat.not_succ_le_self _ hle

/-- A timer that is put into the arena is pending. -/
theorem Holds.insert {t : Machine.Transition} {i deadline : Nat} (h : Holds d a ps)
    (ht : d.transitions[i]? = some t) :
    Holds d (a.insert t.target deadline).2
      (ps ++ [⟨(a.insert t.target deadline).1, i⟩]) where
  sound := h.sound.insert
  distinct := by
    rw [List.map_append]
    refine List.nodup_append.2 ⟨h.distinct, by simp, ?_⟩
    rintro gen hgen gen' hgen' rfl
    obtain rfl := List.mem_singleton.1 hgen'
    exact h.fresh t.target deadline hgen
  entry p hp := by
    rcases List.mem_append.1 hp with hp | hp
    · obtain ⟨u, deadline', hu, he⟩ := h.entry p hp
      have hne : p.id ≠ (a.insert t.target deadline).1 := fun heq =>
        h.fresh t.target deadline (heq ▸ List.mem_map.2 ⟨p, hp, rfl⟩)
      refine ⟨u, deadline', hu, ?_⟩
      rw [Arena.entry_insert h.sound, if_neg hne, he]
    · obtain rfl := List.mem_singleton.1 hp
      refine ⟨t, deadline, ht, ?_⟩
      rw [Arena.entry_insert h.sound, if_pos rfl, Arena.generation_id_insert]
  only id hid := by
    rw [Arena.contains, Arena.entry_insert h.sound] at hid
    rw [List.map_append, List.mem_append]
    split at hid
    · rename_i heq
      exact .inr (List.mem_singleton.2 heq)
    · exact .inl (h.only id hid)

/-- A timer that is taken out of the arena is no longer pending. -/
theorem Holds.take {id : TimerId} {e : Timer.Entry} {a' : Arena} (h : Holds d a ps)
    (ht : a.take id = some (e, a')) : Holds d a' (ps.eraseP (·.id = id)) where
  sound := Arena.Sound.take ht h.sound
  distinct := h.distinct.sublist (List.eraseP_sublist.map _)
  entry p hp := by
    obtain ⟨t, deadline, htr, he⟩ := h.entry p (List.eraseP_subset hp)
    have hmem : p.id ∈ (ps.eraseP (·.id = id)).map (·.id) := List.mem_map_of_mem hp
    rw [Automaton.map_id_eraseP, h.nodup.mem_erase_iff] at hmem
    refine ⟨t, deadline, htr, ?_⟩
    rw [Arena.entry_take ht, if_neg hmem.1, he]
  only other hother := by
    rw [Arena.contains, Arena.entry_take ht] at hother
    rw [Automaton.map_id_eraseP, h.nodup.mem_erase_iff]
    split at hother
    · cases hother
    · rename_i hne
      exact ⟨hne, h.only other hother⟩

end Holds

/-! ### Links -/

namespace Link

variable {σ : Type} [Socket σ] {l : Link σ}

omit [Socket σ] in
theorem timers_noteSent {r : Except Network.Error Unit × Transport σ} :
    (l.noteSent r).timers = l.timers := by
  unfold noteSent
  split <;> rfl

theorem timers_send {m : Message.Outbound} : (l.send m).timers = l.timers := timers_noteSent

theorem timers_sendError {text : String} : (l.sendError text).timers = l.timers := timers_send

theorem timers_flush : l.flush.timers = l.timers := timers_noteSent

omit [Socket σ] in
theorem timers_waitFailed {reason : String} : (l.waitFailed reason).timers = l.timers := by
  unfold waitFailed
  split
  · exact timers_noteSent
  · rfl

theorem timers_notify {n : Notice} : (Host.notify l n).timers = l.timers := by
  cases n with
  | failure e => exact timers_sendError
  | state | output | var | log => exact timers_send

theorem timers_notifyAll : ∀ (ns : List Notice) {l : Link σ},
    (ns.foldl Host.notify l).timers = l.timers
  | [], _ => rfl
  | _ :: ns, _ => (timers_notifyAll ns).trans timers_notify

end Link

theorem timers_drainQueue {σ : Type} [Socket σ] {l : Link σ} :
    (drainQueue l).timers = l.timers := by
  fun_induction drainQueue l with
  | case1 l h => rfl
  | case2 l h l' hw flushed hlt ih => exact ih.trans Link.timers_flush
  | case3 l h l' hw flushed hlt => exact Link.timers_flush
  | case4 l h l' hw => rfl

theorem books_holds {σ : Type} [Socket σ] (d : Definition) :
    Books d fun (l : Link σ) ps => Holds d l.timers.arena ps where
  failure e hl := by rwa [Link.timers_notify]
  notify n hl := by rwa [Link.timers_notify]
  cancel {l p ps} hl := by
    obtain ⟨t, deadline, -, he⟩ := hl.entry p (List.mem_cons_self ..)
    have htake := Arena.take_eq_some.2 ⟨he, rfl⟩
    have hps := hl.take htake
    rw [List.eraseP_cons_of_pos (by simp)] at hps
    simp only [Host.cancel, Link.cancel, Timer.Schedule.cancel, htake]
    exact hps
  refused {l ps ms target e l'} hs hl := by
    simp only [Host.schedule, Link.schedule] at hs
    split at hs
    · cases hs
    · cases hs
      exact hl
  granted {l ps ms i t id l'} ht hms hs hl := by
    simp only [Host.schedule, Link.schedule, Timer.schedule_of_pos hms] at hs
    cases hs
    exact hl.insert ht

end RemoteAutomaton.Engine
