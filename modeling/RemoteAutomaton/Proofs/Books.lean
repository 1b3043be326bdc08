import RemoteAutomaton.Proofs.Entry
import RemoteAutomaton.Proofs.Operation
import RemoteAutomaton.Proofs.Outgoing

/-!
# Books of the pending timers

`Books d Q` says that `Q` relates a host to a list of timers and follows all that an automaton does
to its timers: it adds one when the host grants it and drops the first when it is cancelled.  Then
`Q` relates the host to the pending timers after any operation, if it does so once the timer that
the operation fires has been dropped (`Books.perform`).

What the pending timers are for does not depend on the host: they belong to delayed transitions of
the current state, in the order of declaration (`placed_perform`).
-/

namespace RemoteAutomaton.Automaton

open Machine (Definition Transition Trigger)

/-- `Q` relates a host to timers, of which it takes note when they are granted and not when they
are refused. -/
structure Scheduling {σ : Type} [Host σ] (d : Definition) (Q : σ → List Pending → Prop) :
    Prop where
  failure : ∀ {h l} (e : Error), Q h l → Q (Host.notify h (.failure e)) l
  refused : ∀ {h l ms target e h'}, Host.schedule h ms target = (.error e, h') → Q h l → Q h' l
  granted : ∀ {h l ms i t id h'}, d.transitions[i]? = some t → 0 < ms →
    Host.schedule h ms t.target = (.ok id, h') → Q h l → Q h' (l ++ [⟨id, i⟩])

/-- Such a relation that is also kept by reports and follows cancellations. -/
structure Books {σ : Type} [Host σ] (d : Definition) (Q : σ → List Pending → Prop) : Prop
    extends Scheduling d Q where
  notify : ∀ {h l} (n : Notice), Q h l → Q (Host.notify h n) l
  cancel : ∀ {h p l}, Q h (p :: l) → Q (Host.cancel h p.id) l

section

variable {σ : Type} [Host σ] {d : Definition} {e : Evaluator} {Q : σ → List Pending → Prop}
  {a : Running} {h : σ}

theorem Scheduling.scheduleAll (hQ : Scheduling d Q) : ∀ (l : List Nat) {a : Running} {h : σ},
    Q h a.timers → Q (a.scheduleAll d h l).2 (a.scheduleAll d h l).1.timers
  | [], _, _, ha => ha
  | i :: rest, a, h, ha => by
    simp only [Running.scheduleAll]
    split
    · exact hQ.scheduleAll rest ha
    · rename_i t ht
      split
      · rename_i delay hd
        unfold Running.request
        rcases hms : a.resolve delay with e | ms
        · exact hQ.scheduleAll rest (hQ.failure e ha)
        · have hpos : 0 < ms := Running.resolve_pos (Array.mem_of_getElem? ht) hd hms
          rcases hs : Host.schedule h ms t.target with ⟨e | id, h'⟩
          · dsimp only
            rw [hs]
            exact hQ.scheduleAll rest (hQ.failure e (hQ.refused hs ha))
          · dsimp only
            rw [hs]
            exact hQ.scheduleAll rest (hQ.granted ht hpos hs ha)
      · exact hQ.scheduleAll rest ha

namespace Books

variable (hQ : Books d Q)

include hQ

theorem cancelAll : ∀ (l : List Pending) {h : σ}, Q h l → Q (Running.cancelAll h l) []
  | [], _, hl => hl
  | _ :: rest, _, hl => cancelAll rest (hQ.cancel hl)

theorem apply {l : List Pending} (x : Effect) (hl : Q h l) : Q (a.apply d h x).2 l := by
  cases x <;> simp only [Running.apply]
  · split <;> exact hQ.notify _ hl
  · split <;> exact hQ.notify _ hl
  · exact hQ.notify _ hl
  · exact hl

theorem applyAll {l : List Pending} : ∀ (xs : List Effect) {a : Running} {h : σ}, Q h l →
    Q (a.applyAll d h xs).2 l
  | [], _, _, hl => hl
  | x :: rest, _, _, hl => applyAll rest (hQ.apply x hl)

theorem arrive {target : String} (ha : Q h a.timers) : Q (a.arrive d e h target).2 [] := by
  have hnone : Q (Running.cancelAll h a.timers) [] := hQ.cancelAll a.timers ha
  unfold Running.arrive Running.runEntry
  split
  · unfold Running.runAction
    split
    · exact hQ.applyAll _ hnone
    · exact hQ.notify _ hnone
  · exact hnone

theorem stable : Running.Stable d e fun a h => Q h a.timers where
  guardFailed _ _ ha := hQ.notify _ ha
  enter {a h target} _ ha := by
    have harr : Q (a.arrive d e h target).2 (a.arrive d e h target).1.timers := by
      rw [Running.timers_arrive]
      exact hQ.arrive ha
    exact hQ.scheduleAll _ (hQ.notify _ harr)

theorem notifyAll {α : Type} {l : List Pending} (f : α → Notice) : ∀ (xs : List α) {h : σ},
    Q h l → Q (xs.foldl (fun h x => Host.notify h (f x)) h) l
  | [], _, hl => hl
  | x :: rest, _, hl => notifyAll f rest (hQ.notify (f x) hl)

theorem report {l : List Pending} (hl : Q h l) : Q (a.report d h) l :=
  hQ.notifyAll _ _ (hQ.notifyAll _ _ (hQ.notify _ hl))

end Books

/-- The timers that an operation finds once it has taken the one that it fires. -/
def Operation.kept (a : Running) : Operation → List Pending
  | .fire id => if a.Active then (a.release id).timers else a.timers
  | _ => a.timers

theorem Books.prepare (hQ : Books d Q) (op : Operation) (ha : Q h (op.kept a)) :
    Q (op.prepare d a h).2 (op.prepare d a h).1.timers := by
  cases op with
  | start | step | moveTo | input => exact ha
  | fire id =>
    simp only [Operation.kept] at ha
    simp only [Operation.prepare]
    split
    · rwa [if_pos ‹_›] at ha
    · rwa [if_neg ‹_›] at ha
  | report => exact hQ.report ha
  | terminate => exact hQ.cancelAll a.timers ha

/-- The pending timers are for delayed transitions of the current state, each for another one, in
the order of declaration. -/
def Running.Placed (d : Definition) (a : Running) : Prop :=
  (a.timers.map (·.transition)).Sublist (d.delayedFrom a.current)

theorem Running.placed_enter {target : String} : (a.enter d e h target).1.Placed d := by
  obtain ⟨ts, hts, hsub⟩ := Running.enter_fst d e a h target
  rw [hts, Placed, Running.current_arrive]
  exact hsub

theorem Running.stable_placed : Running.Stable d e fun a (_ : σ) => a.Placed d where
  guardFailed _ _ ha := ha
  enter _ _ := Running.placed_enter

theorem Running.Placed.release {id : TimerId} (ha : a.Placed d) : (a.release id).Placed d :=
  (List.eraseP_sublist.map _).trans ha

theorem Running.Placed.prepare {op : Operation} (ha : a.Placed d) :
    (op.prepare d a h).1.Placed d := by
  cases op with
  | start | step | moveTo | input | report => exact ha
  | fire id =>
    simp only [Operation.prepare]
    split
    · exact ha.release
    · exact ha
  | terminate => exact List.nil_sublist _

theorem Running.Placed.mem {p : Pending} (ha : a.Placed d) (hp : p ∈ a.timers) :
    p.transition ∈ d.delayedFrom a.current :=
  ha.subset (List.mem_map_of_mem hp)

theorem Running.Placed.increasing (ha : a.Placed d) :
    a.timers.Pairwise (·.transition < ·.transition) :=
  List.pairwise_map.1 ((d.delayedFrom_increasing a.current).sublist ha)

end

end RemoteAutomaton.Automaton
