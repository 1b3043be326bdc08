import Mathlib.Data.List.Nodup
import Mathlib.Logic.ExistsUnique
import RemoteAutomaton.CommandLine.Blink
import RemoteAutomaton.Proofs.Outgoing
import RemoteAutomaton.Proofs.WellFormed

/-!
# The index partitions the transitions

The lists of the declared states, one after the other, are all the transitions, each once
(`flatMap_outgoing_perm`).  The list of a state is split again by what its transitions wait for:
`Wait` is a trigger without the length of its delay, and `waitingFrom` is the list of the
transitions with that wait.  A transition is in the lists of its own source and its own wait and in
no others (`mem_waitingFrom_iff`).
-/

namespace RemoteAutomaton.Machine

/-- What a transition waits for. -/
inductive Wait where
  | nothing
  | event (name : String)
  | time
  deriving DecidableEq, Repr

def Trigger.wait : Trigger → Wait
  | immediate => .nothing
  | event name => .event name
  | delayed _ => .time

namespace Definition

/-- The transitions that leave a state and wait for the same. -/
def waitingFrom (d : Definition) (state : String) : Wait → List Nat
  | .nothing => d.immediateFrom state
  | .event name => d.eventFrom state name
  | .time => d.delayedFrom state

variable {d : Definition} {s : String} {w : Wait} {i : Nat}

/-! ### States -/

theorem mem_stateNames_of_mem_outgoing (hi : i ∈ d.outgoing s) : s ∈ d.stateNames := by
  obtain ⟨t, ht, rfl⟩ := mem_outgoing_iff.1 hi
  exact (d.transitions_fit t (Array.mem_of_getElem? ht)).source_mem

theorem outgoing_eq_nil (hs : s ∉ d.stateNames) : d.outgoing s = [] :=
  (d.outgoing_eq s).trans (leaving_eq_nil hs)

theorem eq_of_mem_outgoing {s' : String} (hi : i ∈ d.outgoing s) (hi' : i ∈ d.outgoing s') :
    s = s' := by
  obtain ⟨t, ht, rfl⟩ := mem_outgoing_iff.1 hi
  obtain ⟨t', ht', rfl⟩ := mem_outgoing_iff.1 hi'
  rw [ht] at ht'
  cases ht'
  rfl

theorem mem_outgoing_source (hi : i < d.transitions.size) :
    i ∈ d.outgoing d.transitions[i].source :=
  mem_outgoing_iff.2 ⟨_, Array.getElem?_eq_getElem hi, rfl⟩

theorem existsUnique_outgoing (hi : i < d.transitions.size) :
    ∃! s, s ∈ d.stateNames ∧ i ∈ d.outgoing s :=
  ⟨d.transitions[i].source,
    ⟨mem_stateNames_of_mem_outgoing (mem_outgoing_source hi), mem_outgoing_source hi⟩,
    fun _ hs => eq_of_mem_outgoing hs.2 (mem_outgoing_source hi)⟩

theorem nodup_flatMap_outgoing (d : Definition) : (d.stateNames.flatMap d.outgoing).Nodup := by
  refine List.nodup_flatMap.2 ⟨fun s _ => (d.outgoing_increasing s).imp Nat.ne_of_lt, ?_⟩
  refine d.states_distinct.imp fun hne i hi hi' => hne ?_
  exact eq_of_mem_outgoing hi hi'

theorem flatMap_outgoing_perm (d : Definition) :
    (d.stateNames.flatMap d.outgoing).Perm (List.range d.transitions.size) := by
  rw [List.perm_ext_iff_of_nodup d.nodup_flatMap_outgoing List.nodup_range]
  intro i
  rw [List.mem_flatMap, List.mem_range]
  constructor
  · rintro ⟨s, -, hi⟩
    obtain ⟨t, ht, -⟩ := mem_outgoing_iff.1 hi
    exact (Array.getElem?_eq_some_iff.1 ht).1
  · exact fun hi => (existsUnique_outgoing hi).exists

/-! ### Waits -/

theorem filter_triggerIs_congr {p q : Trigger → Bool} {l : List Nat}
    (h : ∀ t, p t = true ↔ q t = true) : l.filter (d.triggerIs p) = l.filter (d.triggerIs q) :=
  congrArg (fun p => l.filter (d.triggerIs p)) (funext fun t => Bool.eq_iff_iff.2 (h t))

theorem waitingFrom_eq (d : Definition) (s : String) (w : Wait) :
    d.waitingFrom s w = (d.outgoing s).filter (d.triggerIs (·.wait == w)) := by
  cases w with
  | nothing => exact filter_triggerIs_congr fun t => by cases t <;> simp [Trigger.wait]
  | event e => exact filter_triggerIs_congr fun t => by cases t <;> simp [Trigger.wait]
  | time =>
    exact filter_triggerIs_congr fun t => by cases t <;> simp [Trigger.wait, Trigger.isDelayed]

theorem waitingFrom_sublist (d : Definition) (s : String) (w : Wait) :
    (d.waitingFrom s w).Sublist (d.outgoing s) := by
  rw [waitingFrom_eq]
  exact List.filter_sublist

theorem waitingFrom_increasing (d : Definition) (s : String) (w : Wait) :
    (d.waitingFrom s w).Pairwise (· < ·) :=
  (d.outgoing_increasing s).sublist (d.waitingFrom_sublist s w)

theorem mem_waitingFrom_iff :
    i ∈ d.waitingFrom s w ↔
      ∃ t, d.transitions[i]? = some t ∧ t.source = s ∧ t.trigger.wait = w := by
  rw [waitingFrom_eq, List.mem_filter, mem_outgoing_iff, triggerIs, Option.any_eq_true]
  constructor
  · rintro ⟨⟨t, ht, hs⟩, t', ht', hw⟩
    rw [ht] at ht'
    cases ht'
    exact ⟨t, ht, hs, eq_of_beq hw⟩
  · rintro ⟨t, ht, hs, hw⟩
    exact ⟨⟨t, ht, hs⟩, t, ht, beq_iff_eq.2 hw⟩

theorem existsUnique_waitingFrom (hi : i ∈ d.outgoing s) : ∃! w, i ∈ d.waitingFrom s w := by
  obtain ⟨t, ht, hs⟩ := mem_outgoing_iff.1 hi
  refine ⟨t.trigger.wait, mem_waitingFrom_iff.2 ⟨t, ht, hs, rfl⟩, fun w hw => ?_⟩
  obtain ⟨t', ht', -, rfl⟩ := mem_waitingFrom_iff.1 hw
  rw [ht] at ht'
  cases ht'
  rfl

end Definition

end RemoteAutomaton.Machine

namespace RemoteAutomaton.Automaton

open CommandLine
open Machine (Arrow Declaration Definition)

/-- An accepted definition has its transitions as declared, and its index partitions them: by their
sources, of which each is declared, and from each state by what they wait for.  All lists are in the
order of declaration. -/
theorem index_partitions {r : Declaration} {d : Definition} (h : checkDeclaration r = .ok d) :
    d.transitions.toList = r.transitions.map Arrow.transition
      ∧ (d.stateNames.flatMap d.outgoing).Perm (List.range d.transitions.size)
      ∧ (∀ i < d.transitions.size, ∃! s, s ∈ d.stateNames ∧ i ∈ d.outgoing s)
      ∧ ∀ s,
        (d.outgoing s).Pairwise (· < ·)
        ∧ (∀ i, i ∈ d.outgoing s ↔ ∃ t, d.transitions[i]? = some t ∧ t.source = s)
        ∧ (s ∉ d.stateNames → d.outgoing s = [])
        ∧ (∀ w, (d.waitingFrom s w).Sublist (d.outgoing s)
          ∧ (d.waitingFrom s w).Pairwise (· < ·))
        ∧ ∀ i ∈ d.outgoing s, (∃! w, i ∈ d.waitingFrom s w)
          ∧ ∀ t, d.transitions[i]? = some t → i ∈ d.waitingFrom s t.trigger.wait := by
  obtain ⟨-, hr⟩ := Definition.matches_of_ofDeclaration (checkDeclaration_eq_ok_iff.1 h)
  refine ⟨hr.transitions, d.flatMap_outgoing_perm, fun i hi => Definition.existsUnique_outgoing hi,
    fun s => ⟨d.outgoing_increasing s, fun i => Definition.mem_outgoing_iff,
      Definition.outgoing_eq_nil,
      fun w => ⟨d.waitingFrom_sublist s w, d.waitingFrom_increasing s w⟩, fun i hi => ?_⟩⟩
  refine ⟨Definition.existsUnique_waitingFrom hi, fun t ht => ?_⟩
  obtain ⟨t', ht', hs⟩ := Definition.mem_outgoing_iff.1 hi
  cases ht.symm.trans ht'
  exact Definition.mem_waitingFrom_iff.2 ⟨t, ht, hs, rfl⟩

/-- `Blinking` waits for `stop` and for a time, and `Idle` for `start`. -/
theorem index_partitions_blink :
    checkDeclaration Blink.declaration = .ok Blink.definition
      ∧ Blink.definition.outgoing "Blinking" = [1, 2]
      ∧ Blink.definition.outgoing "Idle" = [0]
      ∧ Blink.definition.waitingFrom "Blinking" (.event "stop") = [1]
      ∧ Blink.definition.waitingFrom "Blinking" .time = [2]
      ∧ ((Blink.definition.stateNames.flatMap Blink.definition.outgoing).Perm [0, 1, 2])
      ∧ ∃! w, 2 ∈ Blink.definition.waitingFrom "Blinking" w := by
  have h : checkDeclaration Blink.declaration = .ok Blink.definition :=
    checkDeclaration_eq_ok_iff.2 Blink.ofDeclaration_declaration
  obtain ⟨-, hperm, -, hstates⟩ := index_partitions h
  have hout : Blink.definition.outgoing "Blinking" = [1, 2] := by decide +kernel
  have hwaits := (hstates "Blinking").2.2.2.2 2 (hout ▸ by decide)
  have hsize : Blink.definition.transitions.size = 3 := by decide +kernel
  rw [hsize] at hperm
  exact ⟨h, hout, by decide +kernel, by decide +kernel, by decide +kernel, hperm, hwaits.1⟩

end RemoteAutomaton.Automaton
