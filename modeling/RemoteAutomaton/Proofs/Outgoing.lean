import RemoteAutomaton.Machine.Definition

/-!
# The transitions that leave a state

The index of a machine lists for every state exactly the transitions that leave it, by increasing
number (`outgoing_eq`, `outgoing_increasing`).
-/

namespace RemoteAutomaton.Machine

theorem lookup_zip_map {β : Type} (f : String → β) (s : String) : ∀ l : List String,
    (l.zip (l.map f)).lookup s = if s ∈ l then some (f s) else none
  | [] => rfl
  | x :: rest => by
    rw [List.map_cons, List.zip_cons_cons, List.lookup_cons, lookup_zip_map f s rest]
    by_cases h : s = x
    · subst h
      simp
    · have hb : (s == x) = false := beq_eq_false_iff_ne.2 h
      simp [h, hb]

namespace Definition

variable {d : Definition} {s : String} {i : Nat}

theorem leaving_eq_nil (hs : s ∉ d.stateNames) : Graph.leaving d.transitions s = [] := by
  refine List.filter_eq_nil_iff.2 fun i _ hi => hs ?_
  obtain ⟨t, ht, hts⟩ := (Option.any_eq_true _ _).1 hi
  rw [← eq_of_beq hts]
  exact (d.transitions_fit t (Array.mem_of_getElem? ht)).source_mem

/-- The index lists exactly the transitions that leave a state, whether it is declared or not. -/
theorem outgoing_eq (d : Definition) (s : String) :
    d.outgoing s = Graph.leaving d.transitions s := by
  rw [outgoing, d.index_eq]
  change ((d.stateNames.zip (d.stateNames.map _)).lookup s).getD [] = _
  rw [lookup_zip_map]
  split
  · rfl
  · rename_i hs
    exact (leaving_eq_nil hs).symm

theorem mem_outgoing_iff :
    i ∈ d.outgoing s ↔ ∃ t, d.transitions[i]? = some t ∧ t.source = s := by
  rw [outgoing_eq, Graph.leaving, List.mem_filter, List.mem_range, Option.any_eq_true]
  constructor
  · rintro ⟨-, t, ht, hsource⟩
    exact ⟨t, ht, eq_of_beq hsource⟩
  · rintro ⟨t, ht, hsource⟩
    exact ⟨(Array.getElem?_eq_some_iff.1 ht).1, t, ht, beq_iff_eq.2 hsource⟩

theorem outgoing_increasing (d : Definition) (s : String) :
    (d.outgoing s).Pairwise (· < ·) := by
  rw [outgoing_eq]
  exact List.pairwise_lt_range.filter _

theorem delayedFrom_increasing (d : Definition) (s : String) :
    (d.delayedFrom s).Pairwise (· < ·) :=
  (d.outgoing_increasing s).filter _

end Definition

end RemoteAutomaton.Machine
