import RemoteAutomaton.Timer.Arena

/-!
# Arenas of timers

In a sound arena the free list holds every empty slot once, and no timer is newer than the newest
generation.  Every operation keeps an arena sound, and does to the ids what it would do to the keys
of a map (`entry_insert`, `entry_take`, `entry_clear`): an id that was taken out finds nothing,
though its slot is used again.
-/

namespace RemoteAutomaton.Timer

open Automaton (TimerId)

theorem timerId_eq {i j : TimerId} (hidx : i.index = j.index)
    (hgen : i.generation = j.generation) : i = j := by
  cases i
  cases j
  cases hidx
  cases hgen
  rfl

namespace Arena

structure Sound (a : Arena) : Prop where
  free_nodup : a.free.Nodup
  mem_free : ∀ i : Nat, i ∈ a.free ↔ a.slots[i]? = some none
  generation_le : ∀ (i : Nat) (e : Entry), a.slots[i]? = some (some e) → e.generation ≤ a.generation

variable {a : Arena} {id : TimerId} {e : Entry}

theorem sound_empty : Sound {} where
  free_nodup := List.nodup_nil
  mem_free i := by simp
  generation_le i e h := by simp at h

theorem entry_eq (a : Arena) (id : TimerId) :
    a.entry? id = (a.slots[id.index]?.join).filter (·.generation = id.generation) :=
  rfl

theorem entry_eq_some :
    a.entry? id = some e ↔ a.slots[id.index]? = some (some e) ∧ e.generation = id.generation := by
  rw [entry_eq, Option.filter_eq_some_iff, Option.join_eq_some_iff]
  simp

theorem contains_iff : a.contains id ↔ ∃ e, a.entry? id = some e := Option.isSome_iff_exists

theorem Sound.le_of_contains (ha : a.Sound) (hid : a.contains id) :
    id.generation ≤ a.generation := by
  obtain ⟨e, he⟩ := contains_iff.1 hid
  obtain ⟨hslot, hgen⟩ := entry_eq_some.1 he
  rw [← hgen]
  exact ha.generation_le _ e hslot

/-! ### Inserting -/

section Insert

variable {target : String} {deadline : Nat}

theorem generation_insert : (a.insert target deadline).2.generation = a.generation + 1 := by
  unfold insert
  split <;> rfl

theorem generation_id_insert : (a.insert target deadline).1.generation = a.generation + 1 := by
  unfold insert
  split <;> rfl

/-- A new timer takes a slot that holds none. -/
theorem slots_insert (ha : a.Sound) (i : Nat) :
    (a.insert target deadline).2.slots[i]?
      = if i = (a.insert target deadline).1.index
        then some (some ⟨a.generation + 1, target, deadline⟩) else a.slots[i]? := by
  unfold insert
  split
  · rename_i j free hfree
    have hj : a.slots[j]? = some none := (ha.mem_free j).1 (hfree ▸ List.mem_cons_self ..)
    have hlt : j < a.slots.length := (List.getElem?_eq_some_iff.1 hj).1
    by_cases h : i = j
    · subst h
      rw [if_pos rfl, List.getElem?_set_self hlt]
    · rw [if_neg h, List.getElem?_set_ne (Ne.symm h)]
  · by_cases h : i = a.slots.length
    · subst h
      rw [if_pos rfl, List.getElem?_concat_length]
    · rw [if_neg h]
      rcases Nat.lt_or_gt_of_ne h with hlt | hgt
      · rw [List.getElem?_append_left hlt]
      · rw [List.getElem?_eq_none (by simpa using Nat.succ_le_of_lt hgt),
          List.getElem?_eq_none (Nat.le_of_lt hgt)]

theorem vacant_insert (ha : a.Sound) :
    (a.slots[(a.insert target deadline).1.index]?).join = none := by
  unfold insert
  split
  · rename_i j free hfree
    have hj : a.slots[j]? = some none := (ha.mem_free j).1 (hfree ▸ List.mem_cons_self ..)
    rw [hj]
    rfl
  · rw [List.getElem?_eq_none (Nat.le_refl _)]
    rfl

theorem free_insert (ha : a.Sound) :
    (a.insert target deadline).2.free.Nodup
      ∧ ∀ i, i ∈ (a.insert target deadline).2.free
          ↔ i ∈ a.free ∧ i ≠ (a.insert target deadline).1.index := by
  unfold insert
  split
  · rename_i j free hfree
    have hnodup := ha.free_nodup
    rw [hfree] at hnodup ⊢
    obtain ⟨hj, hrest⟩ := List.nodup_cons.1 hnodup
    refine ⟨hrest, fun i => ?_⟩
    rw [List.mem_cons]
    constructor
    · intro hi
      refine ⟨.inr hi, ?_⟩
      rintro rfl
      exact hj hi
    · rintro ⟨rfl | hi, hne⟩
      · exact absurd rfl hne
      · exact hi
  · rename_i hfree
    rw [hfree]
    exact ⟨List.nodup_nil, fun i => by simp⟩

theorem Sound.insert (ha : a.Sound) : (a.insert target deadline).2.Sound where
  free_nodup := (free_insert ha).1
  mem_free i := by
    rw [(free_insert ha).2, slots_insert ha, ha.mem_free]
    by_cases h : i = (a.insert target deadline).1.index
    · simp [h]
    · simp [h]
  generation_le i e he := by
    rw [generation_insert]
    rw [slots_insert ha] at he
    split at he
    · cases he
      exact Nat.le_refl _
    · exact Nat.le_succ_of_le (ha.generation_le i e he)

/-- The slot of a new timer was vacant, so an older id of that slot finds nothing before and
after. -/
theorem entry_insert (ha : a.Sound) (target : String) (deadline : Nat) (id : TimerId) :
    entry? (a.insert target deadline).2 id
      = if id = (a.insert target deadline).1 then some ⟨a.generation + 1, target, deadline⟩
        else a.entry? id := by
  have hgen : (a.insert target deadline).1.generation = a.generation + 1 := generation_id_insert
  rw [entry_eq, slots_insert ha]
  by_cases hidx : id.index = (a.insert target deadline).1.index
  · have hvacant : a.entry? id = none := by
      rw [entry_eq, hidx, vacant_insert ha]
      rfl
    rw [if_pos hidx, hvacant, Option.join_some]
    by_cases hid : id = (a.insert target deadline).1
    · rw [if_pos hid, Option.filter_some_pos]
      rw [hid, hgen]
      exact decide_eq_true rfl
    · rw [if_neg hid, Option.filter_some_neg]
      exact decide_eq_false fun h => hid (timerId_eq hidx (h.symm.trans hgen.symm))
  · rw [if_neg hidx, if_neg fun hid => hidx (congrArg _ hid), entry_eq]

end Insert

/-! ### Taking out -/

theorem take_eq_some {a' : Arena} : a.take id = some (e, a') ↔ a.entry? id = some e
    ∧ a' = ⟨a.slots.set id.index none, id.index :: a.free, a.generation⟩ := by
  rw [take, Option.map_eq_some_iff]
  constructor
  · rintro ⟨x, hx, h⟩
    cases h
    exact ⟨hx, rfl⟩
  · rintro ⟨hx, rfl⟩
    exact ⟨e, hx, rfl⟩

theorem take_eq_none : a.take id = none ↔ ¬ a.contains id := by
  rw [take, Option.map_eq_none_iff, contains]
  simp

section Take

variable {a' : Arena} (ht : a.take id = some (e, a'))

include ht

theorem generation_take : a'.generation = a.generation := by
  obtain ⟨-, rfl⟩ := take_eq_some.1 ht
  rfl

theorem slots_take (i : Nat) :
    a'.slots[i]? = if i = id.index then some none else a.slots[i]? := by
  obtain ⟨he, rfl⟩ := take_eq_some.1 ht
  have hlt : id.index < a.slots.length :=
    (List.getElem?_eq_some_iff.1 (entry_eq_some.1 he).1).1
  by_cases h : i = id.index
  · rw [if_pos h, h, List.getElem?_set_self hlt]
  · rw [if_neg h, List.getElem?_set_ne (Ne.symm h)]

theorem Sound.take (ha : a.Sound) : a'.Sound where
  free_nodup := by
    obtain ⟨he, rfl⟩ := take_eq_some.1 ht
    refine List.nodup_cons.2 ⟨fun hmem => ?_, ha.free_nodup⟩
    have hnone := (ha.mem_free _).1 hmem
    rw [(entry_eq_some.1 he).1] at hnone
    cases hnone
  mem_free i := by
    rw [slots_take ht]
    obtain ⟨he, rfl⟩ := take_eq_some.1 ht
    rw [List.mem_cons, ha.mem_free]
    by_cases h : i = id.index
    · simp [h]
    · simp [h]
  generation_le i x hx := by
    rw [slots_take ht] at hx
    rw [generation_take ht]
    split at hx
    · cases hx
    · exact ha.generation_le i x hx

theorem entry_take (other : TimerId) :
    a'.entry? other = if other = id then none else a.entry? other := by
  have he := entry_eq_some.1 (take_eq_some.1 ht).1
  rw [entry_eq, slots_take ht]
  by_cases hidx : other.index = id.index
  · have hsame : a.entry? other = if other = id then some e else none := by
      rw [entry_eq, hidx, he.1, Option.join_some]
      split
      · rename_i hid
        rw [hid, Option.filter_some_pos]
        exact decide_eq_true he.2
      · rename_i hid
        rw [Option.filter_some_neg]
        exact decide_eq_false fun h => hid (timerId_eq hidx (h.symm.trans he.2))
    rw [if_pos hidx, hsame]
    split <;> rfl
  · rw [if_neg hidx, if_neg fun hid => hidx (congrArg _ hid), entry_eq]

end Take

/-! ### The ids -/

/-- The ids of the timers in some slots, the first slot having number `i`. -/
def idsFrom (i : Nat) : List (Option Entry) → List TimerId
  | [] => []
  | none :: rest => idsFrom (i + 1) rest
  | some e :: rest => ⟨i, e.generation⟩ :: idsFrom (i + 1) rest

theorem length_idsFrom : ∀ (l : List (Option Entry)) (i : Nat),
    (idsFrom i l).length = l.countP (·.isSome)
  | [], _ => rfl
  | none :: rest, i => by
    rw [idsFrom, length_idsFrom rest, List.countP_cons_of_neg (by simp)]
  | some e :: rest, i => by
    rw [idsFrom, List.length_cons, length_idsFrom rest, List.countP_cons_of_pos (by simp)]

theorem mem_idsFrom : ∀ (l : List (Option Entry)) (i : Nat), id ∈ idsFrom i l ↔
    i ≤ id.index ∧ ∃ e : Entry, l[id.index - i]? = some (some e) ∧ e.generation = id.generation
  | [], i => by simp [idsFrom]
  | none :: rest, i => by
    rw [idsFrom, mem_idsFrom rest]
    constructor
    · rintro ⟨hle, e, he, hgen⟩
      refine ⟨Nat.le_of_succ_le hle, e, ?_, hgen⟩
      rwa [show id.index - i = id.index - (i + 1) + 1 by omega, List.getElem?_cons_succ]
    · rintro ⟨hle, e, he, hgen⟩
      rcases Nat.eq_or_lt_of_le hle with rfl | hlt
      · simp at he
      · rw [show id.index - i = id.index - (i + 1) + 1 by omega, List.getElem?_cons_succ] at he
        exact ⟨hlt, e, he, hgen⟩
  | some e :: rest, i => by
    rw [idsFrom, List.mem_cons, mem_idsFrom rest]
    constructor
    · rintro (rfl | ⟨hle, x, hx, hgen⟩)
      · exact ⟨Nat.le_refl _, e, by simp, rfl⟩
      · refine ⟨Nat.le_of_succ_le hle, x, ?_, hgen⟩
        rwa [show id.index - i = id.index - (i + 1) + 1 by omega, List.getElem?_cons_succ]
    · rintro ⟨hle, x, hx, hgen⟩
      rcases Nat.eq_or_lt_of_le hle with rfl | hlt
      · rw [Nat.sub_self, List.getElem?_cons_zero] at hx
        cases hx
        exact .inl (timerId_eq rfl hgen.symm)
      · rw [show id.index - i = id.index - (i + 1) + 1 by omega, List.getElem?_cons_succ] at hx
        exact .inr ⟨hlt, x, hx, hgen⟩

theorem idsFrom_increasing : ∀ (l : List (Option Entry)) (i : Nat),
    (idsFrom i l).Pairwise (·.index < ·.index)
  | [], _ => .nil
  | none :: rest, i => idsFrom_increasing rest (i + 1)
  | some e :: rest, i => by
    refine List.pairwise_cons.2 ⟨fun x hx => ?_, idsFrom_increasing rest (i + 1)⟩
    exact ((mem_idsFrom rest (i + 1)).1 hx).1

theorem occupiedFrom_eq : ∀ (l : List (Option Entry)) (i : Nat),
    occupiedFrom i l = (idsFrom i l).map (·.index)
  | [], _ => rfl
  | none :: rest, i => occupiedFrom_eq rest (i + 1)
  | some e :: rest, i => by
    rw [occupiedFrom, idsFrom, List.map_cons, occupiedFrom_eq rest]

/-- The ids of the outstanding timers, in the order of their slots. -/
def ids (a : Arena) : List TimerId := idsFrom 0 a.slots

theorem mem_ids : id ∈ a.ids ↔ a.contains id := by
  rw [ids, mem_idsFrom, contains_iff]
  simp [entry_eq_some]

theorem nodup_ids (a : Arena) : a.ids.Nodup :=
  (idsFrom_increasing a.slots 0).imp fun h he => absurd (congrArg TimerId.index he) (Nat.ne_of_lt h)

theorem size_eq (a : Arena) : a.size = a.ids.length := (length_idsFrom a.slots 0).symm

/-- The size is the number of ids that are contained. -/
theorem size_eq_length {l : List TimerId} (hl : l.Nodup) (hmem : ∀ id, a.contains id ↔ id ∈ l) :
    a.size = l.length := by
  rw [size_eq]
  refine ((List.perm_ext_iff_of_nodup a.nodup_ids hl).2 fun id => ?_).length_eq
  rw [mem_ids, hmem]

/-! ### Clearing -/

theorem slots_clear (i : Nat) : a.clear.slots[i]? = (a.slots[i]?).map fun _ => none :=
  List.getElem?_map ..

theorem entry_clear : a.clear.entry? id = none := by
  rw [entry_eq, slots_clear]
  cases a.slots[id.index]? <;> rfl

theorem mem_occupiedFrom (i : Nat) :
    i ∈ occupiedFrom 0 a.slots ↔ ∃ e, a.slots[i]? = some (some e) := by
  rw [occupiedFrom_eq, List.mem_map]
  constructor
  · rintro ⟨id, hid, rfl⟩
    obtain ⟨-, e, he, -⟩ := (mem_idsFrom a.slots 0).1 hid
    exact ⟨e, he⟩
  · rintro ⟨e, he⟩
    exact ⟨⟨i, e.generation⟩, (mem_idsFrom a.slots 0).2 ⟨Nat.zero_le _, e, he, rfl⟩, rfl⟩

theorem length_occupiedFrom (a : Arena) : (occupiedFrom 0 a.slots).length = a.size := by
  rw [occupiedFrom_eq, List.length_map, size_eq, ids]

theorem nodup_occupiedFrom : (occupiedFrom 0 a.slots).Nodup := by
  rw [occupiedFrom_eq]
  exact (List.pairwise_map.2 (idsFrom_increasing a.slots 0)).imp Nat.ne_of_lt

theorem Sound.clear (ha : a.Sound) : a.clear.Sound where
  free_nodup := by
    have hocc : (occupiedFrom 0 a.slots).reverse.Nodup :=
      (List.reverse_perm _).nodup_iff.2 nodup_occupiedFrom
    refine List.nodup_append.2 ⟨hocc, ha.free_nodup, ?_⟩
    rintro i hi j hj rfl
    obtain ⟨e, he⟩ := (mem_occupiedFrom i).1 (List.mem_reverse.1 hi)
    rw [(ha.mem_free i).1 hj] at he
    cases he
  mem_free i := by
    rw [slots_clear]
    change i ∈ (occupiedFrom 0 a.slots).reverse ++ a.free ↔ _
    rw [List.mem_append, List.mem_reverse, mem_occupiedFrom, ha.mem_free]
    rcases a.slots[i]? with _ | _ | e
    · simp
    · simp
    · simp
  generation_le i e he := by
    rw [slots_clear] at he
    simp at he

end Arena

end RemoteAutomaton.Timer
