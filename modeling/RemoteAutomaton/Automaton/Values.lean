/-!
# Named values

The values of variables, inputs and outputs. A name keeps its place once it has a value, so the
order of names is the order in which they first got one.
-/

namespace RemoteAutomaton.Automaton

structure Values where
  entries : List (String × String)
  deriving DecidableEq, Repr

namespace Values

def empty : Values := ⟨[]⟩

def ofList (entries : List (String × String)) : Values := ⟨entries⟩

def get? (v : Values) (name : String) : Option String := v.entries.lookup name

def names (v : Values) : List String := v.entries.map (·.1)

/-- Gives a name a value in a list of entries. -/
def setIn (name value : String) : List (String × String) → List (String × String)
  | [] => [(name, value)]
  | (n, w) :: rest => if n = name then (name, value) :: rest else (n, w) :: setIn name value rest

def set (v : Values) (name value : String) : Values := ⟨setIn name value v.entries⟩

theorem lookup_cons_eq_ite (n w other : String) (l : List (String × String)) :
    List.lookup other ((n, w) :: l) = if other = n then some w else l.lookup other := by
  rw [List.lookup_cons]
  by_cases h : other = n
  · rw [if_pos h, beq_iff_eq.2 h]
  · rw [if_neg h, beq_eq_false_iff_ne.2 h]

theorem lookup_setIn (name value other : String) (l : List (String × String)) :
    (setIn name value l).lookup other = if other = name then some value else l.lookup other := by
  induction l with
  | nil => exact lookup_cons_eq_ite name value other []
  | cons e rest ih =>
    obtain ⟨n, w⟩ := e
    simp only [setIn]
    split
    · rename_i hn
      subst hn
      rw [lookup_cons_eq_ite, lookup_cons_eq_ite]
      split <;> rfl
    · rename_i hn
      rw [lookup_cons_eq_ite, lookup_cons_eq_ite, ih]
      by_cases h : other = n
      · rw [if_pos h, if_pos h, if_neg (h ▸ hn)]
      · rw [if_neg h, if_neg h]

@[simp] theorem get?_set (v : Values) (name value other : String) :
    (v.set name value).get? other = if other = name then some value else v.get? other :=
  lookup_setIn name value other v.entries

theorem names_setIn_of_mem {name value : String} {l : List (String × String)}
    (h : name ∈ l.map (·.1)) : (setIn name value l).map (·.1) = l.map (·.1) := by
  induction l with
  | nil => simp at h
  | cons e rest ih =>
    simp only [setIn]
    split
    · simp_all
    · rename_i hn
      simp only [List.map_cons, List.mem_cons] at h ⊢
      rw [ih (h.resolve_left fun e => hn e.symm)]

theorem names_set_of_mem {v : Values} {name value : String} (h : name ∈ v.names) :
    (v.set name value).names = v.names :=
  names_setIn_of_mem h

theorem exists_get? {v : Values} {name : String} (h : name ∈ v.names) :
    ∃ value, v.get? name = some value := by
  obtain ⟨e, he, rfl⟩ := List.mem_map.1 h
  refine Option.isSome_iff_exists.1 (List.lookup_isSome_iff.2 ⟨e, he, ?_⟩)
  exact beq_self_eq_true _

/-- The last of some writes counts, and the older value if there is none. -/
theorem getLast?_filterMap_cons_or {α β : Type} (f : α → Option β) (x : α) (l : List α)
    (y : Option β) :
    ((x :: l).filterMap f).getLast?.or y = (l.filterMap f).getLast?.or ((f x).or y) := by
  rw [List.filterMap_cons]
  cases f x with
  | none => rfl
  | some value =>
    rw [List.getLast?_cons]
    cases (l.filterMap f).getLast? <;> rfl

end Values

end RemoteAutomaton.Automaton
