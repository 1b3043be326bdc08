import RemoteAutomaton.Automaton.Loading
import RemoteAutomaton.Json.Value
import RemoteAutomaton.Proofs.Given
import RemoteAutomaton.Proofs.ReadBack
import RemoteAutomaton.Proofs.WellFormed

/-!
# Integers as initial values

The document of a machine may give a variable an integer as its initial value (`DeclaresInteger`).
Whatever else the document says, the machine that is read from it then has a variable whose initial
value is the decimal text of the integer (`DeclaresInteger.exists_mem`), for all integers that 64
bits hold, signed or unsigned.  For each of them there is a machine that waits for as long as the
variable holds (`exists_loadedWith`).
-/

namespace RemoteAutomaton.Machine

open Document

variable {ν ε : Type} [Source ν ε] {doc : ν} {v : String} {n : Int}

/-- The document of a machine declares a variable and gives it an integer as its initial value. -/
inductive DeclaresInteger (doc : ν) (v : String) (n : Int) : Prop
  | mk {list node name initial : ν} {items : List ν} {ending : Except ε Unit}
    {spelling : Option String}
    (hlist : Gives ["name", "initial", "states", "transitions", "variables", "inputs", "outputs"]
      "variables" doc list)
    (hitems : Source.see list = .ok (.list items ending)) (hnode : node ∈ items)
    (hname : Gives ["name", "type", "initial"] "name" node name)
    (hv : readText name = .ok v)
    (hinitial : Gives ["name", "type", "initial"] "initial" node initial)
    (hn : Source.see initial = .ok (.scalar (.number (.integer n)) spelling))

theorem Declaration.slot_vars : Slot (Declaration.fields (ν := ν)) "variables"
    (readList Variable.read) (·.vars) fun d v => { d with vars := some v } where
  find := rfl
  get_set _ _ := rfl
  kept f hf hne := by
    simp only [Declaration.fields, List.mem_cons, List.not_mem_nil, or_false] at hf
    rcases hf with rfl | rfl | rfl | rfl | rfl | rfl | rfl
    all_goals first | exact absurd rfl hne | exact get_of_put fun _ _ => rfl

theorem Variable.slot_name : Slot (Variable.fields (ν := ν)) "name" readText (·.name)
    fun d v => { d with name := some v } where
  find := rfl
  get_set _ _ := rfl
  kept f hf hne := by
    simp only [Variable.fields, List.mem_cons, List.not_mem_nil, or_false] at hf
    rcases hf with rfl | rfl | rfl
    all_goals first | exact absurd rfl hne | exact get_of_put fun _ _ => rfl

theorem Variable.slot_initial : Slot (Variable.fields (ν := ν)) "initial" readScalar (·.initial)
    fun d v => { d with initial := some v } where
  find := rfl
  get_set _ _ := rfl
  kept f hf hne := by
    simp only [Variable.fields, List.mem_cons, List.not_mem_nil, or_false] at hf
    rcases hf with rfl | rfl | rfl
    all_goals first | exact absurd rfl hne | exact get_of_put fun _ _ => rfl

/-- The variable is read with the decimal text of its integer. -/
theorem DeclaresInteger.exists_mem {r : Declaration} (h : DeclaresInteger doc v n)
    (hlow : -0x8000000000000000 ≤ n) (hhigh : n < 0x10000000000000000)
    (hr : Declaration.read doc = .ok r) : ∃ x ∈ r.vars, x.name = v ∧ x.initial = toString n := by
  obtain ⟨hlist, hitems, hnode, hname, hv, hinitial, hn⟩ := h
  obtain ⟨draft, hdraft, hfinish⟩ := drafts_of_readRecord hr
  obtain ⟨vars, hvars, hget⟩ := Declaration.slot_vars.exists_get
    (show ["name", "initial", "states", "transitions", "variables", "inputs", "outputs"].Nodup
      by decide) hdraft hlist
  obtain ⟨x, hx, hreadx⟩ := exists_of_readList hvars hitems hnode
  have hr : r.vars = vars := by
    obtain ⟨states, -, rfl⟩ := Option.map_eq_some_iff.1 hfinish
    simp [hget]
  obtain ⟨part, hpart, hfinish⟩ := drafts_of_readRecord hreadx
  have hnames : ["name", "type", "initial"].Nodup := by decide
  obtain ⟨name, hreadname, hgetname⟩ := Variable.slot_name.exists_get hnames hpart hname
  obtain ⟨text, hreadtext, hgettext⟩ := Variable.slot_initial.exists_get hnames hpart hinitial
  obtain ⟨name', hname', rfl⟩ := Option.map_eq_some_iff.1 hfinish
  refine ⟨_, hr ▸ hx, ?_, ?_⟩
  · rw [hgetname] at hname'
    cases hname'
    exact Except.ok.inj (hreadname.symm.trans hv)
  · rw [readScalar_of_integer hn hlow hhigh] at hreadtext
    cases hreadtext
    simp [hgettext]

/-! ### A machine for every integer -/

/-- A machine with one state, which is entered again after as long as a variable holds. -/
def waitingOn (v : String) (n : Int) : Declaration :=
  { name := "", initial := some "idle", states := [⟨"idle", none⟩]
    transitions := [⟨"idle", "idle", none, none, none, some v⟩]
    vars := [⟨v, "string", toString n⟩], inputs := [], outputs := [] }

/-- The document of that machine, which has the initial value of the variable as a number. -/
def waitingOnJson (v : String) (n : Int) : Json.Value :=
  .object [("initial", .text "idle"),
    ("states", .list ((waitingOn v n).states.map State.toJson)),
    ("transitions", .list ((waitingOn v n).transitions.map Arrow.toJson)),
    ("variables", .list [.object [("name", .text v), ("initial", .ofInt n)]])]

section Shown

variable {node : Json.Value → ν}

theorem declaresInteger_waitingOn (h : Shows node)
    (hn : Source.see (node (.ofInt n)) = .ok (.scalar (.number (.integer n)) none)) :
    DeclaresInteger (node (waitingOnJson v n)) v n :=
  .mk (.entry (h.object _) (by simp; rfl)) (h.list _)
    (List.mem_map_of_mem List.mem_cons_self) (.entry (h.object _) (by simp)) (h.readText v)
    (.entry (h.object _) (by simp)) hn

theorem read_waitingOn (h : Shows node) (hlow : -0x8000000000000000 ≤ n)
    (hhigh : n < 0x10000000000000000)
    (hn : Source.see (node (.ofInt n)) = .ok (.scalar (.number (.integer n)) none)) :
    Declaration.read (node (waitingOnJson v n)) = .ok (waitingOn v n) := by
  have hstates := h.readList State.toJson State.read (waitingOn v n).states
    fun s _ => s.read_toJson h
  have htransitions := h.readList Arrow.toJson Arrow.read (waitingOn v n).transitions
    fun t ht => t.read_toJson h fun k hk => by
      rw [List.mem_singleton.1 ht] at hk
      cases hk
  have hvar : Variable.read (node (.object [("name", .text v), ("initial", .ofInt n)]))
      = .ok ⟨v, "string", toString n⟩ := by
    refine readRecord_object h (d := ⟨some v, none, some (toString n)⟩) ?_ rfl
    refine Eq.trans (readEntries_given rfl rfl (h.readText v)) ?_
    exact Eq.trans (readEntries_given rfl rfl (readScalar_of_integer hn hlow hhigh)) rfl
  have hvars := h.readList (fun _ => .object [("name", .text v), ("initial", .ofInt n)])
    Variable.read (waitingOn v n).vars fun x hx => by rwa [List.mem_singleton.1 hx]
  refine readRecord_object h (d := ⟨none, some (some "idle"), some (waitingOn v n).states,
    some (waitingOn v n).transitions, some (waitingOn v n).vars, none, none⟩) ?_ rfl
  refine Eq.trans (readEntries_given rfl rfl (h.readOptional_text "idle")) ?_
  refine Eq.trans (readEntries_given rfl rfl hstates) ?_
  refine Eq.trans (readEntries_given rfl rfl htransitions) ?_
  exact Eq.trans (readEntries_given rfl rfl hvars) rfl

end Shown

theorem plain_waitingOnJson (v : String) (hlow : -0x8000000000000000 ≤ n)
    (hhigh : n < 0x10000000000000000) : (waitingOnJson v n).Plain Json.Value.maxDepth := by
  refine Json.Value.plain_object ["initial", "states", "transitions", "variables"]
    (List.Sublist.refl _) (by decide) ?_
  simp only [List.forall_mem_cons]
  refine ⟨Json.Value.plain_text _ _, Json.Value.plain_list fun s _ => s.plain_toJson,
    Json.Value.plain_list fun t ht => t.plain_toJson fun k hk => ?_, ?_, fun _ h => nomatch h⟩
  · rw [List.mem_singleton.1 ht] at hk
    cases hk
  · intro x hx
    obtain rfl := List.mem_singleton.1 hx
    refine Json.Value.plain_object ["name", "initial"] (List.Sublist.refl _) (by decide) ?_
    simp only [List.forall_mem_cons]
    exact ⟨Json.Value.plain_text _ _, ⟨n, rfl, hlow, hhigh⟩, fun _ h => nomatch h⟩

theorem wellFormed_waitingOn : (waitingOn v n).WellFormed where
  states_named := by simp [waitingOn]
  states_distinct := by simp [waitingOn]
  initial_mem := by simp [waitingOn]
  variables_distinct := by simp [waitingOn]
  inputs_distinct := by simp [waitingOn]
  outputs_distinct := by simp [waitingOn]
  transitions t ht := by
    obtain rfl := List.mem_singleton.1 ht
    constructor <;> simp [waitingOn]

end RemoteAutomaton.Machine

namespace RemoteAutomaton.Automaton

open Machine (Definition DeclaresInteger)

/-- A machine that is read from JSON, from a text or from a value, where a variable is declared and
is given an integer as its initial value. -/
inductive LoadedWith (v : String) (n : Int) (d : Definition) : Prop
  | text (s : String) (hs : DeclaresInteger (Json.Tree.read s.toList).root v n)
    (hd : definitionOfText s = .ok d)
  | value (x : Json.Value) (hx : DeclaresInteger x v n) (hd : definitionOfValue x = .ok d)

variable {v : String} {n : Int} {d : Definition}

theorem vars_of_checkDeclaration {r : Machine.Declaration} (h : checkDeclaration r = .ok d) :
    d.vars = r.vars :=
  (Definition.matches_of_ofDeclaration (checkDeclaration_eq_ok_iff.1 h)).2.vars

theorem declarationOfText_eq_ok {s : String} {r : Machine.Declaration}
    (h : declarationOfText s = .ok r) :
    Machine.Declaration.read (Json.Tree.read s.toList).root = .ok r := by
  rw [declarationOfText, Json.readText] at h
  split at h
  · cases h
  · rename_i r' hr
    split_ifs at h
    cases h
    exact hr

/-- For every integer that 64 bits hold there is such a machine, which waits for as long as the
variable holds. -/
theorem exists_loadedWith (v : String) (hlow : -0x8000000000000000 ≤ n)
    (hhigh : n < 0x10000000000000000) :
    ∃ d, LoadedWith v n d ∧ ∃ t ∈ d.transitions, t.trigger = .delayed (.held v) := by
  obtain ⟨d, hd⟩ := Definition.exists_ofDeclaration_iff.2
    (Machine.wellFormed_waitingOn (v := v) (n := n))
  have hsee : Document.Source.see (Json.Tree.ofValue (.ofInt n))
      = .ok (.scalar (.number (.integer n)) none) := by
    show Json.Tree.see (Json.Tree.ofValue (.number (.integer n))) = _
    rw [Json.ofValue_integer, Json.Tree.see, Json.value_ofInt hlow hhigh]
    rfl
  have htree := Json.read_toText (Machine.plain_waitingOnJson v hlow hhigh)
  refine ⟨d, .text (Machine.waitingOnJson v n).toText ?_ ?_, ?_⟩
  · rw [htree]
    exact Machine.declaresInteger_waitingOn Document.shows_ofValue hsee
  · rw [definitionOfText, declarationOfText, Json.readText, htree,
      Machine.read_waitingOn Document.shows_ofValue hlow hhigh hsee]
    exact checkDeclaration_eq_ok_iff.2 hd
  · have hmatches := (Definition.matches_of_ofDeclaration hd).2
    refine ⟨⟨"idle", "idle", .delayed (.held v), none⟩, ?_, rfl⟩
    rw [← Array.mem_toList_iff, hmatches.transitions]
    exact List.mem_singleton.2 rfl

/-- The variable has the decimal text of its integer. -/
theorem LoadedWith.exists_mem (h : LoadedWith v n d) (hlow : -0x8000000000000000 ≤ n)
    (hhigh : n < 0x10000000000000000) : ∃ x ∈ d.vars, x.name = v ∧ x.initial = toString n := by
  cases h with
  | text s hs hd =>
    rw [definitionOfText] at hd
    split at hd
    · rename_i r hr
      rw [vars_of_checkDeclaration hd]
      exact hs.exists_mem hlow hhigh (declarationOfText_eq_ok hr)
    · cases hd
  | value x hx hd =>
    rw [definitionOfValue] at hd
    split at hd
    · rename_i r hr
      rw [vars_of_checkDeclaration hd]
      exact hx.exists_mem hlow hhigh hr
    · cases hd

end RemoteAutomaton.Automaton
