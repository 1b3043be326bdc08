import RemoteAutomaton.Automaton.Loading
import RemoteAutomaton.Json.Value
import RemoteAutomaton.Proofs.Rendering
import RemoteAutomaton.Proofs.SameReading

/-!
# Machines from a text and from its value

A text that stands for a value, and in which no object repeats a key, shows the same as the value,
whatever order the value keeps its entries in (`sameNodes_stands`).  So a machine is read alike from
both: the same machine, the same defect, or no machine at all (`loaders_agree`).
-/

namespace RemoteAutomaton.Json

open Document (SameNodes SameSight exists_of_map_eq_ok named)

/-! ### Distinct keys -/

mutual

/-- Whether no object of a tree repeats a key. -/
def Tree.distinctKeys : Tree → Bool
  | .list items _ => distinctItems items
  | .object entries _ =>
    decide (entries.map fun e => e.1.decode.toOption).Nodup && distinctEntries entries
  | _ => true

def Tree.distinctItems : List Tree → Bool
  | [] => true
  | t :: rest => t.distinctKeys && distinctItems rest

def Tree.distinctEntries : List (Quoted × Tree) → Bool
  | [] => true
  | (_, t) :: rest => t.distinctKeys && distinctEntries rest

end

theorem Tree.distinctItems_iff : ∀ {items : List Tree},
    Tree.distinctItems items ↔ ∀ t ∈ items, t.distinctKeys
  | [] => by simp [Tree.distinctItems]
  | t :: rest => by simp [Tree.distinctItems, Tree.distinctItems_iff]

theorem Tree.distinctEntries_iff : ∀ {entries : List (Quoted × Tree)},
    Tree.distinctEntries entries ↔ ∀ e ∈ entries, e.2.distinctKeys
  | [] => by simp [Tree.distinctEntries]
  | (_, t) :: rest => by
    rw [Tree.distinctEntries, Bool.and_eq_true, Tree.distinctEntries_iff, List.forall_mem_cons]

/-! ### The order of entries -/

/-- Two values that differ at most in the order of the entries of their objects. -/
inductive Value.Same : Value → Value → Prop
  | refl (v : Value) : Same v v
  | list {items items' : List Value} (hlength : items.length = items'.length)
    (h : ∀ p ∈ items.zip items', Same p.1 p.2) : Same (.list items) (.list items')
  | object {entries entries' : List (String × Value)}
    (hkeys : (entries.map Prod.fst).Perm (entries'.map Prod.fst))
    (h : ∀ key v w, (key, v) ∈ entries → (key, w) ∈ entries' → Same v w) :
    Same (.object entries) (.object entries')

theorem Value.same_of_perm {entries entries' : List (String × Value)}
    (hkeys : (entries.map Prod.fst).Nodup) (hp : entries.Perm entries') :
    Same (.object entries) (.object entries') := by
  refine .object (hp.map _) fun key v w hv hw => ?_
  cases List.inj_on_of_nodup_map hkeys hv (hp.mem_iff.2 hw) rfl
  exact .refl v

theorem Value.Same.of_list {items : List Value} {w : Value} (h : Same (.list items) w) :
    ∃ items', w = .list items' ∧ List.Forall₂ Same items items' := by
  cases h with
  | refl => exact ⟨items, rfl, List.forall₂_same.2 fun v _ => .refl v⟩
  | list hlength h => exact ⟨_, rfl, List.forall₂_iff_zip.2 ⟨hlength, fun hp => h _ hp⟩⟩

theorem Value.Same.of_object {entries : List (String × Value)} {w : Value}
    (hkeys : (entries.map Prod.fst).Nodup) (h : Same (.object entries) w) :
    ∃ entries', w = .object entries' ∧ (entries.map Prod.fst).Perm (entries'.map Prod.fst)
      ∧ ∀ key v w, (key, v) ∈ entries → (key, w) ∈ entries' → Same v w := by
  cases h with
  | refl =>
    refine ⟨entries, rfl, .refl _, fun key v w hv hw => ?_⟩
    cases List.inj_on_of_nodup_map hkeys hv hw rfl
    exact .refl v
  | object hperm h => exact ⟨_, rfl, hperm, h⟩

/-! ### What a tree stands for -/

theorem Tree.ending_eq_ok_iff {cut : Option Fault} : Tree.ending cut = .ok () ↔ cut = none := by
  cases cut <;> simp [Tree.ending]

theorem cut_of_decodePieces {cut : Option Fault} {pieces : List Piece} {done s : List Char}
    (h : decodePieces cut done pieces = .ok s) : cut = none := by
  fun_induction decodePieces cut done pieces with
  | case1 => assumption
  | _ => first | contradiction | simp_all

theorem Quoted.cut_of_decode {q : Quoted} {s : String} (h : q.decode = .ok s) : q.cut = none := by
  rw [Quoted.decode] at h
  cases hp : decodePieces q.cut [] q.pieces with
  | error f =>
    rw [hp] at h
    cases h
  | ok l => exact cut_of_decodePieces hp

section Evaluated

variable {item : Tree → Except Fault Value}

theorem ofItems_eq_ok : ∀ {items : List Tree} {vs : List Value},
    Value.ofItems item items = .ok vs → List.Forall₂ (fun t v => item t = .ok v) items vs
  | [], vs, h => by
    cases h
    exact .nil
  | t :: rest, vs, h => by
    simp only [Value.ofItems, bind, Except.bind] at h
    split at h
    · cases h
    · rename_i v hv
      split at h
      · cases h
      · rename_i vs' hvs
        cases h
        exact .cons hv (ofItems_eq_ok hvs)

/-- Entries of different keys are evaluated one by one, and come after what is there. -/
theorem ofEntries_eq_ok : ∀ {entries : List (Quoted × Tree)} {done vs : List (String × Value)},
    Value.ofEntries item done entries = .ok vs →
    ((done.map fun e => some e.1) ++ entries.map fun e => e.1.decode.toOption).Nodup →
    ∃ es : List (String × Tree), (entries.map fun e => (e.1.decode, e.2)) = named es
      ∧ ∃ new, vs = done ++ new
        ∧ List.Forall₂ (fun e x => e.1 = x.1 ∧ item e.2 = .ok x.2) es new
  | [], done, vs, h, _ => by
    cases h
    exact ⟨[], rfl, [], (List.append_nil _).symm, .nil⟩
  | (q, t) :: rest, done, vs, h, hkeys => by
    simp only [Value.ofEntries, bind, Except.bind] at h
    split at h
    · cases h
    · rename_i key hkey
      split at h
      · cases h
      · rename_i v hv
        have hkey' : key ∉ done.map Prod.fst := by
          rw [List.map_cons, hkey, List.nodup_append] at hkeys
          intro hmem
          obtain ⟨e, he, rfl⟩ := List.mem_map.1 hmem
          exact hkeys.2.2 (some e.1) (List.mem_map_of_mem he) _ List.mem_cons_self rfl
        rw [putEntry_of_notMem key v done hkey'] at h
        have hrest : (((done ++ [(key, v)]).map fun e => some e.1)
            ++ rest.map fun e => e.1.decode.toOption).Nodup := by
          rw [List.map_cons, hkey] at hkeys
          rw [List.map_append, List.append_assoc]
          exact hkeys
        obtain ⟨es, hes, new, rfl, hall⟩ := ofEntries_eq_ok h hrest
        refine ⟨(key, t) :: es, ?_, (key, v) :: new, ?_, .cons ⟨rfl, hv⟩ hall⟩
        · rw [List.map_cons, hes, hkey]
          rfl
        · rw [List.append_assoc, List.singleton_append]

end Evaluated

/-- A tree stands for a value if it is evaluated to it, up to the order of entries, and repeats no
key. -/
def Stands (t : Tree) (w : Value) : Prop :=
  ∃ depth v, Value.ofTree depth t = .ok v ∧ t.distinctKeys ∧ v.Same w

theorem stands_items {depth : Nat} : ∀ {items : List Tree} {vs ws : List Value},
    List.Forall₂ (fun t v => Value.ofTree depth t = .ok v) items vs →
    List.Forall₂ Value.Same vs ws → (∀ t ∈ items, t.distinctKeys) →
    List.Forall₂ Stands items ws
  | _, _, _, .nil, .nil, _ => .nil
  | _, _, _, .cons hv hvs, .cons hw hws, hkeys => by
    obtain ⟨ht, hrest⟩ := List.forall_mem_cons.1 hkeys
    exact .cons ⟨depth, _, hv, ht, hw⟩ (stands_items hvs hws hrest)

theorem Stands.list {items : List Tree} {cut : Option Fault} {w : Value}
    (h : Stands (.list items cut) w) :
    cut = none ∧ ∃ items', w = .list items' ∧ List.Forall₂ Stands items items' := by
  obtain ⟨depth, v, hv, hkeys, hw⟩ := h
  cases depth with
  | zero => cases hv
  | succ depth =>
    simp only [Value.ofTree, bind, Except.bind] at hv
    split at hv
    · cases hv
    · rename_i all hall
      split at hv
      · cases hv
      · rename_i hend
        cases hv
        obtain ⟨items', rfl, hsame⟩ := hw.of_list
        exact ⟨Tree.ending_eq_ok_iff.1 hend, items', rfl,
          stands_items (ofItems_eq_ok hall) hsame (Tree.distinctItems_iff.1 hkeys)⟩

theorem exists_mem_of_forall₂ {α β : Type} {R : α → β → Prop} : ∀ {l : List α} {l' : List β},
    List.Forall₂ R l l' → ∀ a ∈ l, ∃ b ∈ l', R a b
  | _, _, .nil, _, h => (nomatch h)
  | _, _, .cons hab hrest, a, h => by
    rcases List.mem_cons.1 h with rfl | h
    · exact ⟨_, List.mem_cons_self, hab⟩
    · obtain ⟨b, hb, hab⟩ := exists_mem_of_forall₂ hrest a h
      exact ⟨b, List.mem_cons_of_mem _ hb, hab⟩

theorem keys_of_forall₂ {α β : Type} {R : String × α → String × β → Prop}
    (hR : ∀ {e x}, R e x → e.1 = x.1) : ∀ {l : List (String × α)} {l' : List (String × β)},
    List.Forall₂ R l l' → l.map Prod.fst = l'.map Prod.fst
  | _, _, .nil => rfl
  | _, _, .cons h hrest => by
    rw [List.map_cons, List.map_cons, hR h, keys_of_forall₂ hR hrest]

theorem Stands.object {entries : List (Quoted × Tree)} {cut : Option Fault} {w : Value}
    (h : Stands (.object entries cut) w) : cut = none ∧ ∃ es entries',
      (entries.map fun e => (e.1.decode, e.2)) = named es ∧ w = .object entries'
        ∧ (es.map Prod.fst).Nodup ∧ (es.map Prod.fst).Perm (entries'.map Prod.fst)
        ∧ ∀ key t v, (key, t) ∈ es → (key, v) ∈ entries' → Stands t v := by
  obtain ⟨depth, v, hv, hkeys, hw⟩ := h
  rw [Tree.distinctKeys, Bool.and_eq_true, decide_eq_true_iff] at hkeys
  cases depth with
  | zero => cases hv
  | succ depth =>
    simp only [Value.ofTree, bind, Except.bind] at hv
    split at hv
    · cases hv
    · rename_i all hall
      split at hv
      · cases hv
      · rename_i hend
        cases hv
        obtain ⟨es, hes, _, rfl, hnew⟩ := ofEntries_eq_ok hall hkeys.1
        have hnames : es.map Prod.fst = all.map Prod.fst := keys_of_forall₂ And.left hnew
        have hnodup : (es.map Prod.fst).Nodup := by
          have hread : (entries.map fun e => e.1.decode.toOption) = (es.map Prod.fst).map some := by
            have hfirst := congrArg (List.map fun e => e.1.toOption) hes
            rw [named, List.map_map, List.map_map] at hfirst
            rw [List.map_map]
            exact hfirst
          rw [hread] at hkeys
          exact List.Nodup.of_map _ hkeys.1
        obtain ⟨entries', rfl, hperm, hsame⟩ := hw.of_object (hnames ▸ hnodup)
        refine ⟨Tree.ending_eq_ok_iff.1 hend, es, entries', hes, rfl, hnodup, hnames ▸ hperm,
          fun key t w ht hw => ?_⟩
        obtain ⟨⟨key', v⟩, hv, rfl, hitem⟩ := exists_mem_of_forall₂ hnew _ ht
        have hmem : ∃ e ∈ entries, e.2 = t := by
          have hnamed : (.ok key, t) ∈ named (ε := Fault) es := List.mem_map_of_mem ht
          rw [← hes] at hnamed
          obtain ⟨e, he, heq⟩ := List.mem_map.1 hnamed
          exact ⟨e, he, (Prod.mk.inj heq).2⟩
        obtain ⟨e, he, rfl⟩ := hmem
        exact ⟨depth, v, hitem, Tree.distinctEntries_iff.1 hkeys.2 e he, hsame _ _ _ hv hw⟩

theorem Stands.number {n : Numeral} {w : Value} (h : Stands (.number n) w) :
    ∃ x, n.value = .ok x ∧ w = .number x := by
  obtain ⟨depth, v, hv, -, hw⟩ := h
  have hvalue : n.value.map .number = .ok v := by cases depth <;> exact hv
  obtain ⟨x, hx, rfl⟩ := exists_of_map_eq_ok hvalue
  cases hw
  exact ⟨x, hx, rfl⟩

theorem Stands.text {q : Quoted} {w : Value} (h : Stands (.text q) w) :
    ∃ s, q.decode = .ok s ∧ w = .text s := by
  obtain ⟨depth, v, hv, -, hw⟩ := h
  have hvalue : q.decode.map .text = .ok v := by cases depth <;> exact hv
  obtain ⟨s, hs, rfl⟩ := exists_of_map_eq_ok hvalue
  cases hw
  exact ⟨s, hs, rfl⟩

theorem not_stands_broken {t : Tree} {w : Value} (ht : t = .cutNumber ∨ ∃ f, t = .broken f) :
    ¬ Stands t w := by
  rintro ⟨depth, v, hv, -⟩
  rcases ht with rfl | ⟨f, rfl⟩
  · cases depth <;> cases hv
  · cases depth <;> cases hv

theorem Stands.see {t : Tree} {w : Value} (h : Stands t w) :
    ∃ x y, t.see = .ok x ∧ w.see = .ok y ∧ SameSight Stands x y := by
  cases t with
  | null =>
    obtain ⟨depth, v, hv, -, hw⟩ := h
    have hnull : v = .null := by cases depth <;> (cases hv; rfl)
    subst hnull
    cases hw
    exact ⟨_, _, rfl, rfl, .scalar _ _⟩
  | truth b =>
    obtain ⟨depth, v, hv, -, hw⟩ := h
    have htruth : v = .truth b := by cases depth <;> (cases hv; rfl)
    subst htruth
    cases hw
    exact ⟨_, _, rfl, rfl, .scalar _ _⟩
  | number n =>
    obtain ⟨x, hx, rfl⟩ := h.number
    exact ⟨.scalar (.number x) none, _, by rw [Tree.see, hx]; rfl, rfl, .scalar _ _⟩
  | text q =>
    obtain ⟨s, hs, rfl⟩ := h.text
    exact ⟨.scalar (.text s) (some s), _, by rw [Tree.see, hs]; rfl, rfl, .scalar _ _⟩
  | list items cut =>
    obtain ⟨rfl, items', rfl, hitems⟩ := h.list
    exact ⟨_, _, rfl, rfl, .list hitems⟩
  | object entries cut =>
    obtain ⟨rfl, es, entries', hes, rfl, hnodup, hperm, hsame⟩ := h.object
    refine ⟨.fields (named es) (.ok ()), .fields (named entries') (.ok ()), ?_, rfl,
      .fields hnodup hperm hsame⟩
    rw [← hes]
    rfl
  | cutNumber => exact absurd h (not_stands_broken (.inl rfl))
  | broken f => exact absurd h (not_stands_broken (.inr ⟨f, rfl⟩))

/-- A tree that stands for a value is whole. -/
theorem Stands.skip {t : Tree} {w : Value} (h : Stands t w) : t.skip = .ok () := by
  cases t with
  | null | truth | number => rfl
  | text q =>
    obtain ⟨s, hs, -⟩ := h.text
    exact Tree.ending_eq_ok_iff.2 (Quoted.cut_of_decode hs)
  | list items cut => exact Tree.ending_eq_ok_iff.2 h.list.1
  | object entries cut => exact Tree.ending_eq_ok_iff.2 h.object.1
  | cutNumber => exact absurd h (not_stands_broken (.inl rfl))
  | broken f => exact absurd h (not_stands_broken (.inr ⟨f, rfl⟩))

theorem sameNodes_stands : SameNodes Stands where
  see h := h.see
  skip_left h := h.skip
  skip_right _ := rfl
  positional := rfl
  nullIsEmpty := rfl

end RemoteAutomaton.Json

namespace RemoteAutomaton.Machine

open Document

/-! ### Records of a declaration -/

variable {ν ε μ η : Type} [Source ν ε] [Source μ η] {S : ν → μ → Prop}

theorem State.fields_apart : (State.fields (ν := ν)).Pairwise Field.Apart := by
  simp [State.fields, Field.apart_of]

theorem Arrow.fields_apart : (Arrow.fields (ν := ν)).Pairwise Field.Apart := by
  simp [Arrow.fields, Field.apart_of]

theorem Variable.fields_apart : (Variable.fields (ν := ν)).Pairwise Field.Apart := by
  simp [Variable.fields, Field.apart_of]

theorem Declaration.fields_apart : (Declaration.fields (ν := ν)).Pairwise Field.Apart := by
  simp [Declaration.fields, Field.apart_of]

variable (hS : SameNodes S)

include hS

theorem State.read_alike : ReadAlike S (State.read (ν := ν)) State.read := by
  have htext : ReadAlike S readText readText := readText_alike hS
  have hoptional : ReadAlike S (readOptional readText) (readOptional readText) :=
    readOptional_alike hS htext
  exact readRecord_alike hS (.cons (.of htext _ _) (.cons (.of hoptional _ _) .nil))
    State.fields_apart _ _

theorem Arrow.read_alike : ReadAlike S (Arrow.read (ν := ν)) Arrow.read := by
  have htext : ReadAlike S readText readText := readText_alike hS
  have hoptional : ReadAlike S (readOptional readText) (readOptional readText) :=
    readOptional_alike hS htext
  have hdelay : ReadAlike S (readOptional (readNatural 0x10000000000000000))
      (readOptional (readNatural 0x10000000000000000)) :=
    readOptional_alike hS (readNatural_alike hS _)
  exact readRecord_alike hS (.cons (.of htext _ _) (.cons (.of htext _ _) (.cons (.of hoptional _ _)
    (.cons (.of hoptional _ _) (.cons (.of hdelay _ _) (.cons (.of hoptional _ _) .nil))))))
    Arrow.fields_apart _ _

theorem Variable.read_alike : ReadAlike S (Variable.read (ν := ν)) Variable.read := by
  have htext : ReadAlike S readText readText := readText_alike hS
  exact readRecord_alike hS (.cons (.of htext _ _) (.cons (.of htext _ _)
    (.cons (.of (readScalar_alike hS) _ _) .nil))) Variable.fields_apart _ _

theorem Declaration.read_alike : ReadAlike S (Declaration.read (ν := ν)) Declaration.read := by
  have htext : ReadAlike S readText readText := readText_alike hS
  have hoptional : ReadAlike S (readOptional readText) (readOptional readText) :=
    readOptional_alike hS htext
  have hnames : ReadAlike S (readList readText) (readList readText) := readList_alike hS htext
  have hstates := readList_alike hS (State.read_alike hS)
  have hvars := readList_alike hS (Variable.read_alike hS)
  have harrows := readList_alike hS (Arrow.read_alike hS)
  exact readRecord_alike hS (.cons (.of htext _ _) (.cons (.of hoptional _ _)
    (.cons (.of hstates _ _) (.cons (.of harrows _ _) (.cons (.of hvars _ _)
    (.cons (.of hnames _ _) (.cons (.of hnames _ _) .nil))))))) Declaration.fields_apart _ _

end RemoteAutomaton.Machine

namespace RemoteAutomaton.Automaton

open Json (Stands Tree Value sameNodes_stands)
open Machine (Declaration Definition)

theorem stands_of_ofText {s : String} {v w : Value} (hv : Value.ofText s = .ok v)
    (hkeys : (Tree.read s.toList).root.distinctKeys) (hw : v.Same w) :
    Stands (Tree.read s.toList).root w ∧ (Tree.read s.toList).trailing = false := by
  simp only [Value.ofText, Json.readText] at hv
  split at hv
  · cases hv
  · rename_i u hu
    split_ifs at hv with htrailing
    cases hv
    exact ⟨⟨_, v, hu, hkeys, hw⟩, Bool.eq_false_iff.2 htrailing⟩

/-- The same declaration is read from a text and from its value, or none from either. -/
theorem declarations_agree {s : String} {v w : Value} (hv : Value.ofText s = .ok v)
    (hkeys : (Tree.read s.toList).root.distinctKeys) (hw : v.Same w) :
    (declarationOfText s).toOption = (declarationOfValue w).toOption := by
  obtain ⟨hstands, htrailing⟩ := stands_of_ofText hv hkeys hw
  rw [declarationOfValue, ← Declaration.read_alike sameNodes_stands hstands]
  simp only [declarationOfText, Json.readText, htrailing]
  cases Declaration.read (Tree.read s.toList).root <;> rfl

/-- Where no object of a text repeats a key, a machine is read from the text as from its value, in
whatever order the value keeps its entries: both give the same machine, or both find the same
defect, or neither finds the wanted JSON. -/
theorem loaders_agree {s : String} {v w : Value} (hv : Value.ofText s = .ok v)
    (hkeys : (Tree.read s.toList).root.distinctKeys) (hw : v.Same w) :
    (∃ d, definitionOfText s = .ok d ∧ definitionOfValue w = .ok d)
      ∨ ∃ x y, definitionOfText s = .error x ∧ definitionOfValue w = .error y
        ∧ x.code = "INVALID_DEFINITION" ∧ y.code = "INVALID_DEFINITION"
        ∧ ((∃ reason, x = .invalidDefinition reason ∧ y = .invalidDefinition reason)
          ∨ ∃ f g, x = .json f ∧ y = .json g) := by
  have hagree := declarations_agree hv hkeys hw
  cases htext : declarationOfText s with
  | error f =>
    cases hvalue : declarationOfValue w with
    | error g =>
      refine .inr ⟨.json f, .json g, ?_, ?_, rfl, rfl, .inr ⟨f, g, rfl, rfl⟩⟩
      · rw [definitionOfText, htext]
      · rw [definitionOfValue, hvalue]
    | ok r =>
      rw [htext, hvalue] at hagree
      cases hagree
  | ok r =>
    cases hvalue : declarationOfValue w with
    | error g =>
      rw [htext, hvalue] at hagree
      cases hagree
    | ok r' =>
      rw [htext, hvalue] at hagree
      cases hagree
      simp only [definitionOfText, definitionOfValue, htext, hvalue, checkDeclaration]
      cases Definition.ofDeclaration r with
      | ok d => exact .inl ⟨d, rfl, rfl⟩
      | error defect =>
        exact .inr ⟨_, _, rfl, rfl, rfl, rfl, .inl ⟨defect.message, rfl, rfl⟩⟩

/-- The text of this value has records as lists, an entry that is not known, a null and defaults. -/
theorem loaders_agree_reordered :
    let entries : List (String × Value) :=
      [("states", .list [.list [.text "A"],
          .object [("note", .list [.null]), ("action", .null), ("name", .text "B")]]),
        ("transitions", .list [.list [.text "A", .text "B", .text "go"]]),
        ("variables", .list [.object [("name", .text "n"), ("initial", .ofInt (-5))]])]
    let v : Value := .object entries
    let w : Value := .object entries.reverse
    Value.ofText v.toText = .ok v ∧ (Tree.read v.toText.toList).root.distinctKeys ∧ v.Same w
      ∧ ∃ d, definitionOfText v.toText = .ok d ∧ definitionOfValue w = .ok d := by
  intro entries v w
  have hplain : v.Plain Value.maxDepth := by
    simp [v, entries, Value.maxDepth, Value.Plain, Value.ofInt]
  have hv : Value.ofText v.toText = .ok v := Json.ofText_toText hplain
  have hkeys : (Tree.read v.toText.toList).root.distinctKeys := by
    rw [Json.read_toText hplain]
    decide +kernel
  have hw : v.Same w := Value.same_of_perm (by decide) (List.reverse_perm entries).symm
  refine ⟨hv, hkeys, hw, ?_⟩
  rcases loaders_agree hv hkeys hw with hd | ⟨x, y, -, hy, -⟩
  · exact hd
  · have hok : (definitionOfValue w).isOk = true := by decide +kernel
    rw [hy] at hok
    cases hok

end RemoteAutomaton.Automaton
