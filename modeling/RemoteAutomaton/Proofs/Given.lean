import RemoteAutomaton.Proofs.SameReading

/-!
# What a record has been given

A record gives a field a node under the field's name, or where a list of the fields has its place
(`Gives`).  Reading goes through the nodes one after the other and keeps what it reads in a draft
(`Drafts`), where most fields have a place of their own (`Slot`): a field that may not occur twice
cannot lose what it was given.  So a record that is read has in each slot what is read from the node
that the slot's field was given (`Slot.exists_get`).
-/

namespace RemoteAutomaton.Document

variable {ν ε α β σ : Type} [Source ν ε]

/-- What the fields of a record are read into, before it is completed. -/
inductive Drafts (fields : List (Field ν ε σ)) (blank : σ) (n : ν) (d : σ) : Prop
  | entries {entries ending} (hsee : Source.see n = .ok (.fields entries ending))
    (hread : readEntries fields entries blank = .ok d)
  | items {items ending} (hsee : Source.see n = .ok (.list items ending))
    (hread : readInOrder fields items ending blank = .ok d)
  | nothing {spelling} (hsee : Source.see n = .ok (.scalar .null spelling)) (hd : d = blank)

/-- A record has this node for a field: under the name of the field, or where a list of the fields
has its place. -/
inductive Gives (names : List String) (name : String) (n m : ν) : Prop
  | entry {entries ending} (hsee : Source.see n = .ok (.fields entries ending))
    (hm : (.ok name, m) ∈ entries)
  | item {items ending} {i : Nat} (hsee : Source.see n = .ok (.list items ending))
    (hname : names[i]? = some name) (hm : items[i]? = some m)

theorem finish_of_complete {finish : σ → Option α} {d : σ} {a : α}
    (h : complete (ν := ν) finish d = .ok a) : finish d = some a := by
  rw [complete] at h
  split at h
  · rename_i b hb
    cases h
    exact hb
  · cases h

theorem drafts_of_readRecord {fields : List (Field ν ε σ)} {blank : σ} {finish : σ → Option α}
    {n : ν} {a : α} (h : readRecord fields blank finish n = .ok a) :
    ∃ d, Drafts fields blank n d ∧ finish d = some a := by
  obtain ⟨sight, hsee, h⟩ := exists_of_bind_eq_ok h
  split at h
  · obtain ⟨d, hd, h⟩ := exists_of_bind_eq_ok h
    obtain ⟨-, -, h⟩ := exists_of_bind_eq_ok h
    exact ⟨d, .entries hsee hd, finish_of_complete h⟩
  · split_ifs at h
    obtain ⟨d, hd, h⟩ := exists_of_bind_eq_ok h
    exact ⟨d, .items hsee hd, finish_of_complete h⟩
  · split_ifs at h
    exact ⟨blank, .nothing hsee rfl, finish_of_complete h⟩
  · cases h

/-- A place in a draft that a field of this name fills and no other field touches. -/
structure Slot (fields : List (Field ν ε σ)) (name : String) (read : ν → Except ε β)
    (get : σ → Option β) (set : σ → β → σ) : Prop where
  find : fields.find? (fun f => f.name == name) = some (.of name read get set)
  get_set : ∀ d v, get (set d v) = some v
  kept : ∀ f ∈ fields, f.name ≠ name → ∀ {n d d'}, f.put n d = .ok d' → get d' = get d

section Slot

variable {fields : List (Field ν ε σ)} {name : String} {read : ν → Except ε β}
  {get : σ → Option β} {set : σ → β → σ} {d d' : σ} {n m : ν}

omit [Source ν ε] in
theorem get_of_put {γ : Type} {read' : ν → Except ε γ} {get' : σ → Option γ} {set' : σ → γ → σ}
    (hset : ∀ d v, get (set' d v) = get d)
    (hput : (Field.of name read' get' set').put n d = .ok d') : get d' = get d := by
  obtain ⟨v, -, rfl⟩ := exists_of_map_eq_ok hput
  exact hset d v

/-- What a slot holds stays while entries are read: the field may not occur again, so every entry
that is read fills another place. -/
theorem Slot.get_of_readEntries (h : Slot fields name read get set) {v : β} :
    ∀ {entries : List (Except ε String × ν)} {d : σ}, readEntries fields entries d = .ok d' →
      get d = some v → get d' = some v
  | [], d, hread, hd => by
    cases hread
    exact hd
  | (key, n) :: rest, d, hread, hd => by
    obtain ⟨key, -, hread⟩ := exists_of_bind_eq_ok hread
    split at hread
    · rename_i f hf
      split_ifs at hread with hset
      obtain ⟨d₁, hput, hread⟩ := exists_of_bind_eq_ok hread
      have hname := List.find?_some hf
      refine h.get_of_readEntries hread ?_
      rw [h.kept f (List.mem_of_find?_eq_some hf) (fun heq => hset ?_) hput, hd]
      obtain rfl : key = name := (eq_of_beq hname).symm.trans heq
      obtain rfl : _ = f := Option.some.inj (h.find.symm.trans hf)
      simp [Field.of, hd]
    · obtain ⟨-, -, hread⟩ := exists_of_bind_eq_ok hread
      exact h.get_of_readEntries hread hd

theorem Slot.exists_of_readEntries (h : Slot fields name read get set) :
    ∀ {entries : List (Except ε String × ν)} {d : σ}, readEntries fields entries d = .ok d' →
      (.ok name, m) ∈ entries → ∃ v, read m = .ok v ∧ get d' = some v
  | (key, n) :: rest, d, hread, hm => by
    obtain ⟨key', hkey, hread⟩ := exists_of_bind_eq_ok hread
    rcases List.mem_cons.1 hm with hm | hm
    · cases hm
      cases hkey
      rw [h.find] at hread
      dsimp only at hread
      split_ifs at hread
      obtain ⟨d₁, hput, hread⟩ := exists_of_bind_eq_ok hread
      obtain ⟨v, hv, rfl⟩ := exists_of_map_eq_ok hput
      exact ⟨v, hv, h.get_of_readEntries hread (h.get_set d v)⟩
    · split at hread
      · split_ifs at hread
        obtain ⟨d₁, -, hread⟩ := exists_of_bind_eq_ok hread
        exact h.exists_of_readEntries hread hm
      · obtain ⟨-, -, hread⟩ := exists_of_bind_eq_ok hread
        exact h.exists_of_readEntries hread hm

theorem get_of_readInOrder : ∀ {fields : List (Field ν ε σ)} {items : List ν}
    {ending : Except ε Unit} {d : σ},
    (∀ f ∈ fields, ∀ {n d d'}, f.put n d = .ok d' → get d' = get d) →
    readInOrder fields items ending d = .ok d' → get d' = get d
  | [], [], _, d, _, hread => by
    obtain ⟨-, -, hread⟩ := exists_of_bind_eq_ok hread
    cases hread
    rfl
  | [], _ :: _, _, _, _, hread => by cases hread
  | _ :: _, [], _, d, _, hread => by
    obtain ⟨-, -, hread⟩ := exists_of_bind_eq_ok hread
    cases hread
    rfl
  | f :: fields, n :: rest, _, d, hkept, hread => by
    obtain ⟨d₁, hput, hread⟩ := exists_of_bind_eq_ok hread
    obtain ⟨hf, hkept⟩ := List.forall_mem_cons.1 hkept
    rw [get_of_readInOrder hkept hread, hf hput]

theorem exists_of_readInOrder (hset : ∀ d v, get (set d v) = some v) :
    ∀ {fields : List (Field ν ε σ)} {items : List ν} {ending : Except ε Unit} {d : σ} {i : Nat},
    (∀ f ∈ fields, f.name ≠ name → ∀ {n d d'}, f.put n d = .ok d' → get d' = get d) →
    (fields.map (·.name)).Nodup → fields[i]? = some (.of name read get set) → items[i]? = some m →
    readInOrder fields items ending d = .ok d' → ∃ v, read m = .ok v ∧ get d' = some v
  | f :: fields, n :: rest, _, d, 0, hkept, hnames, hf, hm, hread => by
    obtain ⟨d₁, hput, hread⟩ := exists_of_bind_eq_ok hread
    cases hf
    cases hm
    obtain ⟨v, hv, rfl⟩ := exists_of_map_eq_ok hput
    refine ⟨v, hv, ?_⟩
    rw [← hset d v]
    refine get_of_readInOrder (fun g hg => ?_) hread
    refine hkept g (List.mem_cons_of_mem _ hg) fun hname => ?_
    exact (List.nodup_cons.1 hnames).1 (List.mem_map.2 ⟨g, hg, hname⟩)
  | f :: fields, n :: rest, _, d, i + 1, hkept, hnames, hf, hm, hread => by
    obtain ⟨d₁, -, hread⟩ := exists_of_bind_eq_ok hread
    exact exists_of_readInOrder hset (fun g hg => hkept g (List.mem_cons_of_mem _ hg))
      (List.nodup_cons.1 hnames).2 hf hm hread

/-- A slot holds what is read from the node that the record gives.  A node shows one thing, so there
is one way to read it. -/
theorem Slot.exists_get {blank : σ} (h : Slot fields name read get set)
    (hnames : (fields.map (·.name)).Nodup) (hd : Drafts fields blank n d)
    (hm : Gives (fields.map (·.name)) name n m) : ∃ v, read m = .ok v ∧ get d = some v := by
  rcases hm with ⟨hsee, hm⟩ | ⟨hsee, hname, hm⟩
  all_goals
    rcases hd with ⟨hsee', hread⟩ | ⟨hsee', hread⟩ | ⟨hsee', -⟩
    all_goals cases hsee.symm.trans hsee'
  · exact h.exists_of_readEntries hread hm
  · rw [List.getElem?_map, Option.map_eq_some_iff] at hname
    obtain ⟨f, hf, hname⟩ := hname
    have hslot : f = .of name read get set :=
      List.inj_on_of_nodup_map hnames (List.mem_of_getElem? hf) (List.mem_of_find?_eq_some h.find)
        hname
    exact exists_of_readInOrder h.get_set h.kept hnames (hslot ▸ hf) hm hread

end Slot

omit [Source ν ε] in
theorem exists_of_readItems {item : ν → Except ε α} {n : ν} : ∀ {items : List ν} {all : List α},
    readItems item items = .ok all → n ∈ items → ∃ a ∈ all, item n = .ok a
  | m :: rest, all, h, hn => by
    obtain ⟨a, ha, h⟩ := exists_of_bind_eq_ok h
    obtain ⟨as, has, h⟩ := exists_of_bind_eq_ok h
    cases h
    rcases List.mem_cons.1 hn with rfl | hn
    · exact ⟨a, List.mem_cons_self, ha⟩
    · obtain ⟨b, hb, hread⟩ := exists_of_readItems has hn
      exact ⟨b, List.mem_cons_of_mem a hb, hread⟩

theorem exists_of_readList {item : ν → Except ε α} {n m : ν} {items : List ν}
    {ending : Except ε Unit} {all : List α} (h : readList item m = .ok all)
    (hsee : Source.see m = .ok (.list items ending)) (hn : n ∈ items) :
    ∃ a ∈ all, item n = .ok a := by
  obtain ⟨sight, hsee', h⟩ := exists_of_bind_eq_ok h
  cases hsee.symm.trans hsee'
  obtain ⟨as, has, h⟩ := exists_of_bind_eq_ok h
  obtain ⟨-, -, h⟩ := exists_of_bind_eq_ok h
  cases h
  exact exists_of_readItems has hn

/-- An integer is kept as its decimal text, if 64 bits hold it. -/
theorem readScalar_of_integer {m : ν} {n : Int} {spelling : Option String}
    (hsee : Source.see m = .ok (.scalar (.number (.integer n)) spelling))
    (hlow : -0x8000000000000000 ≤ n) (hhigh : n < 0x10000000000000000) :
    readScalar m = .ok (toString n) := by
  rw [readScalar, hsee]
  simp only [bind, Except.bind, Scalar.keptText, if_pos (And.intro hlow hhigh)]
  rfl

end RemoteAutomaton.Document
