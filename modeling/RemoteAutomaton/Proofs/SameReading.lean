import Mathlib.Data.List.Forall2
import Mathlib.Data.List.Nodup
import Mathlib.Data.List.Pairwise
import Mathlib.Data.List.Perm.Basic
import RemoteAutomaton.Document.Record

/-!
# Readers of two notations

Nodes of two notations may show the same (`SameNodes`): the same scalars, lists of nodes that show
the same, and fields of the same names, each name once, in any order.  Readers cannot tell such
nodes apart.  They read the same from both or fail on both (`ReadAlike`), though they may blame
different faults.

For records this needs that the fields of a record do not get in each other's way (`Field.Apart`).
Then the order in which they are met makes no difference (`readEntries_perm`).
-/

namespace RemoteAutomaton.Document

/-! ### Outcomes without their faults -/

theorem toOption_bind {ε α β : Type} (x : Except ε α) (f : α → Except ε β) :
    (x >>= f).toOption = x.toOption.bind fun a => (f a).toOption := by
  cases x <;> rfl

theorem toOption_map {ε α β : Type} (x : Except ε α) (f : α → β) :
    (x.map f).toOption = x.toOption.map f := by
  cases x <;> rfl

theorem exists_of_map_eq_ok {ε α β : Type} {x : Except ε α} {f : α → β} {b : β}
    (h : x.map f = .ok b) : ∃ a, x = .ok a ∧ b = f a := by
  cases x with
  | error => cases h
  | ok a =>
    cases h
    exact ⟨a, rfl, rfl⟩

theorem exists_of_bind_eq_ok {ε α β : Type} {x : Except ε α} {f : α → Except ε β}
    {b : β} (h : x >>= f = .ok b) : ∃ a, x = .ok a ∧ f a = .ok b := by
  cases x with
  | error => cases h
  | ok a => exact ⟨a, rfl, h⟩

def named {ν ε : Type} (entries : List (String × ν)) : List (Except ε String × ν) :=
  entries.map fun e => (.ok e.1, e.2)

/-! ### The order of fields -/

section Order

variable {ν ε σ : Type} [Source ν ε] {fields : List (Field ν ε σ)} {f g : Field ν ε σ}

/-- Two fields that can be read in either order. -/
structure Field.Apart (f g : Field ν ε σ) : Prop where
  isSet_left : ∀ {n d d'}, g.put n d = .ok d' → f.isSet d' = f.isSet d
  isSet_right : ∀ {n d d'}, f.put n d = .ok d' → g.isSet d' = g.isSet d
  comm : ∀ n m d, (f.put n d).toOption.bind (fun d => (g.put m d).toOption)
    = (g.put m d).toOption.bind fun d => (f.put n d).toOption

omit [Source ν ε] in
theorem Field.Apart.symm (h : f.Apart g) : g.Apart f :=
  ⟨h.isSet_right, h.isSet_left, fun n m d => (h.comm m n d).symm⟩

instance : Std.Symm (Field.Apart (ν := ν) (ε := ε) (σ := σ)) :=
  ⟨fun _ _ => Field.Apart.symm⟩

omit [Source ν ε] in
/-- Fields that the draft keeps in different places are apart. -/
theorem Field.apart_of {β γ : Type} {name name' : String} {read : ν → Except ε β}
    {read' : ν → Except ε γ} {get : σ → Option β} {get' : σ → Option γ} {set : σ → β → σ}
    {set' : σ → γ → σ} (hleft : ∀ d v, get (set' d v) = get d)
    (hright : ∀ d v, get' (set d v) = get' d)
    (hcomm : ∀ d v w, set' (set d v) w = set (set' d w) v) :
    (Field.of name read get set).Apart (Field.of name' read' get' set') where
  isSet_left h := by
    obtain ⟨v, -, rfl⟩ := exists_of_map_eq_ok h
    exact congrArg Option.isSome (hleft _ v)
  isSet_right h := by
    obtain ⟨v, -, rfl⟩ := exists_of_map_eq_ok h
    exact congrArg Option.isSome (hright _ v)
  comm n m d := by
    simp only [Field.of, toOption_map]
    cases (read n).toOption with
    | none => cases (read' m).toOption <;> rfl
    | some v =>
      cases (read' m).toOption with
      | none => rfl
      | some w => exact congrArg some (hcomm d v w)

/-- Takes the value of a field into a draft that does not have it. -/
def Field.take (f : Field ν ε σ) (n : ν) (d : σ) : Option σ :=
  if f.isSet d then none else (f.put n d).toOption

omit [Source ν ε] in
theorem Field.Apart.take_bind (h : f.Apart g) (n m : ν) (d : σ) :
    (f.take n d).bind (g.take m) = if f.isSet d ∨ g.isSet d then none
      else (f.put n d).toOption.bind fun d => (g.put m d).toOption := by
  by_cases hf : f.isSet d
  · simp [Field.take, hf]
  · simp only [Field.take, hf, Bool.false_eq_true, false_or, if_false]
    cases hput : f.put n d with
    | error x => simp [Except.toOption]
    | ok d' => simp [Except.toOption, Field.take, h.isSet_right hput]

omit [Source ν ε] in
theorem Field.Apart.take_comm (h : f.Apart g) (n m : ν) (d : σ) :
    (f.take n d).bind (g.take m) = (g.take m d).bind (f.take n) := by
  rw [h.take_bind, h.symm.take_bind, h.comm]
  simp only [or_comm]

def takeEntry (fields : List (Field ν ε σ)) (entry : String × ν) (d : σ) : Option σ :=
  match fields.find? fun f => f.name == entry.1 with
  | some f => f.take entry.2 d
  | none => (Source.skip entry.2).toOption.map fun _ => d

theorem readEntries_cons (key : String) (n : ν) (rest : List (String × ν)) (d : σ) :
    (readEntries fields (named ((key, n) :: rest)) d).toOption
      = (takeEntry fields (key, n) d).bind fun d =>
          (readEntries fields (named rest) d).toOption := by
  have hstep : readEntries fields (named ((key, n) :: rest)) d
      = match fields.find? fun f => f.name == key with
        | some f =>
          if f.isSet d then .error (Source.unfit ν)
          else f.put n d >>= fun d => readEntries fields (named rest) d
        | none => Source.skip n >>= fun _ => readEntries fields (named rest) d := rfl
  rw [hstep, takeEntry]
  cases fields.find? fun f => f.name == key with
  | none =>
    dsimp only
    rw [toOption_bind]
    cases (Source.skip n).toOption <;> rfl
  | some f =>
    dsimp only [Field.take]
    split
    · rfl
    · exact toOption_bind _ _

theorem bind_takeEntry_none : ∀ entries : List (String × ν),
    entries.foldl (fun d entry => d.bind (takeEntry fields entry)) none = none
  | [] => rfl
  | _ :: rest => bind_takeEntry_none rest

theorem readEntries_eq_foldl : ∀ (entries : List (String × ν)) (d : σ),
    (readEntries fields (named entries) d).toOption
      = entries.foldl (fun d entry => d.bind (takeEntry fields entry)) (some d)
  | [], _ => rfl
  | (key, n) :: rest, d => by
    rw [readEntries_cons, List.foldl_cons, Option.bind_some]
    cases takeEntry fields (key, n) d with
    | none => exact (bind_takeEntry_none rest).symm
    | some d' => exact readEntries_eq_foldl rest d'

/-- An entry that is passed over is passed over before or after anything else. -/
theorem bind_passed (passed : Option Unit) (take : σ → Option σ) (d : σ) :
    (passed.map fun _ => d).bind take = (take d).bind fun d => passed.map fun _ => d := by
  cases passed <;> simp

theorem takeEntry_comm (hfields : fields.Pairwise Field.Apart) {x y : String × ν}
    (hne : x.1 ≠ y.1) (d : σ) :
    (takeEntry fields x d).bind (takeEntry fields y)
      = (takeEntry fields y d).bind (takeEntry fields x) := by
  unfold takeEntry
  cases hf : fields.find? fun f => f.name == x.1 with
  | none => exact bind_passed _ _ d
  | some f =>
    cases hg : fields.find? fun f => f.name == y.1 with
    | none => exact (bind_passed (Source.skip y.2).toOption (f.take x.2) d).symm
    | some g =>
      have hfg : f ≠ g := by
        rintro rfl
        have hx := List.find?_some hf
        have hy := List.find?_some hg
        exact hne ((eq_of_beq hx).symm.trans (eq_of_beq hy))
      have hapart : f.Apart g :=
        hfields.forall (List.mem_of_find?_eq_some hf) (List.mem_of_find?_eq_some hg) hfg
      exact hapart.take_comm _ _ d

/-- Entries of different names are read alike in any order: two that change places commute, or are
the same entry. -/
theorem readEntries_perm (hfields : fields.Pairwise Field.Apart)
    {entries entries' : List (String × ν)} (hkeys : (entries.map Prod.fst).Nodup)
    (hp : entries.Perm entries') (d : σ) :
    (readEntries fields (named entries) d).toOption
      = (readEntries fields (named entries') d).toOption := by
  rw [readEntries_eq_foldl, readEntries_eq_foldl]
  refine hp.foldl_eq' (fun x hx y hy d => ?_) _
  by_cases hxy : x.1 = y.1
  · rw [List.inj_on_of_nodup_map hkeys hx hy hxy]
  · cases d with
    | none => rfl
    | some d => exact takeEntry_comm hfields hxy d

end Order

/-! ### What is read from a node that is seen -/

section Seen

variable {ν ε α σ : Type} [Source ν ε] {n : ν}

theorem readList_of_see {read : ν → Except ε α} {items : List ν}
    (hsee : Source.see n = .ok (.list items (.ok ()))) :
    readList read n = readItems read items := by
  rw [readList, hsee]
  cases hitems : readItems read items <;> simp [bind, Except.bind, pure, Except.pure, hitems]

variable {fields : List (Field ν ε σ)} {blank : σ} {finish : σ → Option α}

theorem toOption_complete (finish : σ → Option α) (d : σ) :
    (complete (ν := ν) finish d : Except ε α).toOption = finish d := by
  rw [complete]
  cases finish d <;> rfl

theorem readRecord_of_fields {entries : List (Except ε String × ν)}
    (hsee : Source.see n = .ok (.fields entries (.ok ()))) :
    (readRecord fields blank finish n).toOption
      = (readEntries fields entries blank).toOption.bind finish := by
  rw [readRecord, hsee]
  cases hentries : readEntries fields entries blank with
  | error x => simp [bind, Except.bind, hentries, Except.toOption]
  | ok d =>
    simp only [bind, Except.bind, hentries]
    exact toOption_complete (ν := ν) finish d

theorem readRecord_of_list {items : List ν} (hsee : Source.see n = .ok (.list items (.ok ()))) :
    (readRecord fields blank finish n).toOption = if Source.positional ν then
      (readInOrder fields items (.ok ()) blank).toOption.bind finish else none := by
  rw [readRecord, hsee]
  simp only [bind, Except.bind]
  split
  · cases readInOrder fields items (.ok ()) blank with
    | error x => rfl
    | ok d => exact toOption_complete (ν := ν) finish d
  · rfl

end Seen

/-! ### Two notations -/

section Two

variable {ν ε μ η α β σ : Type} [Source ν ε] [Source μ η] {S : ν → μ → Prop}

/-- Two nodes show the same, where `S` tells of their parts whether they do. -/
inductive SameSight (S : ν → μ → Prop) : Sight ν ε → Sight μ η → Prop
  | scalar (x : Scalar) (spelling : Option String) :
    SameSight S (.scalar x spelling) (.scalar x spelling)
  | list {items : List ν} {items' : List μ} (h : List.Forall₂ S items items') :
    SameSight S (.list items (.ok ())) (.list items' (.ok ()))
  | fields {entries : List (String × ν)} {entries' : List (String × μ)}
    (hkeys : (entries.map Prod.fst).Nodup)
    (hsame : (entries.map Prod.fst).Perm (entries'.map Prod.fst))
    (h : ∀ key n m, (key, n) ∈ entries → (key, m) ∈ entries' → S n m) :
    SameSight S (.fields (named entries) (.ok ())) (.fields (named entries') (.ok ()))

/-- Nodes of two notations that show the same all the way down, and nothing that is broken. -/
structure SameNodes (S : ν → μ → Prop) : Prop where
  see : ∀ {n m}, S n m →
    ∃ x y, Source.see n = .ok x ∧ Source.see m = .ok y ∧ SameSight S x y
  skip_left : ∀ {n m}, S n m → Source.skip n = .ok ()
  skip_right : ∀ {n m}, S n m → Source.skip m = .ok ()
  positional : Source.positional ν = Source.positional μ
  nullIsEmpty : Source.nullIsEmpty ν = Source.nullIsEmpty μ

/-- Two readers that read the same from nodes that show the same, or fail on both. -/
def ReadAlike (S : ν → μ → Prop) (read : ν → Except ε α) (read' : μ → Except η α) : Prop :=
  ∀ ⦃n m⦄, S n m → (read n).toOption = (read' m).toOption

/-- The same field in two notations. -/
structure SameField (S : ν → μ → Prop) (f : Field ν ε σ) (g : Field μ η σ) : Prop where
  name : f.name = g.name
  isSet : f.isSet = g.isSet
  put : ∀ {n m} d, S n m → (f.put n d).toOption = (g.put m d).toOption

omit [Source ν ε] [Source μ η] in
theorem SameField.of {name : String} {read : ν → Except ε β} {read' : μ → Except η β}
    (hread : ReadAlike S read read') (get : σ → Option β) (set : σ → β → σ) :
    SameField S (Field.of name read get set) (Field.of name read' get set) where
  name := rfl
  isSet := rfl
  put d h := by
    simp only [Field.of, toOption_map, hread h]

omit [Source ν ε] [Source μ η] in
/-- Entries of the same names can be brought into the same order. -/
theorem exists_reordered : ∀ {entries : List (String × ν)} {entries' : List (String × μ)},
    (entries.map Prod.fst).Perm (entries'.map Prod.fst) →
    (∀ key n m, (key, n) ∈ entries → (key, m) ∈ entries' → S n m) →
    ∃ reordered, List.Forall₂ (fun e e' => e.1 = e'.1 ∧ S e.2 e'.2) entries reordered
      ∧ reordered.Perm entries'
  | [], entries', hkeys, _ => by
    have hnil : entries' = [] := List.map_eq_nil_iff.1 (List.nil_perm.1 hkeys)
    exact ⟨[], .nil, by rw [hnil]⟩
  | (key, n) :: rest, entries', hkeys, h => by
    obtain ⟨⟨key', m⟩, hmem, rfl⟩ := List.mem_map.1 (hkeys.subset List.mem_cons_self)
    obtain ⟨before, after, rfl⟩ := List.append_of_mem hmem
    have hmiddle : ((key', m) :: (before ++ after)).Perm (before ++ (key', m) :: after) :=
      List.perm_middle.symm
    have hrest : (rest.map Prod.fst).Perm ((before ++ after).map Prod.fst) :=
      (hkeys.trans (hmiddle.symm.map Prod.fst)).cons_inv
    obtain ⟨reordered, hall, hperm⟩ := exists_reordered hrest fun k a b ha hb =>
      h k a b (List.mem_cons_of_mem _ ha) (hmiddle.subset (List.mem_cons_of_mem _ hb))
    exact ⟨(key', m) :: reordered, .cons ⟨rfl, h _ _ _ List.mem_cons_self hmem⟩ hall,
      (hperm.cons _).trans hmiddle⟩

omit [Source ν ε] [Source μ η] in
theorem readItems_alike {read : ν → Except ε α} {read' : μ → Except η α}
    (hread : ReadAlike S read read') : ∀ {items : List ν} {items' : List μ},
    List.Forall₂ S items items' →
      (readItems read items).toOption = (readItems read' items').toOption
  | _, _, .nil => rfl
  | _, _, .cons h hrest => by
    simp only [readItems, toOption_bind, hread h, readItems_alike hread hrest]
    rfl

theorem readInOrder_alike : ∀ {fields : List (Field ν ε σ)} {fields' : List (Field μ η σ)}
    {items : List ν} {items' : List μ} (d : σ), List.Forall₂ (SameField S) fields fields' →
    List.Forall₂ S items items' → (readInOrder fields items (.ok ()) d).toOption
      = (readInOrder fields' items' (.ok ()) d).toOption
  | _, _, _, _, _, .nil, .nil => rfl
  | _, _, _, _, _, .nil, .cons _ _ => rfl
  | _, _, _, _, _, .cons _ _, .nil => rfl
  | _, _, _, _, d, .cons hf hfields, .cons h hitems => by
    simp only [readInOrder, toOption_bind, hf.put d h]
    exact congrArg _ (funext fun d => readInOrder_alike d hfields hitems)

omit [Source ν ε] [Source μ η] in
theorem find?_alike (name : String) :
    ∀ {fields : List (Field ν ε σ)} {fields' : List (Field μ η σ)},
    List.Forall₂ (SameField S) fields fields' → Option.Rel (SameField S)
      (fields.find? fun f => f.name == name) (fields'.find? fun f => f.name == name)
  | _, _, .nil => .none
  | f :: _, g :: _, .cons hf hfields => by
    by_cases hname : f.name = name
    · have hname' : g.name = name := hf.name.symm.trans hname
      rw [List.find?_cons_of_pos (by simpa using hname),
        List.find?_cons_of_pos (by simpa using hname')]
      exact .some hf
    · have hname' : ¬ g.name = name := fun heq => hname (hf.name.trans heq)
      rw [List.find?_cons_of_neg (by simpa using hname),
        List.find?_cons_of_neg (by simpa using hname')]
      exact find?_alike name hfields

section Readers

variable (hS : SameNodes S)

include hS

theorem readText_alike : ReadAlike S (readText (ν := ν)) (readText (ν := μ)) := by
  intro n m h
  obtain ⟨x, y, hx, hy, hxy⟩ := hS.see h
  simp only [readText, hx, hy, bind, Except.bind]
  cases hxy with
  | scalar x spelling => cases spelling <;> rfl
  | list => rfl
  | fields => rfl

theorem readOptional_alike {read : ν → Except ε α} {read' : μ → Except η α}
    (hread : ReadAlike S read read') : ReadAlike S (readOptional read) (readOptional read') := by
  intro n m h
  obtain ⟨x, y, hx, hy, hxy⟩ := hS.see h
  have hsome : (read n >>= fun a => pure (some a) : Except ε (Option α)).toOption
      = (read' m >>= fun a => pure (some a) : Except η (Option α)).toOption := by
    rw [toOption_bind, toOption_bind, hread h]
    rfl
  simp only [readOptional, hx, hy, bind, Except.bind]
  cases hxy with
  | scalar x spelling =>
    cases x with
    | null => rfl
    | truth | number | text => exact hsome
  | list => exact hsome
  | fields => exact hsome

theorem readNatural_alike (bound : Nat) :
    ReadAlike S (readNatural (ν := ν) bound) (readNatural (ν := μ) bound) := by
  intro n m h
  obtain ⟨x, y, hx, hy, hxy⟩ := hS.see h
  simp only [readNatural, hx, hy, bind, Except.bind]
  cases hxy with
  | scalar x spelling =>
    rcases x with _ | _ | (k | _) | _
    · rfl
    · rfl
    · dsimp only
      split <;> rfl
    · rfl
    · rfl
  | list => rfl
  | fields => rfl

theorem readScalar_alike : ReadAlike S (readScalar (ν := ν)) (readScalar (ν := μ)) := by
  intro n m h
  obtain ⟨x, y, hx, hy, hxy⟩ := hS.see h
  simp only [readScalar, hx, hy, bind, Except.bind]
  cases hxy with
  | scalar x spelling =>
    dsimp only
    cases x.keptText <;> rfl
  | list => rfl
  | fields => rfl

theorem readList_alike {read : ν → Except ε α} {read' : μ → Except η α}
    (hread : ReadAlike S read read') : ReadAlike S (readList read) (readList read') := by
  intro n m h
  obtain ⟨x, y, hx, hy, hxy⟩ := hS.see h
  cases hxy with
  | scalar x spelling =>
    simp only [readList, hx, hy, bind, Except.bind]
    cases x with
    | null =>
      dsimp only
      rw [hS.nullIsEmpty]
      split <;> rfl
    | truth | number | text => rfl
  | list hitems =>
    rw [readList_of_see hx, readList_of_see hy]
    exact readItems_alike hread hitems
  | fields =>
    simp only [readList, hx, hy, bind, Except.bind]
    rfl

theorem takeEntry_alike {fields : List (Field ν ε σ)} {fields' : List (Field μ η σ)}
    (hfields : List.Forall₂ (SameField S) fields fields') {key : String} {n : ν} {m : μ}
    (h : S n m) (d : σ) : takeEntry fields (key, n) d = takeEntry fields' (key, m) d := by
  have hfind := find?_alike key hfields
  unfold takeEntry
  generalize fields.find? (fun f => f.name == key) = x at hfind
  generalize fields'.find? (fun f => f.name == key) = y at hfind
  cases hfind with
  | none =>
    dsimp only
    rw [hS.skip_left h, hS.skip_right h]
    rfl
  | some hf =>
    simp only [Field.take, hf.isSet, hf.put d h]

theorem readEntries_alike {fields : List (Field ν ε σ)} {fields' : List (Field μ η σ)}
    (hfields : List.Forall₂ (SameField S) fields fields') : ∀ {entries : List (String × ν)}
    {entries' : List (String × μ)},
    List.Forall₂ (fun e e' => e.1 = e'.1 ∧ S e.2 e'.2) entries entries' → ∀ d,
    (readEntries fields (named entries) d).toOption
      = (readEntries fields' (named entries') d).toOption
  | _, _, .nil, _ => rfl
  | (key, n) :: _, (_, m) :: _, .cons ⟨rfl, h⟩ hrest, d => by
    rw [readEntries_cons, readEntries_cons, takeEntry_alike hS hfields h]
    exact congrArg _ (funext fun d => readEntries_alike hfields hrest d)

/-- Records are read alike if their fields are the same and do not get in each other's way. -/
theorem readRecord_alike {fields : List (Field ν ε σ)} {fields' : List (Field μ η σ)}
    (hfields : List.Forall₂ (SameField S) fields fields') (hapart : fields'.Pairwise Field.Apart)
    (blank : σ) (finish : σ → Option α) :
    ReadAlike S (readRecord fields blank finish) (readRecord fields' blank finish) := by
  intro n m h
  obtain ⟨x, y, hx, hy, hxy⟩ := hS.see h
  cases hxy with
  | scalar x spelling =>
    simp only [readRecord, hx, hy, bind, Except.bind]
    cases x with
    | null =>
      dsimp only
      rw [hS.nullIsEmpty]
      split
      · rw [toOption_complete, toOption_complete]
      · rfl
    | truth | number | text => rfl
  | list hitems =>
    rw [readRecord_of_list hx, readRecord_of_list hy, hS.positional,
      readInOrder_alike blank hfields hitems]
  | fields hkeys hsame hnodes =>
    obtain ⟨reordered, hall, hperm⟩ := exists_reordered hsame hnodes
    have hdistinct : (reordered.map Prod.fst).Nodup :=
      ((hperm.map Prod.fst).trans hsame.symm).nodup_iff.2 hkeys
    rw [readRecord_of_fields hx, readRecord_of_fields hy, readEntries_alike hS hfields hall,
      readEntries_perm hapart hdistinct hperm]

end Readers

end Two

end RemoteAutomaton.Document
