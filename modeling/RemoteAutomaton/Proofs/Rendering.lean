import RemoteAutomaton.Proofs.Spelling

/-!
# Values read back from their texts

The text of a value is read as one tree, `Tree.ofValue`, wherever the text stands (`Value.Reads`),
and evaluating the tree gives the value again (`ofTree_ofValue`).  This holds of the values whose
text says all of them (`Value.Plain`): their numbers are integers of 64 bits, no object has a key
twice, and they are not nested too deeply to be read.
-/

namespace RemoteAutomaton.Json

open Decimal (Number)
open Token (scan)
open Value (render renderText renderItems renderEntries joined)

mutual
/-- The tree of a value's text. -/
def Tree.ofValue : Value → Tree
  | .null => .null
  | .truth b => .truth b
  | .number n => (Tree.read n.text.toList).root
  | .text s => .text (Quoted.written s)
  | .list items => .list (Tree.ofItems items) none
  | .object entries => .object (Tree.ofEntries entries) none

def Tree.ofItems : List Value → List Tree
  | [] => []
  | v :: rest => Tree.ofValue v :: Tree.ofItems rest

def Tree.ofEntries : List (String × Value) → List (Quoted × Tree)
  | [] => []
  | (k, v) :: rest => (Quoted.written k, Tree.ofValue v) :: Tree.ofEntries rest
end

theorem ofItems_eq_map : ∀ items : List Value, Tree.ofItems items = items.map Tree.ofValue
  | [] => rfl
  | v :: items => by rw [Tree.ofItems, ofItems_eq_map items, List.map_cons]

theorem ofEntries_eq_map : ∀ entries : List (String × Value),
    Tree.ofEntries entries = entries.map fun e => (Quoted.written e.1, Tree.ofValue e.2)
  | [] => rfl
  | e :: entries => by rw [Tree.ofEntries, ofEntries_eq_map entries, List.map_cons]

/-- A value whose text says all of it, nested at most `depth` deep. -/
def Value.Plain : Nat → Value → Prop
  | _, .null | _, .truth _ | _, .text _ => True
  | _, .number n => ∃ k, n = .integer k ∧ -0x8000000000000000 ≤ k ∧ k < 0x10000000000000000
  | 0, .list _ | 0, .object _ => False
  | depth + 1, .list items => ∀ v ∈ items, Plain depth v
  | depth + 1, .object entries =>
    (entries.map Prod.fst).Nodup ∧ ∀ e ∈ entries, Plain depth e.2

namespace Value

variable {depth : Nat}

theorem plain_text (depth : Nat) (s : String) : (text s).Plain depth := by
  cases depth <;> trivial

theorem plain_natural (depth : Nat) {n : Nat} (hn : n < 0x10000000000000000) :
    (ofInt n).Plain depth := by
  have hplain : ∃ k : Int, Number.integer n = .integer k
      ∧ -0x8000000000000000 ≤ k ∧ k < 0x10000000000000000 := ⟨n, rfl, by omega, by omega⟩
  cases depth <;> exact hplain

theorem plain_object {entries : List (String × Value)} (keys : List String)
    (hkeys : (entries.map Prod.fst).Sublist keys) (hdistinct : keys.Nodup)
    (h : ∀ e ∈ entries, e.2.Plain depth) : (object entries).Plain (depth + 1) :=
  ⟨hdistinct.sublist hkeys, h⟩

theorem plain_list {α : Type} {write : α → Value} {items : List α}
    (h : ∀ a ∈ items, (write a).Plain depth) :
    (list (items.map write)).Plain (depth + 1) := by
  intro v hv
  obtain ⟨a, ha, rfl⟩ := List.mem_map.1 hv
  exact h a ha

theorem plain_number {n : Number} (h : (number n).Plain depth) :
    ∃ k, n = .integer k ∧ -0x8000000000000000 ≤ k ∧ k < 0x10000000000000000 := by
  cases depth <;> exact h

end Value

/-- The text of a value is read as its tree, wherever it stands. -/
def Value.Reads (v : Value) : Prop :=
  ∀ (stack : List Tree.Frame) (rest : List Char), EndsNumber rest →
    Tree.arrange .value stack (scan .start (v.render ++ rest))
      = Tree.arrange (.after (Tree.ofValue v)) stack (scan .start rest)

theorem endsNumber_cons {c : Char} (hc : c = ',' ∨ c = ']' ∨ c = '\x7d') (r : List Char) :
    EndsNumber (c :: r) := by
  intro x s h
  obtain ⟨rfl, -⟩ := List.cons.inj h
  rcases hc with rfl | rfl | rfl
  all_goals decide

section Places

variable {stack : List Tree.Frame} {rest : List Char}

/-- No text of a value begins with the end of a list. -/
theorem arrange_firstItem_render (v : Value) (hv : ∀ n, v = .number n → ∃ k, n = .integer k)
    (hrest : EndsNumber rest) :
    Tree.arrange .firstItem stack (scan .start (v.render ++ rest))
      = Tree.arrange .value (.list [] :: stack) (scan .start (v.render ++ rest)) := by
  cases v with
  | null => rfl
  | truth b => cases b <;> rfl
  | number n =>
    obtain ⟨k, rfl⟩ := hv n rfl
    rw [Value.render, scan_number hrest]
    rfl
  | text s =>
    rw [Value.render, scan_renderText]
    rfl
  | list items => rfl
  | object entries => rfl

theorem reads_items : ∀ (items : List Value) (v : Value) (done : List Tree),
    v.Reads → (∀ w ∈ items, w.Reads) →
    Tree.arrange .value (.list done :: stack)
        (scan .start (joined (renderItems (v :: items)) ++ ']' :: rest))
      = Tree.arrange (.after (.list (done.reverse ++ Tree.ofItems (v :: items)) none)) stack
        (scan .start rest)
  | [], v, done, hv, _ => by
    have hlist : (Tree.ofValue v :: done).reverse = done.reverse ++ Tree.ofItems [v] :=
      List.reverse_cons
    rw [← hlist]
    exact hv _ _ (endsNumber_cons (.inr (.inl rfl)) rest)
  | w :: items, v, done, hv, hitems => by
    have ih := reads_items items w (Tree.ofValue v :: done) (hitems w List.mem_cons_self)
      fun x hx => hitems x (List.mem_cons_of_mem w hx)
    have hcomma := hv (.list done :: stack)
      (',' :: (joined (renderItems (w :: items)) ++ ']' :: rest))
      (endsNumber_cons (.inl rfl) _)
    rw [List.reverse_cons, List.append_assoc] at ih
    rw [renderItems, renderItems, joined, List.append_assoc]
    exact hcomma.trans ih

variable (stack) in
theorem reads_entry {v : Value} (hv : v.Reads) (hrest : EndsNumber rest) (k : String)
    (done : List (Quoted × Tree)) :
    Tree.arrange (.key done) stack (scan .start ((renderText k ++ ':' :: v.render) ++ rest))
      = Tree.arrange (.after (Tree.ofValue v)) (.entry done (Quoted.written k) :: stack)
        (scan .start rest) := by
  rw [List.append_assoc, scan_renderText]
  exact hv _ rest hrest

theorem reads_entries : ∀ (entries : List (String × Value)) (e : String × Value)
    (done : List (Quoted × Tree)), e.2.Reads → (∀ x ∈ entries, x.2.Reads) →
    Tree.arrange (.key done) stack
        (scan .start (joined (renderEntries (e :: entries)) ++ '\x7d' :: rest))
      = Tree.arrange (.after (.object (done.reverse ++ Tree.ofEntries (e :: entries)) none)) stack
        (scan .start rest)
  | [], e, done, he, _ => by
    have hobject : ((Quoted.written e.1, Tree.ofValue e.2) :: done).reverse
        = done.reverse ++ Tree.ofEntries [e] := List.reverse_cons
    rw [← hobject]
    exact reads_entry stack he (endsNumber_cons (.inr (.inr rfl)) rest) e.1 done
  | x :: entries, e, done, he, hentries => by
    have ih := reads_entries entries x ((Quoted.written e.1, Tree.ofValue e.2) :: done)
      (hentries x List.mem_cons_self) fun y hy => hentries y (List.mem_cons_of_mem x hy)
    have hcomma := reads_entry stack he
      (endsNumber_cons (.inl rfl) (joined (renderEntries (x :: entries)) ++ '\x7d' :: rest))
      e.1 done
    rw [List.reverse_cons, List.append_assoc] at ih
    rw [renderEntries, renderEntries, joined, List.append_assoc]
    exact hcomma.trans ih

/-- A first key is read as a key after a comma. -/
theorem arrange_firstKey (s : String) :
    Tree.arrange .firstKey stack (scan .start (renderText s ++ rest))
      = Tree.arrange (.key []) stack (scan .start (renderText s ++ rest)) := by
  rw [scan_renderText]
  rfl

/-- Joined texts begin with the first of them, and what follows it cannot go on a number. -/
theorem joined_append_eq (x : List Char) (xs : List (List Char)) {c : Char}
    (hc : c = ',' ∨ c = ']' ∨ c = '\x7d') :
    ∃ more, EndsNumber more ∧ joined (x :: xs) ++ c :: rest = x ++ more := by
  cases xs with
  | nil => exact ⟨c :: rest, endsNumber_cons hc rest, rfl⟩
  | cons y ys =>
    refine ⟨',' :: (joined (y :: ys) ++ c :: rest), endsNumber_cons (.inl rfl) _, ?_⟩
    rw [joined, List.append_assoc]
    rfl

end Places

theorem ofValue_integer (k : Int) :
    Tree.ofValue (.number (.integer k)) = .number (Numeral.ofInt k) := by
  have hend : EndsNumber [] := fun c r h => by cases h
  have hscan := scan_number hend k
  rw [List.append_nil] at hscan
  rw [Tree.ofValue, Tree.read, tokens_eq_scan, hscan]
  rfl

theorem reads_list {v : Value} {items : List Value} (h : ∀ w ∈ v :: items, w.Reads)
    (hv : ∀ n, v = .number n → ∃ k, n = .integer k) : (Value.list (v :: items)).Reads := by
  intro stack rest _
  have hopen : Tree.arrange .value stack (scan .start ((Value.list (v :: items)).render ++ rest))
      = Tree.arrange .firstItem stack
        (scan .start (joined (renderItems (v :: items)) ++ ']' :: rest)) := by
    rw [Value.render, List.cons_append, List.cons_append, List.append_assoc]
    rfl
  obtain ⟨more, hmore, hfirst⟩ : ∃ more, EndsNumber more
      ∧ joined (renderItems (v :: items)) ++ ']' :: rest = v.render ++ more :=
    joined_append_eq v.render (renderItems items) (.inr (.inl rfl))
  rw [hopen, hfirst, arrange_firstItem_render v hv hmore, ← hfirst]
  exact reads_items items v [] (h v List.mem_cons_self)
    fun w hw => h w (List.mem_cons_of_mem v hw)

theorem reads_object {e : String × Value} {entries : List (String × Value)}
    (h : ∀ x ∈ e :: entries, x.2.Reads) : (Value.object (e :: entries)).Reads := by
  intro stack rest _
  have hopen : Tree.arrange .value stack
        (scan .start ((Value.object (e :: entries)).render ++ rest))
      = Tree.arrange .firstKey stack
        (scan .start (joined (renderEntries (e :: entries)) ++ '\x7d' :: rest)) := by
    rw [Value.render, List.cons_append, List.cons_append, List.append_assoc]
    rfl
  obtain ⟨more, -, hfirst⟩ : ∃ more, EndsNumber more
      ∧ joined (renderEntries (e :: entries)) ++ '\x7d' :: rest
        = (renderText e.1 ++ ':' :: e.2.render) ++ more :=
    joined_append_eq _ (renderEntries entries) (.inr (.inr rfl))
  rw [hopen, hfirst, List.append_assoc, arrange_firstKey, ← List.append_assoc, ← hfirst]
  exact reads_entries entries e [] (h e List.mem_cons_self)
    fun x hx => h x (List.mem_cons_of_mem e hx)

theorem Value.Plain.reads : ∀ (depth : Nat) (v : Value), v.Plain depth → v.Reads
  | _, .null, _, _, _, _ => rfl
  | _, .truth true, _, _, _, _ => rfl
  | _, .truth false, _, _, _, _ => rfl
  | _, .text s, _, stack, rest, _ => by rw [Value.render, scan_renderText]; rfl
  | _, .number n, h, stack, rest, hrest => by
    obtain ⟨k, rfl, -, -⟩ := Value.plain_number h
    rw [ofValue_integer, Value.render, scan_number hrest]
    rfl
  | _ + 1, .list [], _, _, _, _ => rfl
  | depth + 1, .list (v :: items), h, stack, rest, hrest => by
    have hreads : ∀ w ∈ v :: items, w.Reads := fun w hw => reads depth w (h w hw)
    have hv : ∀ n, v = .number n → ∃ k, n = .integer k := by
      rintro n rfl
      obtain ⟨k, hk, -⟩ := Value.plain_number (h _ List.mem_cons_self)
      exact ⟨k, hk⟩
    exact reads_list hreads hv stack rest hrest
  | _ + 1, .object [], _, _, _, _ => rfl
  | depth + 1, .object (e :: entries), h, stack, rest, hrest => by
    have hreads : ∀ x ∈ e :: entries, x.2.Reads := fun x hx => reads depth x.2 (h.2 x hx)
    exact reads_object hreads stack rest hrest

theorem read_toText {depth : Nat} {v : Value} (h : v.Plain depth) :
    Tree.read v.toText.toList = ⟨Tree.ofValue v, false⟩ := by
  have hend : EndsNumber [] := fun c r hr => by cases hr
  have hread := h.reads depth v [] [] hend
  rw [List.append_nil] at hread
  rw [Tree.read, tokens_eq_scan, Value.toText, String.toList_ofList, hread]
  rfl

theorem ofItems_ofValue {item : Tree → Except Fault Value} : ∀ (items : List Value),
    (∀ v ∈ items, item (Tree.ofValue v) = .ok v) →
    Value.ofItems item (Tree.ofItems items) = .ok items
  | [], _ => rfl
  | v :: items, h => by
    have ih := ofItems_ofValue items fun w hw => h w (List.mem_cons_of_mem v hw)
    rw [Tree.ofItems, Value.ofItems, h v List.mem_cons_self, ih]
    rfl

/-- A new key is put last. -/
theorem putEntry_of_notMem (key : String) (v : Value) : ∀ (entries : List (String × Value)),
    key ∉ entries.map Prod.fst → Value.putEntry key v entries = entries ++ [(key, v)]
  | [], _ => rfl
  | (k, w) :: entries, h => by
    rw [List.map_cons, List.mem_cons, not_or] at h
    have ih := putEntry_of_notMem key v entries h.2
    rw [Value.putEntry, if_neg (Ne.symm h.1), ih]
    rfl

theorem ofEntries_ofValue {item : Tree → Except Fault Value} :
    ∀ (entries done : List (String × Value)), ((done ++ entries).map Prod.fst).Nodup →
    (∀ e ∈ entries, item (Tree.ofValue e.2) = .ok e.2) →
    Value.ofEntries item done (Tree.ofEntries entries) = .ok (done ++ entries)
  | [], done, _, _ => by rw [List.append_nil]; rfl
  | (k, v) :: entries, done, hkeys, h => by
    have hk : k ∉ done.map Prod.fst := by
      rw [List.map_append, List.nodup_append] at hkeys
      exact fun hmem => hkeys.2.2 k hmem k List.mem_cons_self rfl
    have hsplit : done ++ (k, v) :: entries = (done ++ [(k, v)]) ++ entries := by simp
    rw [hsplit] at hkeys ⊢
    rw [Tree.ofEntries, Value.ofEntries, decode_written, h (k, v) List.mem_cons_self,
      ← ofEntries_ofValue entries _ hkeys fun e he => h e (List.mem_cons_of_mem _ he),
      ← putEntry_of_notMem k v done hk]
    rfl

theorem ofTree_ofValue : ∀ (depth : Nat) (v : Value), v.Plain depth →
    Value.ofTree depth (Tree.ofValue v) = .ok v
  | depth, .null, _ => by cases depth <;> rfl
  | depth, .truth b, _ => by cases depth <;> rfl
  | depth, .text s, _ => by
    rw [Tree.ofValue, Value.ofTree, decode_written]
    rfl
  | depth, .number n, h => by
    obtain ⟨k, rfl, hlow, hhigh⟩ := Value.plain_number h
    rw [ofValue_integer, Value.ofTree, value_ofInt hlow hhigh]
    rfl
  | depth + 1, .list items, h => by
    have hitems := ofItems_ofValue items fun v hv => ofTree_ofValue depth v (h v hv)
    rw [Tree.ofValue, Value.ofTree, hitems]
    rfl
  | depth + 1, .object entries, h => by
    have hentries := ofEntries_ofValue entries [] h.1
      fun e he => ofTree_ofValue depth e.2 (h.2 e he)
    rw [Tree.ofValue, Value.ofTree, hentries]
    rfl

/-- A value is read back from its text. -/
theorem ofText_toText {v : Value} (h : v.Plain Value.maxDepth) : Value.ofText v.toText = .ok v := by
  rw [Value.ofText, readText, read_toText h, ofTree_ofValue _ v h]
  rfl

end RemoteAutomaton.Json
