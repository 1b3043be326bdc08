import RemoteAutomaton.Document.Record
import RemoteAutomaton.Proofs.Rendering

/-!
# Reading values that were written

A notation that values can be written in shows them node by node (`Shows`), as the tree of a value's
text does, and the value itself.  Readers of such nodes get what was written, and a record is read
entry by entry (`readEntries_given`).
-/

namespace RemoteAutomaton.Document

open Json (Value Tree)

variable {ν ε α β σ : Type} [Source ν ε]

theorem readNatural_of_see {n bound : Nat} {m : ν} (hn : n < bound)
    (hsee : Source.see m = .ok (.scalar (.number (.integer n)) none)) :
    readNatural bound m = .ok n := by
  have hfits : 0 ≤ (n : Int) ∧ (n : Int) < bound ∧ ¬ hasMinus none :=
    ⟨Int.natCast_nonneg n, Int.ofNat_lt.2 hn, Bool.false_ne_true⟩
  rw [readNatural, hsee]
  exact if_pos hfits

theorem readOptional_of_see {item : ν → Except ε α} {m : ν} {v : Scalar} {spelling : Option String}
    {a : α} (hsee : Source.see m = .ok (.scalar v spelling)) (hv : v ≠ .null)
    (ha : item m = .ok a) : readOptional item m = .ok (some a) := by
  rw [readOptional, hsee]
  simp only [bind, Except.bind, ha]
  cases v with
  | null => exact absurd rfl hv
  | _ => rfl

/-- Nodes that show the values they are made of. -/
structure Shows (node : Value → ν) : Prop where
  text (s : String) : Source.see (node (.text s)) = .ok (.scalar (.text s) (some s))
  natural (n : Nat) (hn : n < 0x10000000000000000) :
    Source.see (node (.ofInt n)) = .ok (.scalar (.number (.integer n)) none)
  list (items : List Value) :
    Source.see (node (.list items)) = .ok (.list (items.map node) (.ok ()))
  object (entries : List (String × Value)) : Source.see (node (.object entries))
    = .ok (.fields (entries.map fun e => (.ok e.1, node e.2)) (.ok ()))

theorem shows_id : Shows (id : Value → Value) where
  text _ := rfl
  natural _ _ := rfl
  list items := by rw [List.map_id]; rfl
  object _ := rfl

theorem shows_ofValue : Shows Tree.ofValue where
  text s := by
    show (Tree.see (.text (Json.Quoted.written s))) = _
    rw [Tree.see, Json.decode_written]
    rfl
  natural n hn := by
    show Tree.see (Tree.ofValue (.number (.integer n))) = _
    rw [Json.ofValue_integer, Tree.see, Json.value_ofInt (by omega) (by omega)]
    rfl
  list items := by
    rw [Tree.ofValue, Json.ofItems_eq_map]
    rfl
  object entries := by
    show Tree.see (Tree.ofValue (.object entries)) = _
    rw [Tree.ofValue, Json.ofEntries_eq_map, Tree.see, List.map_map]
    simp [Json.decode_written, Tree.ending]

variable {node : Value → ν}

omit [Source ν ε] in
theorem readItems_map (write : α → Value) (read : ν → Except ε α) : ∀ (items : List α),
    (∀ a ∈ items, read (node (write a)) = .ok a) →
    readItems read ((items.map write).map node) = .ok items
  | [], _ => rfl
  | a :: items, hread => by
    have ih := readItems_map write read items fun b hb => hread b (List.mem_cons_of_mem a hb)
    rw [List.map_cons, List.map_cons, readItems, hread a List.mem_cons_self, ih]
    rfl

namespace Shows

theorem readText (h : Shows node) (s : String) : Document.readText (node (.text s)) = .ok s := by
  rw [Document.readText, h.text]
  rfl

theorem readScalar (h : Shows node) (s : String) :
    Document.readScalar (node (.text s)) = .ok s := by
  rw [Document.readScalar, h.text]
  rfl

theorem readOptional_text (h : Shows node) (s : String) :
    readOptional Document.readText (node (.text s)) = .ok (some s) :=
  readOptional_of_see (h.text s) nofun (h.readText s)

theorem readOptional_natural (h : Shows node) {n : Nat} (hn : n < 0x10000000000000000) :
    readOptional (readNatural 0x10000000000000000) (node (.ofInt n)) = .ok (some n) :=
  readOptional_of_see (h.natural n hn) nofun (readNatural_of_see hn (h.natural n hn))

theorem readList (h : Shows node) (write : α → Value) (read : ν → Except ε α) (items : List α)
    (hread : ∀ a ∈ items, read (node (write a)) = .ok a) :
    Document.readList read (node (.list (items.map write))) = .ok items := by
  rw [Document.readList, h.list]
  simp only [bind, Except.bind, readItems_map write read items hread]
  rfl

end Shows

/-! ### Records -/

/-- Entries as a reader of records sees them. -/
def shownEntries (node : Value → ν) (entries : List (String × Value)) :
    List (Except ε String × ν) :=
  entries.map fun e => (.ok e.1, node e.2)

theorem readRecord_object (h : Shows node) {fields : List (Field ν ε σ)} {blank d : σ}
    {finish : σ → Option α} {a : α} {entries : List (String × Value)}
    (hread : readEntries fields (shownEntries node entries) blank = .ok d)
    (hfinish : finish d = some a) :
    readRecord fields blank finish (node (.object entries)) = .ok a := by
  rw [shownEntries] at hread
  rw [readRecord, h.object]
  simp only [bind, Except.bind, hread]
  rw [complete, hfinish]
  rfl

/-- A field that the draft does not have yet is read into it. -/
theorem readEntries_given {fields : List (Field ν ε σ)} {key : String} {read : ν → Except ε β}
    {get : σ → Option β} {set : σ → β → σ} {d : σ} {rest : List (Except ε String × ν)}
    (hf : fields.find? (fun f => f.name == key) = some (.of key read get set))
    (hfree : get d = none) {n : ν} {b : β} (hread : read n = .ok b) :
    readEntries fields ((.ok key, n) :: rest) d = readEntries fields rest (set d b) := by
  have hput : (Field.of key read get set).put n d = .ok (set d b) := by
    show (read n).map (set d) = _
    rw [hread]
    rfl
  have hunset : ¬ (Field.of key read get set).isSet d = true := by
    simp [Field.of, hfree]
  rw [readEntries]
  simp only [bind, Except.bind, hf, if_neg hunset, hput]

end RemoteAutomaton.Document
