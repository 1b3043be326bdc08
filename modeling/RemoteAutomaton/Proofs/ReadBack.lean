import RemoteAutomaton.Automaton.Loading
import RemoteAutomaton.Proofs.Shown

/-!
# Declarations read back from their canonical texts

A reader of records sees what the canonical text of a declaration says, whether it goes through the
tree of the text or through the value that the text stands for.  What a declaration leaves out is
what its reader takes by default, so that every record is read as it was written
(`Declaration.read_toJson`).
-/

namespace RemoteAutomaton.Machine

open Document
open Json (Value)

section Shown

variable {ν ε α β σ : Type} [Source ν ε] {node : Value → ν}

/-- What an optional entry leaves out is not read. -/
theorem readEntries_optional {fields : List (Field ν ε σ)} {key : String} {d : σ}
    {rest : List (Except ε String × ν)} (d' : σ) {item : ν → Except ε (Option β)}
    {get : σ → Option (Option β)} {set : σ → Option β → σ}
    (hf : fields.find? (fun f => f.name == key) = some (.of key item get set))
    (hfree : get d = none) {write : β → Value} {v : Option β}
    (hread : ∀ b, v = some b → item (node (write b)) = .ok (some b))
    (hd : (v.elim d fun b => set d (some b)) = d') :
    readEntries fields (shownEntries node (optionalEntry key (v.map write)) ++ rest) d
      = readEntries fields rest d' := by
  subst hd
  cases v with
  | none => rfl
  | some b => exact readEntries_given hf hfree (hread b rfl)

theorem join_map_some (v : Option α) : (v.map some).join = v := by
  cases v <;> rfl

theorem State.read_toJson (h : Shows node) (s : State) : State.read (node s.toJson) = .ok s := by
  refine readRecord_object h (d := ⟨some s.name, s.action.map some⟩) ?_ ?_
  · rw [← List.append_nil (optionalEntry _ _), shownEntries, List.map_cons, List.map_append]
    refine Eq.trans (readEntries_given rfl rfl (h.readText s.name)) ?_
    exact readEntries_optional _ rfl rfl (fun a _ => h.readOptional_text a)
      (by cases s.action <;> rfl)
  · rw [State.Draft.finish, join_map_some]
    rfl

/-- The integer that is written is the delay. -/
theorem map_ofInt_coe (v : Option Nat) :
    ((v : Option Int).map fun n => Value.ofInt n) = v.map fun n : Nat => Value.ofInt n := by
  cases v <;> rfl

theorem Arrow.read_toJson (h : Shows node) (t : Arrow)
    (ht : ∀ n, t.delay = some n → n < 0x10000000000000000) :
    Arrow.read (node t.toJson) = .ok t := by
  refine readRecord_object h (d := ⟨some t.source, some t.target, t.event.map some,
    t.guard.map some, t.delay.map some, t.delayVariable.map some⟩) ?_ ?_
  · rw [← List.append_nil (optionalEntry "delay_var" _), map_ofInt_coe]
    simp only [shownEntries, List.map_cons, List.map_append, List.append_assoc]
    refine Eq.trans (readEntries_given rfl rfl (h.readText t.source)) ?_
    refine Eq.trans (readEntries_given rfl rfl (h.readText t.target)) ?_
    refine Eq.trans (readEntries_optional ⟨_, _, t.event.map some, none, none, none⟩ rfl rfl
      (fun s _ => h.readOptional_text s) (by cases t.event <;> rfl)) ?_
    refine Eq.trans (readEntries_optional ⟨_, _, _, t.guard.map some, none, none⟩ rfl rfl
      (fun s _ => h.readOptional_text s) (by cases t.guard <;> rfl)) ?_
    refine Eq.trans (readEntries_optional ⟨_, _, _, _, t.delay.map some, none⟩ rfl rfl
      (fun n hn => h.readOptional_natural (ht n hn)) (by cases t.delay <;> rfl)) ?_
    exact readEntries_optional _ rfl rfl (fun s _ => h.readOptional_text s)
      (by cases t.delayVariable <;> rfl)
  · simp only [Arrow.Draft.finish, join_map_some]

theorem Variable.read_toJson (h : Shows node) (v : Variable) :
    Variable.read (node v.toJson) = .ok v := by
  refine readRecord_object h (d := ⟨some v.name, some v.kind, some v.initial⟩) ?_ rfl
  refine Eq.trans (readEntries_given rfl rfl (h.readText v.name)) ?_
  refine Eq.trans (readEntries_given rfl rfl (h.readText v.kind)) ?_
  exact Eq.trans (readEntries_given rfl rfl (h.readScalar v.initial)) rfl

/-- Delays of 64 bits. -/
def Declaration.DelaysFit (r : Declaration) : Prop :=
  ∀ t ∈ r.transitions, ∀ n, t.delay = some n → n < 0x10000000000000000

theorem Declaration.read_toJson (h : Shows node) (r : Declaration) (hr : r.DelaysFit) :
    Declaration.read (node r.toJson) = .ok r := by
  have hstates := h.readList State.toJson State.read r.states fun s _ => s.read_toJson h
  have htransitions := h.readList Arrow.toJson Arrow.read r.transitions
    fun t ht => t.read_toJson h (hr t ht)
  have hvars := h.readList Variable.toJson Variable.read r.vars fun v _ => v.read_toJson h
  have htexts := fun names => h.readList Value.text Document.readText names
    fun s _ => h.readText s
  refine readRecord_object h (d := ⟨some r.name, r.initial.map some, some r.states,
    some r.transitions, some r.vars, some r.inputs, some r.outputs⟩) ?_ ?_
  · simp only [shownEntries, List.map_cons, List.map_append]
    refine Eq.trans (readEntries_given rfl rfl (h.readText r.name)) ?_
    refine Eq.trans (readEntries_optional ⟨_, r.initial.map some, none, none, none, none, none⟩ rfl
      rfl (fun s _ => h.readOptional_text s) (by cases r.initial <;> rfl)) ?_
    refine Eq.trans (readEntries_given rfl rfl hstates) ?_
    refine Eq.trans (readEntries_given rfl rfl htransitions) ?_
    refine Eq.trans (readEntries_given rfl rfl hvars) ?_
    refine Eq.trans (readEntries_given rfl rfl (htexts r.inputs)) ?_
    exact Eq.trans (readEntries_given rfl rfl (htexts r.outputs)) rfl
  · rw [Declaration.Draft.finish, join_map_some]
    rfl

end Shown

/-! ### What a declaration is written as -/

section Plain

variable {depth : Nat} {key : String}

theorem keys_optionalEntry (key : String) (v : Option Value) :
    ((optionalEntry key v).map Prod.fst).Sublist [key] := by
  cases v with
  | none => exact List.nil_sublist _
  | some x => exact List.Sublist.refl _

theorem plain_optionalEntry {α : Type} {write : α → Value} {v : Option α}
    (h : ∀ a, v = some a → (write a).Plain depth) :
    ∀ e ∈ optionalEntry key (v.map write), e.2.Plain depth := by
  cases v with
  | none => exact fun e he => absurd he List.not_mem_nil
  | some a =>
    intro e he
    rw [List.mem_singleton.1 he]
    exact h a rfl

theorem plain_optionalText (v : Option String) :
    ∀ e ∈ optionalEntry key (v.map .text), e.2.Plain depth :=
  plain_optionalEntry fun s _ => Value.plain_text depth s

theorem State.plain_toJson (s : State) : s.toJson.Plain (depth + 1) := by
  refine Value.plain_object ["name", "action"] ((keys_optionalEntry _ _).cons_cons _)
    (by decide) ?_
  exact List.forall_mem_cons.2 ⟨Value.plain_text depth s.name, plain_optionalText s.action⟩

theorem Arrow.plain_toJson (t : Arrow) (ht : ∀ n, t.delay = some n → n < 0x10000000000000000) :
    t.toJson.Plain (depth + 1) := by
  rw [Arrow.toJson, map_ofInt_coe]
  refine Value.plain_object ["from", "to", "event", "guard", "delay_ms", "delay_var"] ?_
    (by decide) ?_
  · simp only [List.map_cons, List.map_append]
    exact (((((keys_optionalEntry _ _).append (keys_optionalEntry _ _)).append
      (keys_optionalEntry _ _)).append (keys_optionalEntry _ _)).cons_cons _).cons_cons _
  · simp only [List.forall_mem_cons, List.forall_mem_append]
    exact ⟨Value.plain_text depth _, Value.plain_text depth _,
      ⟨⟨plain_optionalText _, plain_optionalText _⟩,
        plain_optionalEntry fun n hn => Value.plain_natural depth (ht n hn)⟩, plain_optionalText _⟩

theorem Variable.plain_toJson (v : Variable) : v.toJson.Plain (depth + 1) := by
  refine Value.plain_object ["name", "type", "initial"] (List.Sublist.refl _) (by decide) ?_
  simp only [List.forall_mem_cons]
  exact ⟨Value.plain_text depth _, Value.plain_text depth _, Value.plain_text depth _,
    fun _ h => nomatch h⟩

theorem Declaration.plain_toJson (r : Declaration) (hr : r.DelaysFit) :
    r.toJson.Plain (depth + 3) := by
  have htexts : ∀ names : List String, (Value.list (names.map .text)).Plain (depth + 2) :=
    fun names => Value.plain_list fun s _ => Value.plain_text _ s
  refine Value.plain_object
    ["name", "initial", "states", "transitions", "variables", "inputs", "outputs"] ?_ (by decide) ?_
  · simp only [List.map_cons, List.map_append]
    exact ((keys_optionalEntry _ _).append (List.Sublist.refl _)).cons_cons _
  · simp only [List.forall_mem_cons, List.forall_mem_append]
    exact ⟨Value.plain_text _ _, plain_optionalText _,
      Value.plain_list fun s _ => s.plain_toJson,
      Value.plain_list fun t ht => t.plain_toJson (hr t ht),
      Value.plain_list fun v _ => v.plain_toJson, htexts _, htexts _, fun _ h => nomatch h⟩

end Plain

variable {r : Declaration}

theorem ofText_canonicalText (hr : r.DelaysFit) :
    Value.ofText r.canonicalText = .ok r.toJson :=
  Json.ofText_toText (r.plain_toJson hr)

theorem readText_canonicalText (hr : r.DelaysFit) :
    Json.readText Declaration.read r.canonicalText = .ok r := by
  have hplain : r.toJson.Plain 3 := r.plain_toJson hr
  rw [Json.readText, Declaration.canonicalText, Json.read_toText hplain,
    Declaration.read_toJson shows_ofValue r hr]
  rfl

theorem checksum_of_ofDeclaration {d : Definition} (h : Definition.ofDeclaration r = .ok d) :
    d.checksum = r.checksum := by
  unfold Definition.ofDeclaration at h
  split at h
  · cases h
  split at h
  · split at h
    · cases h
    split at h
    · cases h
    split at h
    · cases h
    split at h
    · cases h
    · cases h
      rfl
  · cases h

end RemoteAutomaton.Machine

namespace RemoteAutomaton.Automaton

open Machine (Declaration Definition)

/-- A declaration is read back from its canonical text, as a text and as the value of the text.  So
different declarations have different canonical texts, and the canonical text of a declaration gives
the machine that the declaration gives, or the same failure. -/
theorem canonicalText_reads_back {r : Declaration} (hr : r.DelaysFit) :
    declarationOfText r.canonicalText = .ok r
      ∧ (Json.Value.ofText r.canonicalText = .ok r.toJson ∧ declarationOfValue r.toJson = .ok r
        ∧ definitionOfValue r.toJson = checkDeclaration r)
      ∧ (∀ r' : Declaration, r'.DelaysFit → r'.canonicalText = r.canonicalText → r' = r)
      ∧ definitionOfText r.canonicalText = checkDeclaration r
      ∧ ∀ d, (definitionOfText r.canonicalText = .ok d ↔ Definition.ofDeclaration r = .ok d)
        ∧ (Definition.ofDeclaration r = .ok d →
          d.checksum = Checksum.hex8 (Checksum.crc32c r.canonicalText.toUTF8)) := by
  have htext : declarationOfText r.canonicalText = .ok r := Machine.readText_canonicalText hr
  have hvalue : declarationOfValue r.toJson = .ok r :=
    Declaration.read_toJson Document.shows_id r hr
  have hchecked : definitionOfText r.canonicalText = checkDeclaration r := by
    rw [definitionOfText, htext]
  refine ⟨htext, ⟨Machine.ofText_canonicalText hr, hvalue, ?_⟩, fun r' hr' h => ?_,
    hchecked, fun d => ⟨?_, fun h => Machine.checksum_of_ofDeclaration h⟩⟩
  · rw [definitionOfValue, hvalue]
  · have htext' : declarationOfText r'.canonicalText = .ok r' :=
      Machine.readText_canonicalText hr'
    rw [h, htext] at htext'
    exact (Except.ok.inj htext').symm
  · rw [hchecked, checkDeclaration_eq_ok_iff]

/-- Quotes, control characters and the longest delay come back. -/
theorem canonicalText_reads_back_odd :
    let r : Declaration :=
      { name := "a\"\x01\n", initial := none, states := [⟨"É", some ""⟩],
        transitions := [⟨"É", "É", none, some "g", some 0xffffffffffffffff, none⟩],
        vars := [⟨"x", "int", "-0"⟩], inputs := [], outputs := ["led"] }
    r.DelaysFit
      ∧ declarationOfText r.canonicalText = .ok r
      ∧ (∃ d, definitionOfText r.canonicalText = .ok d)
      ∧ ({ r with initial := some "" } : Declaration).canonicalText ≠ r.canonicalText := by
  intro r
  have hr : r.DelaysFit := by
    intro t ht n hn
    rw [List.mem_singleton.1 ht] at hn
    cases hn
    decide
  obtain ⟨htext, -, hinj, -, hdefinition⟩ := canonicalText_reads_back hr
  refine ⟨hr, htext, ?_, fun h => ?_⟩
  · have hok : (Definition.ofDeclaration r).isOk = true := by decide +kernel
    cases hd : Definition.ofDeclaration r with
    | error e => rw [hd] at hok; cases hok
    | ok d => exact ⟨d, (hdefinition d).1.2 hd⟩
  · have hsame := congrArg Declaration.initial (hinj { r with initial := some "" } hr h)
    cases hsame

end RemoteAutomaton.Automaton
