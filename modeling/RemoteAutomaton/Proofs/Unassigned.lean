import RemoteAutomaton.Proofs.Effects
import RemoteAutomaton.Proofs.Initials
import RemoteAutomaton.Proofs.Mirror

/-!
# Variables that no action has assigned

A variable has its initial value until the action of an entry assigns it.  `MakesAll` lists the
entries of a whole run, and `HasUntilAssigned` says that a variable has a value at every entry up to
the first that assigns it; entries that are made one after the other hand the value on
(`HasUntilAssigned.append`).

So an integer that a document gives as an initial value arrives at guards and delays as it was
written, if 64 bits hold it with its sign, and larger ones arrive as no integer
(`initial_integer_until_assigned`).
-/

namespace RemoteAutomaton.Automaton

open Machine (Definition Transition Delay)

/-- The entry action does not assign the variable. -/
def Entry.Spares {σ : Type} (d : Definition) (e : Evaluator) (name : String) (x : Entry σ) : Prop :=
  ∀ value, Effect.assign name value ∉ x.automaton.actionEffects d e x.target

/-- The variable has the value at the beginning of every entry, up to the first that assigns it. -/
def HasUntilAssigned {σ : Type} (d : Definition) (e : Evaluator) (name value : String)
    (entries : List (Entry σ)) : Prop :=
  ∀ before x after, entries = before ++ x :: after → (∀ y ∈ before, y.Spares d e name) →
    x.automaton.vars.get? name = some value

/-- Operations make these entries, one operation after the other. -/
inductive Interpreter.MakesAll {σ : Type} [Host σ] :
    Interpreter → σ → List Operation → List (Entry σ) → Prop
  | nil (m : Interpreter) (h : σ) : MakesAll m h [] []
  | cons {m : Interpreter} {h : σ} {op : Operation} {ops : List Operation} {xs ys : List (Entry σ)}
    (hxs : m.Makes h op xs)
    (hys : MakesAll (m.perform h op).interpreter (m.perform h op).host ops ys) :
    MakesAll m h (op :: ops) (xs ++ ys)

/-- A variable has a value if the automaton has been started, and will have it otherwise. -/
structure Interpreter.Has (m : Interpreter) (name value : String) : Prop where
  running : ∀ a, m.running = some a → a.vars.get? name = some value
  initially : ∀ s, (Running.initially m.definition s).vars.get? name = some value

section

variable {σ : Type} [Host σ] {d : Definition} {e : Evaluator} {a a₀ : Running} {h h₀ : σ}
  {m : Interpreter} {op : Operation} {name value : String} {x : Entry σ}
  {xs ys entries : List (Entry σ)} {calls : List HostCall}

/-! ### Entries -/

theorem Entry.Spares.get?_after (hx : x.Spares d e name) :
    (x.after d e).vars.get? name = x.automaton.vars.get? name := by
  have hnone : (x.automaton.actionEffects d e x.target).filterMap (·.assigned? d name) = [] := by
    refine List.filterMap_eq_nil_iff.2 fun y hy => ?_
    cases y with
    | assign other value =>
      refine if_neg fun ⟨hother, _⟩ => ?_
      exact hx value (hother ▸ hy)
    | write | log | terminate => rfl
  rw [Entry.after, get?_vars_enter, hnone]
  rfl

omit [Host σ] in
theorem hasUntilAssigned_nil : HasUntilAssigned (σ := σ) d e name value [] :=
  fun before x after heq => by simp at heq

omit [Host σ] in
theorem hasUntilAssigned_singleton (hx : x.automaton.vars.get? name = some value) :
    HasUntilAssigned d e name value [x] := by
  intro before y after heq _
  obtain rfl : y = x := by
    have hmem : y ∈ [x] := heq ▸ List.mem_append_right _ List.mem_cons_self
    exact List.mem_singleton.1 hmem
  exact hx

omit [Host σ] in
/-- Entries hand a value on to later ones if none of them assigns it. -/
theorem HasUntilAssigned.append (hxs : HasUntilAssigned d e name value xs)
    (hys : (∀ y ∈ xs, y.Spares d e name) → HasUntilAssigned d e name value ys) :
    HasUntilAssigned d e name value (xs ++ ys) := by
  intro before x after heq hbefore
  rcases List.append_eq_append_iff.1 heq with ⟨rest, rfl, hrest⟩ | ⟨rest, rfl, hrest⟩
  · obtain ⟨hspared, hearlier⟩ := List.forall_mem_append.1 hbefore
    exact hys hspared rest x after hrest hearlier
  · cases rest with
    | nil =>
      rw [List.append_nil] at hys
      exact hys hbefore [] x after hrest.symm (List.forall_mem_nil _)
    | cons y rest =>
      obtain ⟨rfl, -⟩ := List.cons.inj hrest
      exact hxs before x rest rfl hbefore

/-! ### Runs -/

theorem Passage.hasUntilAssigned (hp : Passage d e a₀ h₀ entries calls a h)
    (ha : a₀.vars.get? name = some value) :
    HasUntilAssigned d e name value entries
      ∧ ((∀ x ∈ entries, x.Spares d e name) → a.vars.get? name = some value) := by
  induction hp with
  | nil => exact ⟨hasUntilAssigned_nil, fun _ => ha⟩
  | guardFailed _ _ _ ih => exact ih
  | @enter entries calls a h target _ _ ih =>
    obtain ⟨hentries, hend⟩ := ih
    refine ⟨hentries.append fun hspared => hasUntilAssigned_singleton (hend hspared),
      fun hspared => ?_⟩
    obtain ⟨hearlier, hlast⟩ := List.forall_mem_append.1 hspared
    have hx : Entry.Spares d e name ⟨a, h, target⟩ := hlast _ List.mem_cons_self
    exact hx.get?_after.trans (hend hearlier)

namespace Interpreter

theorem Makes.hasUntilAssigned (hmakes : m.Makes h op entries) (hm : m.Has name value) :
    HasUntilAssigned m.definition m.evaluator name value entries
      ∧ ((∀ x ∈ entries, x.Spares m.definition m.evaluator name) →
        (m.perform h op).interpreter.Has name value) := by
  cases hmakes with
  | nothing _ hsame =>
    rw [hsame]
    exact ⟨hasUntilAssigned_nil, fun _ => hm⟩
  | passage hp hpass hafter =>
    have hprepared := invariant_of_prepared (P := fun a => a.vars.get? name = some value)
      (fun s _ => hm.initially s) (fun a ha => by rwa [values_prepare.1]) hm.running hp
    obtain ⟨hentries, hend⟩ := hpass.hasUntilAssigned hprepared
    refine ⟨hentries, fun hspared => ⟨fun a ha => ?_, fun s => ?_⟩⟩
    · rw [hafter] at ha
      cases ha
      exact hend hspared
    · rw [definition_perform]
      exact hm.initially s

theorem MakesAll.hasUntilAssigned {ops : List Operation} (hmakes : m.MakesAll h ops entries)
    (hm : m.Has name value) :
    HasUntilAssigned m.definition m.evaluator name value entries
      ∧ ((∀ x ∈ entries, x.Spares m.definition m.evaluator name) →
        (m.performAll h ops).1.Has name value) := by
  induction hmakes with
  | nil => exact ⟨hasUntilAssigned_nil, fun _ => hm⟩
  | cons hxs _ ih =>
    rw [definition_perform, evaluator_perform] at ih
    obtain ⟨hfirst, hnext⟩ := hxs.hasUntilAssigned hm
    refine ⟨hfirst.append fun hspared => (ih (hnext hspared)).1, fun hspared => ?_⟩
    obtain ⟨hspared, hlater⟩ := List.forall_mem_append.1 hspared
    exact (ih (hnext hspared)).2 hlater

/-- The entries of a run are entries of valid automata. -/
theorem MakesAll.valid {ops : List Operation} (hmakes : m.MakesAll h ops entries)
    (hm : ∀ a, m.running = some a → a.Valid m.definition) :
    ∀ x ∈ entries, x.automaton.Valid m.definition := by
  induction hmakes with
  | nil => exact List.forall_mem_nil _
  | @cons m h op ops xs ys hxs _ ih =>
    rw [definition_perform] at ih
    refine List.forall_mem_append.2 ⟨hxs.valid hm, ih ?_⟩
    exact invariant_performAll (fun _ => Running.stable_valid)
      (fun _ => Running.valid_initially) (fun _ _ _ ha => ha.prepare) [op] rfl hm

/-- A run makes an entry if its first operation enters a state. -/
theorem MakesAll.ne_nil {ops : List Operation} (hmakes : m.MakesAll h (op :: ops) entries)
    (hop : op ≠ .report) (hentered : entered (m.callsOf h op) ≠ []) : entries ≠ [] := by
  cases hmakes with
  | cons hxs hys =>
    rw [hxs.entered_callsOf hop] at hentered
    exact List.append_ne_nil_of_left_ne_nil (mt (congrArg (List.map _)) hentered) _

theorem exists_makesAll : ∀ (ops : List Operation) (m : Interpreter) (h : σ),
    ∃ entries, m.MakesAll h ops entries
  | [], m, h => ⟨[], .nil m h⟩
  | op :: ops, m, h => by
    obtain ⟨xs, hxs⟩ := exists_makes m h op
    obtain ⟨ys, hys⟩ := exists_makesAll ops (m.perform h op).interpreter (m.perform h op).host
    exact ⟨xs ++ ys, .cons hxs hys⟩

end Interpreter

/-! ### Integers -/

end

section Integers

variable {d : Definition} {e : Evaluator} {v : String} {n : Int}

theorem integer?_of_get? {b : Bindings} (hb : b.vars.get? v = some (toString n))
    (hlow : -0x8000000000000000 ≤ n) :
    b.integer? v = if n < 0x8000000000000000 then some n else none := by
  have hn : Text.IsInt64 n ↔ n < 0x8000000000000000 := and_iff_right hlow
  rw [Bindings.integer?, hb, Option.bind_some, Text.readInt64?_toString, if_congr hn rfl rfl]

theorem lasts_held_iff {vars : Values} (hvars : vars.get? v = some (toString n)) {ms : Nat} :
    (Delay.held v).Lasts vars ms ↔ (1 ≤ n ∧ n < 0x8000000000000000) ∧ ms = n.toNat := by
  constructor
  · rintro ⟨value, hvalue, hden, hpos, hlt⟩
    cases hvars.symm.trans hvalue
    have hms := (Text.denotes_toString n).unique hden
    omega
  · rintro ⟨hn, rfl⟩
    have hnat : ((n.toNat : Nat) : Int) = n := Int.toNat_of_nonneg (by omega)
    refine ⟨_, hvars, ?_, by omega, by omega⟩
    rw [hnat]
    exact Text.denotes_toString n

theorem LoadedWith.has (hd : LoadedWith v n d) (hlow : -0x8000000000000000 ≤ n)
    (hhigh : n < 0x10000000000000000) :
    (Interpreter.ofDefinition d e).Has v (toString n) where
  running _ := nofun
  initially _ := by
    obtain ⟨x, hx, rfl, hn⟩ := hd.exists_mem hlow hhigh
    obtain ⟨y, hy⟩ : ∃ y, d.vars.find? (·.name = x.name) = some y :=
      Option.isSome_iff_exists.1 (List.find?_isSome.2 ⟨x, hx, decide_eq_true rfl⟩)
    obtain rfl : y = x := List.inj_on_of_nodup_map d.variables_distinct
      (List.mem_of_find?_eq_some hy) hx (by simpa using List.find?_some hy)
    refine (Mirror.lookup_initial y.name d.vars).trans ?_
    rw [hy, Option.map_some, hn]

/-- An entry tries to schedule the delayed transitions of its state after it has reported it.  For
one that waits for as long as the variable holds, the host is asked for so many milliseconds as the
integer says, if that is a delay, and otherwise it hears of one invalid delay and nothing else. -/
def Entry.WaitsFor {σ : Type} [Host σ] (d : Definition) (e : Evaluator) (v : String) (n : Int)
    (x : Entry σ) : Prop :=
  ∃ attempts : List Attempt, attempts.map (·.transition) = d.delayedFrom x.target
    ∧ x.calls d e = (x.automaton.timers.map fun p => .cancel p.id)
      ++ x.automaton.actionCalls d e x.target
      ++ .notice (.state x.target) :: attempts.flatMap Attempt.calls
    ∧ ∀ y ∈ attempts, ∀ t, d.transitions[y.transition]? = some t →
      t.trigger = .delayed (.held v) →
      if 1 ≤ n ∧ n < 0x8000000000000000 then y.asked? = some (n.toNat, t.target)
      else ∃ reason, y.calls = [.notice (.failure (.invalidDelay reason))]

theorem Attempt.calls_of_not_asked {y : Attempt} (hy : y.asked? = none) :
    ∃ reason, y.calls = [.notice (.failure (.invalidDelay reason))] := by
  cases y with
  | granted | refused => cases hy
  | unasked _ reason => exact ⟨reason, rfl⟩

theorem Entry.waitsFor {σ : Type} [Host σ] {x : Entry σ} (hx : x.automaton.Declares d)
    (hv : (x.after d e).vars.get? v = some (toString n)) : x.WaitsFor d e v n := by
  obtain ⟨attempts, hmap, hfits, hcalls, hafter⟩ := exists_attempts e x hx
  rw [hafter] at hv
  refine ⟨attempts, hmap, hcalls, fun y hy t ht htrigger => ?_⟩
  obtain ⟨t', delay, ht', htrigger', hasked⟩ := hfits y hy
  obtain rfl : t' = t := Option.some.inj (ht'.symm.trans ht)
  obtain rfl : delay = .held v := by
    rw [htrigger] at htrigger'
    cases htrigger'
    rfl
  split_ifs with hn
  · exact (hasked _ _).2 ⟨(lasts_held_iff hv).2 ⟨hn, rfl⟩, rfl⟩
  · refine Attempt.calls_of_not_asked (Option.eq_none_iff_forall_ne_some.2 fun ⟨ms, target⟩ h => ?_)
    exact hn ((lasts_held_iff hv).1 ((hasked ms target).1 h).1).1

end Integers

/-- For every integer that 64 bits hold, signed or unsigned, and every variable there is a machine
that is read from JSON where the variable has the integer as its initial value, and whatever
operations such a machine goes through, guards and actions read the integer from the variable until
an action assigns it, or no integer if 64 bits do not hold it with its sign.  If the action of an
entry does not assign the variable either, then the transitions that wait for as long as it holds
are scheduled after exactly that many milliseconds if the integer is a delay, and for any other
integer the host hears of one invalid delay for each of them and is not asked for a timer. -/
theorem initial_integer_until_assigned {σ : Type} [Host σ] {n : Int}
    (hlow : -0x8000000000000000 ≤ n) (hhigh : n < 0x10000000000000000) (v : String) :
    (∃ d, LoadedWith v n d ∧ ∃ t ∈ d.transitions, t.trigger = .delayed (.held v))
      ∧ ∀ d, LoadedWith v n d → ∀ (e : Evaluator) (h : σ) (ops : List Operation),
        let m := Interpreter.ofDefinition d e
        let read := if n < 0x8000000000000000 then some n else none
        (∃ entries : List (Entry σ), m.MakesAll h ops entries)
          ∧ ∀ entries : List (Entry σ), m.MakesAll h ops entries →
            (∀ before x after, entries = before ++ x :: after →
              (∀ y ∈ before, y.Spares d e v) → x.automaton.bindings.integer? v = read
                ∧ (x.Spares d e v → (x.after d e).bindings.integer? v = read ∧ x.WaitsFor d e v n))
            ∧ ((∀ x ∈ entries, x.Spares d e v) →
              ∀ a, (m.performAll h ops).1.running = some a → a.bindings.integer? v = read) := by
  refine ⟨exists_loadedWith v hlow hhigh, ?_⟩
  intro d hd e h ops m read
  refine ⟨Interpreter.exists_makesAll ops m h, fun entries hmakes => ?_⟩
  obtain ⟨hentries, hend⟩ := hmakes.hasUntilAssigned (hd.has hlow hhigh)
  refine ⟨fun before x after heq hbefore => ?_, fun hspared a ha => ?_⟩
  · have hx := hentries before x after heq hbefore
    refine ⟨integer?_of_get? hx hlow, fun hspared => ?_⟩
    have hafter := hspared.get?_after.trans hx
    have hmem : x ∈ entries := heq ▸ List.mem_append_right _ List.mem_cons_self
    have hvalid := hmakes.valid nofun x hmem
    exact ⟨integer?_of_get? hafter hlow, Entry.waitsFor hvalid.declares hafter⟩
  · exact integer?_of_get? ((hend hspared).running a ha) hlow

/-- The largest signed integer is read, and asked for as a delay; the variable is written as the
list of its fields. -/
theorem initial_integer_until_assigned_largest :
    let n : Int := 0x7fffffffffffffff
    let w : Json.Value := .object
      [("initial", .text "idle"), ("states", .list [.object [("name", .text "idle")]]),
        ("transitions", .list [.object
          [("from", .text "idle"), ("to", .text "idle"), ("delay_var", .text "wait")]]),
        ("variables", .list [.list [.text "wait", .text "int", .ofInt n]])]
    let e : Evaluator := ⟨fun _ _ _ => .ok true, fun _ _ => .ok []⟩
    (-0x8000000000000000 ≤ n ∧ n < 0x10000000000000000)
      ∧ ∃ d, definitionOfValue w = .ok d ∧ LoadedWith "wait" n d
        ∧ ∃ entries, (Interpreter.ofDefinition d e).MakesAll ({} : Recorder) [.start] entries
          ∧ entries ≠ [] ∧ ∀ x ∈ entries, x.automaton.bindings.integer? "wait" = some n
            ∧ x.WaitsFor d e "wait" n := by
  intro n w e
  have hlow : -0x8000000000000000 ≤ n := by decide
  have hhigh : n < 0x10000000000000000 := by decide
  obtain ⟨d, hd⟩ : ∃ d, definitionOfValue w = .ok d := by
    have hok : (definitionOfValue w).isOk = true := by decide +kernel
    cases hd : definitionOfValue w with
    | error x => rw [hd] at hok; cases hok
    | ok d => exact ⟨d, rfl⟩
  have hinteger : Machine.DeclaresInteger w "wait" n :=
    .mk (.entry rfl (by simp; rfl)) rfl List.mem_cons_self (.item rfl (i := 0) rfl rfl) rfl
      (.item rfl (i := 2) rfl rfl) rfl
  have hloaded : LoadedWith "wait" n d := .value w hinteger hd
  have hspared (x : Entry Recorder) : x.Spares d e "wait" := by
    intro value hmem
    rw [Running.actionEffects] at hmem
    split at hmem <;> cases hmem
  have hstart : entered ((Interpreter.ofDefinition d e).callsOf ({} : Recorder) .start)
      = ["idle"] := by
    have hall : ((definitionOfValue w).toOption.map fun d =>
        entered ((Interpreter.ofDefinition d e).callsOf ({} : Recorder) .start))
          = some ["idle"] := by
      decide +kernel
    rw [hd] at hall
    exact Option.some.inj hall
  obtain ⟨⟨entries, hmakes⟩, hall⟩ :=
    (initial_integer_until_assigned hlow hhigh "wait").2 d hloaded e ({} : Recorder) [.start]
  refine ⟨⟨hlow, hhigh⟩, d, hd, hloaded, entries, hmakes, hmakes.ne_nil (by simp) ?_,
    fun x hx => ?_⟩
  · rw [hstart]
    exact List.cons_ne_nil _ _
  obtain ⟨before, after, heq⟩ := List.append_of_mem hx
  obtain ⟨hread, hafter⟩ := (hall entries hmakes).1 before x after heq fun y _ => hspared y
  exact ⟨hread, (hafter (hspared x)).2⟩

end RemoteAutomaton.Automaton
