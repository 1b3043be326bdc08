import Mathlib.Tactic.SplitIfs
import RemoteAutomaton.Message.Datagram
import RemoteAutomaton.Proofs.Lines

/-!
# Which datagrams are status messages

A datagram is a message to the observer exactly if it is UTF-8 text whose line has one of the shapes
of `StatusLine`, and every other text is refused with the line in the refusal
(`decode_outbound_grammar`).  A line has a shape of a message exactly if it is the line that the
message is written as and an assignment in it has a name without `=` (`statusLine_iff`), so a line
is taken apart in one way only and nothing of it is lost.
-/

namespace RemoteAutomaton.Message

open Text (LineOf cut? cut?_eq_none_iff cut?_eq_some_iff dropLineEnd fromUTF8?_eq_some_iff
  lineOf_iff unwrapQuotes?_eq_some_iff)

/-- The lines that are status messages, and which.  A payload and a value may be any text, also one
with quotes, `=` and line breaks in it. -/
inductive StatusLine : List Char → Outbound → Prop
  | terminating : StatusLine "TERMINATING".toList .terminating
  | ready (payload : List Char) :
      StatusLine ("READY ".toList ++ payload) (.ready (String.ofList payload))
  | state (payload : List Char) :
      StatusLine ("STATE ".toList ++ payload) (.state (String.ofList payload))
  | log (payload : List Char) :
      StatusLine ("LOG ".toList ++ payload) (.log (String.ofList payload))
  | error (payload : List Char) :
      StatusLine ("ERROR ".toList ++ payload) (.error (String.ofList payload))
  | output (name value : List Char) (hne : name ≠ []) (hname : '=' ∉ name) :
      StatusLine ("OUTPUT ".toList ++ (name ++ '=' :: '"' :: (value ++ ['"'])))
        (.output (String.ofList name) (String.ofList value))
  | var (name value : List Char) (hne : name ≠ []) (hname : '=' ∉ name) :
      StatusLine ("VAR ".toList ++ (name ++ '=' :: '"' :: (value ++ ['"'])))
        (.var (String.ofList name) (String.ofList value))

namespace Outbound

variable {line payload keyword : List Char} {m : Outbound} {d : ByteArray} {s : String}

/-- An assignment has a name, and the name is free of `=`. -/
def WellNamed : Outbound → Prop
  | output name _ | var name _ => name ≠ "" ∧ '=' ∉ name.toList
  | _ => True

theorem readAssignment?_eq_some_iff {name value : String} :
    readAssignment? payload = some (name, value) ↔
      payload = assignment name value ∧ name ≠ "" ∧ '=' ∉ name.toList := by
  unfold readAssignment? assignment
  constructor
  · intro h
    split at h
    · cases h
    · rename_i n quoted hcut
      obtain ⟨rfl, hn⟩ := cut?_eq_some_iff.1 hcut
      split at h
      · cases h
      · rename_i v hquoted
        obtain rfl := unwrapQuotes?_eq_some_iff.1 hquoted
        split_ifs at h with hempty
        cases h
        rw [String.toList_ofList, String.toList_ofList]
        exact ⟨rfl, fun hname =>
          hempty (List.isEmpty_iff.2 (String.ofList_eq_empty_iff.1 hname)), hn⟩
  · rintro ⟨rfl, hne, hn⟩
    rw [cut?_eq_some_iff.2 ⟨rfl, hn⟩]
    dsimp only
    rw [unwrapQuotes?_eq_some_iff.2 rfl]
    have hempty : ¬ name.toList.isEmpty = true := fun h =>
      hne (String.toList_eq_nil_iff.1 (List.isEmpty_iff.1 h))
    dsimp only
    rw [if_neg hempty, String.ofList_toList, String.ofList_toList]

/-- A message is read from a keyword and a payload exactly if they are its own. -/
theorem readPayload?_eq_some_iff :
    readPayload? keyword payload = some m ↔
      keyword = m.keyword.toList ∧ m.payload? = some payload ∧ m.WellNamed := by
  constructor
  · intro h
    unfold readPayload? at h
    split_ifs at h with hk hk hk hk hk hk
    iterate 4
      cases h
      exact ⟨hk, congrArg some String.toList_ofList, trivial⟩
    all_goals
      obtain ⟨⟨name, value⟩, hread, hm⟩ := Option.map_eq_some_iff.1 h
      obtain ⟨rfl, hname⟩ := readAssignment?_eq_some_iff.1 hread
      cases hm
      exact ⟨hk, rfl, hname⟩
  · rintro ⟨rfl, hp, hname⟩
    cases m with
    | terminating => cases hp
    | ready | state | log | error =>
      cases hp
      simp [readPayload?, Outbound.keyword]
    | output name value | var name value =>
      cases hp
      simp [readPayload?, Outbound.keyword, readAssignment?_eq_some_iff.2 ⟨rfl, hname⟩]

theorem blank_notMem_keyword : ' ' ∉ m.keyword.toList := by
  cases m <;> simp [Outbound.keyword]

/-- A message is read from a line exactly if it is written as that line. -/
theorem readLine?_eq_some_iff : readLine? line = some m ↔ line = m.render ∧ m.WellNamed := by
  unfold readLine? render
  constructor
  · intro h
    split_ifs at h with hend
    · cases h
      exact ⟨hend, trivial⟩
    · split at h
      · cases h
      · rename_i k p hcut
        obtain ⟨rfl, -⟩ := cut?_eq_some_iff.1 hcut
        obtain ⟨rfl, hp, hname⟩ := readPayload?_eq_some_iff.1 h
        rw [hp]
        exact ⟨rfl, hname⟩
  · rintro ⟨rfl, hname⟩
    split
    · rename_i hp
      obtain rfl : m = terminating := by cases m <;> trivial
      rfl
    · rename_i p hp
      have hend : m.keyword.toList ++ ' ' :: p ≠ terminating.keyword.toList := fun h =>
        blank_notMem_keyword (m := terminating) (h ▸ by simp)
      rw [if_neg hend, cut?_eq_some_iff.2 ⟨rfl, blank_notMem_keyword⟩]
      exact readPayload?_eq_some_iff.2 ⟨rfl, hp, hname⟩

theorem statusLine_iff : StatusLine line m ↔ line = m.render ∧ m.WellNamed := by
  constructor
  · intro h
    cases h with
    | terminating => exact ⟨rfl, trivial⟩
    | ready | state | log | error =>
      exact ⟨by simp [render, payload?, Outbound.keyword], trivial⟩
    | output name value hne hname | var name value hne hname =>
      refine ⟨by simp [render, payload?, assignment, Outbound.keyword], ?_, ?_⟩
      · exact fun h => hne (String.ofList_eq_empty_iff.1 h)
      · rwa [String.toList_ofList]
  · rintro ⟨rfl, hname⟩
    cases m with
    | terminating => exact .terminating
    | ready t => simpa [render, payload?, Outbound.keyword] using StatusLine.ready t.toList
    | state t => simpa [render, payload?, Outbound.keyword] using StatusLine.state t.toList
    | log t => simpa [render, payload?, Outbound.keyword] using StatusLine.log t.toList
    | error t => simpa [render, payload?, Outbound.keyword] using StatusLine.error t.toList
    | output name value =>
      have hne : name.toList ≠ [] := fun h => hname.1 (String.toList_eq_nil_iff.1 h)
      simpa [render, payload?, assignment, Outbound.keyword] using
        StatusLine.output name.toList value.toList hne hname.2
    | var name value =>
      have hne : name.toList ≠ [] := fun h => hname.1 (String.toList_eq_nil_iff.1 h)
      simpa [render, payload?, assignment, Outbound.keyword] using
        StatusLine.var name.toList value.toList hne hname.2

theorem readLine?_eq_some_iff_statusLine : readLine? line = some m ↔ StatusLine line m :=
  readLine?_eq_some_iff.trans statusLine_iff.symm

theorem decode_of_utf8 (hd : d = s.toUTF8) : decode d = read s.toList := by
  rw [decode, fromUTF8?_eq_some_iff.2 hd]

theorem read_eq_ok_iff {t : List Char} :
    read t = .ok m ↔ readLine? (dropLineEnd t) = some m := by
  unfold read
  split
  · rename_i m' hm'
    rw [hm', Except.ok.injEq, Option.some.injEq]
  · rename_i hnone
    rw [hnone]
    exact iff_of_false (fun h => by cases h) (fun h => by cases h)

theorem read_ne_invalidUtf8 {t : List Char} : read t ≠ .error .invalidUtf8 := by
  unfold read
  split <;> simp

end Outbound

open Outbound in
/-- Of every byte string decoding says exactly what the grammar says: it is no UTF-8 text, or its
line is a status message, which is written as that very line, or it is refused with its line. -/
theorem decode_outbound_grammar (d : ByteArray) :
    (decode d = .error .invalidUtf8 ↔ ∀ s : String, d ≠ s.toUTF8)
      ∧ ∀ s : String, d = s.toUTF8 → ∃ line, (∀ l, LineOf s.toList l ↔ l = line)
        ∧ (∀ m, decode d = .ok m ↔ StatusLine line m)
        ∧ (∀ m m', StatusLine line m → StatusLine line m' → m = m')
        ∧ (∀ m, decode d = .ok m → m.encode = (String.ofList line).toUTF8)
        ∧ ((∀ m, ¬ StatusLine line m) → decode d = .error (.unknownStatus (shown line))) := by
  refine ⟨⟨fun h s hd => ?_, fun h => ?_⟩,
    fun s hd => ⟨dropLineEnd s.toList, fun _ => lineOf_iff, ?_⟩⟩
  · rw [decode_of_utf8 hd] at h
    exact read_ne_invalidUtf8 h
  · unfold decode
    split
    · rfl
    · rename_i s hs
      exact absurd (fromUTF8?_eq_some_iff.1 hs) (h s)
  · rw [decode_of_utf8 hd]
    have hiff : ∀ m, Outbound.read s.toList = .ok m ↔ StatusLine (dropLineEnd s.toList) m :=
      fun m => read_eq_ok_iff.trans readLine?_eq_some_iff_statusLine
    refine ⟨hiff, fun m m' h h' => ?_, fun m h => ?_, fun hnone => ?_⟩
    · rw [← readLine?_eq_some_iff_statusLine] at h h'
      exact Option.some.inj (h.symm.trans h')
    · rw [encode, text, (statusLine_iff.1 ((hiff m).1 h)).1]
    · have hread : readLine? (dropLineEnd s.toList) = none :=
        Option.eq_none_iff_forall_not_mem.2 fun m hm =>
          hnone m (readLine?_eq_some_iff_statusLine.1 hm)
      rw [Outbound.read, hread]

/-- One line end goes, and the value keeps its quotes, its `=` and its line break.  One quote is
no value. -/
theorem decode_outbound_grammar_led :
    let line := "VAR led=\"a=\"b\"\n\""
    let m := Outbound.var "led" "a=\"b\"\n"
    (StatusLine line.toList m ∧ Outbound.decode (line ++ "\r\n").toUTF8 = .ok m
        ∧ m.encode = line.toUTF8)
      ∧ (∀ m, ¬ StatusLine "VAR led=\"".toList m)
      ∧ Outbound.decode "VAR led=\"".toUTF8 = .error (.unknownStatus "VAR led=\"") := by
  intro line m
  refine ⟨?_, ?_⟩
  · obtain ⟨l, hl, hdecode, -, hencode, -⟩ :=
      (decode_outbound_grammar (line ++ "\r\n").toUTF8).2 _ rfl
    obtain rfl : line.toList = l := (hl _).1 (String.toList_append ▸ .crlf line.toList)
    have hshape : StatusLine line.toList m :=
      Outbound.statusLine_iff.2 ⟨by decide +kernel, by decide +kernel, by decide +kernel⟩
    have hok := (hdecode m).2 hshape
    exact ⟨hshape, hok, (hencode m hok).trans (by rw [String.ofList_toList])⟩
  · obtain ⟨l, hl, -, -, -, hrefused⟩ := (decode_outbound_grammar "VAR led=\"".toUTF8).2 _ rfl
    obtain rfl : "VAR led=\"".toList = l := (hl _).1 (.unended _ (by decide +kernel))
    have hshapeless : ∀ m, ¬ StatusLine "VAR led=\"".toList m := fun m hm => by
      have hread := Outbound.readLine?_eq_some_iff_statusLine.2 hm
      rw [show Outbound.readLine? "VAR led=\"".toList = none by decide +kernel] at hread
      cases hread
    exact ⟨hshapeless, (hrefused hshapeless).trans (by decide +kernel)⟩

end RemoteAutomaton.Message
