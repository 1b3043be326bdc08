import Mathlib.Tactic.SplitIfs
import RemoteAutomaton.Message.Datagram
import RemoteAutomaton.Proofs.Lines

/-!
# Which datagrams are messages

A datagram is a message to the automaton exactly if it is UTF-8 text whose line has a known kind, a
name and a value; which of the refusals it gets otherwise depends on the first of these that is
missing (`decode_inbound_grammar`).  The line splits in one way only (`fields?_eq_some_iff`), and
nothing of it is lost: writing the message again gives back the line.
-/

namespace RemoteAutomaton.Message

open Text (LineOf cut? cut?_eq_none_iff cut?_eq_some_iff dropLineEnd fromUTF8?_eq_some_iff
  lineOf_dropLineEnd)

/-! ### The fields of a line -/

namespace Inbound

/-- A line that has no three fields, or no name between its first two separators. -/
def Incomplete (line : List Char) : Prop :=
  line.count '|' < 2 ∨ ∃ kind value, '|' ∉ kind ∧ line = kind ++ '|' :: '|' :: value

theorem count_separator {a b : List Char} (ha : '|' ∉ a) :
    (a ++ '|' :: b).count '|' = b.count '|' + 1 := by
  rw [List.count_append, List.count_eq_zero.2 ha, List.count_cons_self, Nat.zero_add]

/-- Three fields are found in one way only: neither the kind nor the name has a separator, and with
one after each they make up the line. -/
theorem fields?_eq_some_iff {line kind name value : List Char} :
    fields? line = some (kind, name, value) ↔
      '|' ∉ kind ∧ '|' ∉ name ∧ name ≠ [] ∧ line = kind ++ '|' :: (name ++ '|' :: value) := by
  unfold fields? separator
  constructor
  · intro h
    split at h
    · cases h
    · rename_i k rest hcut
      obtain ⟨hline, hk⟩ := cut?_eq_some_iff.1 hcut
      split at h
      · cases h
      · cases h
      · rename_i n v hne hcut'
        obtain ⟨hrest, hn⟩ := cut?_eq_some_iff.1 hcut'
        cases h
        exact ⟨hk, hn, hne, by rw [hline, hrest]⟩
  · rintro ⟨hk, hn, hne, rfl⟩
    rw [cut?_eq_some_iff.2 ⟨rfl, hk⟩]
    dsimp only
    rw [cut?_eq_some_iff.2 ⟨rfl, hn⟩]
    split
    · rename_i h
      cases h
    · rename_i h
      cases h
      exact absurd rfl hne
    · rename_i h
      cases h
      rfl

/-- A line of three fields with a name is complete: otherwise it would split with an empty name,
too. -/
theorem not_incomplete {kind name value : List Char} (hk : '|' ∉ kind) (hn : '|' ∉ name)
    (hne : name ≠ []) : ¬ Incomplete (kind ++ '|' :: (name ++ '|' :: value)) := by
  rintro (h | ⟨kind', value', hk', h⟩)
  · rw [count_separator hk, count_separator hn] at h
    omega
  · have hcut : cut? '|' (kind' ++ '|' :: '|' :: value') = some (kind, name ++ '|' :: value) :=
      cut?_eq_some_iff.2 ⟨h.symm, hk⟩
    rw [cut?_eq_some_iff.2 ⟨rfl, hk'⟩] at hcut
    obtain ⟨-, hrest⟩ := Prod.mk.inj (Option.some.inj hcut)
    obtain ⟨c, name, rfl⟩ := List.exists_cons_of_ne_nil hne
    exact hn ((List.cons.inj hrest).1 ▸ List.mem_cons_self ..)

theorem fields?_eq_none_iff {line : List Char} : fields? line = none ↔ Incomplete line := by
  unfold fields? separator
  split
  · rename_i hcut
    rw [cut?_eq_none_iff] at hcut
    exact iff_of_true rfl (.inl (by rw [List.count_eq_zero.2 hcut]; decide))
  · rename_i kind rest hcut
    obtain ⟨hline, hk⟩ := cut?_eq_some_iff.1 hcut
    rw [hline]
    split
    · rename_i hcut'
      rw [cut?_eq_none_iff] at hcut'
      refine iff_of_true rfl (.inl ?_)
      rw [count_separator hk, List.count_eq_zero.2 hcut']
      decide
    · rename_i value hcut'
      obtain ⟨hrest, -⟩ := cut?_eq_some_iff.1 hcut'
      exact iff_of_true rfl (.inr ⟨kind, value, hk, by rw [hrest, List.nil_append]⟩)
    · rename_i name value hne hcut'
      obtain ⟨hrest, hn⟩ := cut?_eq_some_iff.1 hcut'
      rw [hrest]
      exact iff_of_false (Option.some_ne_none _) (not_incomplete hk hn hne)

end Inbound

theorem Kind.read_of_other {kind : List Char} (hi : kind ≠ "INPUT".toList)
    (hc : kind ≠ "CMD".toList) : Kind.read kind = .error (.unknownKind (shown kind)) := by
  rw [Kind.read, Kind.word, Kind.word, if_neg hi, if_neg hc]

theorem Kind.read_eq_ok_iff {kind : List Char} {k : Kind} :
    Kind.read kind = .ok k ↔ kind = k.word.toList := by
  constructor
  · intro h
    unfold Kind.read at h
    split_ifs at h with hi hc
    · cases h
      exact hi
    · cases h
      exact hc
  · rintro rfl
    cases k <;> rfl

namespace Inbound

variable {d : ByteArray} {s : String} {line kind name value : List Char} {m : Inbound}

theorem decode_of_utf8 (hd : d = s.toUTF8) : decode d = readLine (dropLineEnd s.toList) := by
  rw [decode, fromUTF8?_eq_some_iff.2 hd]
  rfl

theorem decode_of_not_utf8 (hd : ∀ s : String, d ≠ s.toUTF8) : decode d = .error .invalidUtf8 := by
  unfold decode
  split
  · rfl
  · rename_i s hs
    exact absurd (fromUTF8?_eq_some_iff.1 hs) (hd s)

theorem readLine_of_incomplete (h : Incomplete line) :
    readLine line = .error (.malformed (shown line)) := by
  rw [readLine, fields?_eq_none_iff.2 h]

theorem readLine_of_other (h : fields? line = some (kind, name, value))
    (hi : kind ≠ "INPUT".toList) (hc : kind ≠ "CMD".toList) :
    readLine line = .error (.unknownKind (shown kind)) := by
  rw [readLine, h]
  dsimp only
  rw [Kind.read_of_other hi hc]

theorem readLine_of_kind {k : Kind} (h : fields? line = some (kind, name, value))
    (hk : kind = k.word.toList) :
    readLine line = .ok ⟨k, String.ofList name, String.ofList value⟩ := by
  rw [readLine, h]
  dsimp only
  rw [Kind.read_eq_ok_iff.2 hk]

/-- A line is read in one of three ways, which the fields and the kind decide. -/
theorem readLine_cases (line : List Char) :
    (Incomplete line ∧ readLine line = .error (.malformed (shown line)))
      ∨ ∃ kind name value, fields? line = some (kind, name, value)
        ∧ ((kind ≠ "INPUT".toList ∧ kind ≠ "CMD".toList
              ∧ readLine line = .error (.unknownKind (shown kind)))
          ∨ ∃ k : Kind, kind = k.word.toList
              ∧ readLine line = .ok ⟨k, String.ofList name, String.ofList value⟩) := by
  rcases hf : fields? line with _ | ⟨kind, name, value⟩
  · have hinc : Incomplete line := fields?_eq_none_iff.1 hf
    exact .inl ⟨hinc, readLine_of_incomplete hinc⟩
  · refine .inr ⟨kind, name, value, rfl, ?_⟩
    by_cases hi : kind = "INPUT".toList
    · exact .inr ⟨.input, hi, readLine_of_kind hf hi⟩
    by_cases hc : kind = "CMD".toList
    · exact .inr ⟨.command, hc, readLine_of_kind hf hc⟩
    · exact .inl ⟨hi, hc, readLine_of_other hf hi hc⟩

theorem readLine_ne_invalidUtf8 : readLine line ≠ .error .invalidUtf8 := by
  rcases readLine_cases line with ⟨-, h⟩ | ⟨kind, name, value, -, ⟨-, -, h⟩ | ⟨k, -, h⟩⟩
  all_goals
    rw [h]
    simp

theorem malformed_iff : (∃ x, readLine line = .error (.malformed x)) ↔ Incomplete line := by
  refine ⟨fun ⟨x, hx⟩ => ?_, fun h => ⟨_, readLine_of_incomplete h⟩⟩
  rcases readLine_cases line with ⟨hinc, -⟩ | ⟨kind, name, value, -, ⟨-, -, h⟩ | ⟨k, -, h⟩⟩
  · exact hinc
  · rw [h] at hx
    cases hx
  · rw [h] at hx
    cases hx

theorem unknownKind_iff (hf : fields? line = some (kind, name, value)) :
    (∃ x, readLine line = .error (.unknownKind x)) ↔
      kind ≠ "INPUT".toList ∧ kind ≠ "CMD".toList := by
  refine ⟨fun ⟨x, hx⟩ => ⟨?_, ?_⟩, fun ⟨hi, hc⟩ => ⟨_, readLine_of_other hf hi hc⟩⟩
  · intro hi
    rw [readLine_of_kind (k := .input) hf hi] at hx
    cases hx
  · intro hc
    rw [readLine_of_kind (k := .command) hf hc] at hx
    cases hx

/-- A message is read from a line exactly if it is written as that line and its name is one. -/
theorem readLine_eq_ok_iff :
    readLine line = .ok m ↔ line = m.render ∧ m.name ≠ "" ∧ '|' ∉ m.name.toList := by
  constructor
  · intro h
    rcases readLine_cases line with ⟨-, h'⟩ | ⟨kind, name, value, hf, ⟨-, -, h'⟩ | ⟨k, hk, h'⟩⟩
    · rw [h'] at h
      cases h
    · rw [h'] at h
      cases h
    · rw [h'] at h
      cases h
      obtain ⟨-, hn, hne, hline⟩ := fields?_eq_some_iff.1 hf
      refine ⟨?_, fun hname => hne (String.ofList_eq_empty_iff.1 hname), by simpa using hn⟩
      rw [render, hline, hk, String.toList_ofList, String.toList_ofList]
      rfl
  · rintro ⟨rfl, hne, hn⟩
    obtain ⟨k, name, value⟩ := m
    have hk : '|' ∉ k.word.toList := by cases k <;> decide
    have hf : fields? (render ⟨k, name, value⟩) = some (k.word.toList, name.toList, value.toList) :=
      fields?_eq_some_iff.2 ⟨hk, hn, fun h => hne (String.toList_eq_nil_iff.1 h), rfl⟩
    rw [readLine_of_kind hf rfl, String.ofList_toList, String.ofList_toList]

/-- A message that was read is written as the line it was read from. -/
theorem encode_of_readLine (h : readLine line = .ok m) :
    m.encode = (String.ofList line).toUTF8 := by
  rw [encode, text, (readLine_eq_ok_iff.1 h).1]

end Inbound

open Inbound in
/-- Of every byte string decoding says exactly what the grammar says: it is no UTF-8 text, or its
line is incomplete, or the kind is none, or it is the message with these fields, which is written as
that very line. -/
theorem decode_inbound_grammar (d : ByteArray) :
    (decode d = .error .invalidUtf8 ↔ ∀ s : String, d ≠ s.toUTF8)
      ∧ ∀ s : String, d = s.toUTF8 → ∃ line, (∀ l, LineOf s.toList l ↔ l = line)
        ∧ ((∃ x, decode d = .error (.malformed x)) ↔ Incomplete line)
        ∧ (¬ Incomplete line → ∃ kind name value, '|' ∉ kind ∧ '|' ∉ name
          ∧ line = kind ++ '|' :: (name ++ '|' :: value)
          ∧ ((∃ x, decode d = .error (.unknownKind x)) ↔
            kind ≠ "INPUT".toList ∧ kind ≠ "CMD".toList)
          ∧ (kind = "INPUT".toList →
            decode d = .ok ⟨.input, String.ofList name, String.ofList value⟩)
          ∧ (kind = "CMD".toList →
            decode d = .ok ⟨.command, String.ofList name, String.ofList value⟩))
        ∧ ∀ m, decode d = .ok m → m.encode = (String.ofList line).toUTF8 := by
  refine ⟨⟨fun h s hd => ?_, fun h => ?_⟩, fun s hd => ⟨dropLineEnd s.toList, ?_, ?_⟩⟩
  · rw [decode_of_utf8 hd] at h
    exact readLine_ne_invalidUtf8 h
  · exact decode_of_not_utf8 h
  · intro l
    refine ⟨fun hl => hl.eq_dropLineEnd.symm, ?_⟩
    rintro rfl
    exact lineOf_dropLineEnd s.toList
  · rw [decode_of_utf8 hd]
    refine ⟨malformed_iff, fun hinc => ?_, fun m hm => encode_of_readLine hm⟩
    obtain ⟨⟨kind, name, value⟩, hf⟩ :=
      Option.ne_none_iff_exists'.1 (mt fields?_eq_none_iff.1 hinc)
    obtain ⟨hk, hn, -, hline⟩ := fields?_eq_some_iff.1 hf
    exact ⟨kind, name, value, hk, hn, hline, unknownKind_iff hf,
      fun hi => readLine_of_kind (k := .input) hf hi,
      fun hc => readLine_of_kind (k := .command) hf hc⟩

/-- One line end goes, and the value keeps its separator. -/
theorem decode_inbound_grammar_led :
    let d := "INPUT|led|a|b\r\n".toUTF8
    d = "INPUT|led|a|b\r\n".toUTF8 ∧ ¬ Inbound.Incomplete "INPUT|led|a|b".toList
      ∧ Inbound.decode d = .ok (.ofInput "led" "a|b")
      ∧ (Inbound.ofInput "led" "a|b").encode = "INPUT|led|a|b".toUTF8 := by
  intro d
  have hdecode : Inbound.decode d = .ok (.ofInput "led" "a|b") := by decide +kernel
  obtain ⟨line, hline, hmalformed, -, hencode⟩ := (decode_inbound_grammar d).2 _ rfl
  obtain rfl : "INPUT|led|a|b".toList = line := (hline _).1 (.crlf "INPUT|led|a|b".toList)
  refine ⟨rfl, fun hinc => ?_, hdecode, hencode _ hdecode⟩
  obtain ⟨x, hx⟩ := hmalformed.2 hinc
  rw [hdecode] at hx
  cases hx

end RemoteAutomaton.Message
