import Mathlib.Data.String.Basic
import RemoteAutomaton.Proofs.InboundGrammar
import RemoteAutomaton.Proofs.Sending
import RemoteAutomaton.Text.Quoted

/-!
# The report of a bad datagram is small

A datagram that is no message, or asks for no known command, is answered with a report that repeats
what is wrong with it (`Faulty`): at most 64 characters and an ellipsis (`Cropped`), whatever the
length of the datagram.  A character has at most four bytes, and at most ten where it stands in a
quoted text (`Escape`), so a report with all that is around it has never more than 1024 bytes
(`Faulty.size_le`).
-/

namespace RemoteAutomaton.Text

open String (utf8Len)

/-- What is shown of a text: all of it, or its first 64 characters and one ellipsis. -/
inductive Cropped : List Char → List Char → Prop
  | whole (s : List Char) (h : s.length ≤ 64) : Cropped s s
  | cut (s rest : List Char) (hs : s.length = 64) (hrest : rest ≠ []) :
    Cropped (s ++ rest) (s ++ ['…'])

theorem cropped_iff {s shown : List Char} : Cropped s shown ↔ shown = excerpt s := by
  constructor
  · rintro (⟨_, h⟩ | ⟨s, rest, hs, hrest⟩)
    · rw [excerpt, excerptLength, if_pos h]
    · have hlong : ¬ (s ++ rest).length ≤ 64 := by
        have := List.length_pos_iff.2 hrest
        rw [List.length_append]
        omega
      rw [excerpt, excerptLength, if_neg hlong, List.take_left' hs]
  · rintro rfl
    unfold excerpt excerptLength
    split_ifs with h
    · exact .whole s h
    · have hcut := Cropped.cut (s.take 64) (s.drop 64) (List.length_take_of_le (by omega))
        (List.ne_nil_of_length_pos (by rw [List.length_drop]; omega))
      rwa [List.take_append_drop] at hcut

/-- How a character stands in a quoted text: as it is, as an escape of two characters, or as its
code in at most six hexadecimal digits. -/
inductive Escape (c : Char) : List Char → Prop
  | itself : Escape c [c]
  | short (x : Char) (hx : x.utf8Size = 1) : Escape c ['\\', x]
  | code (digits : List Char) (hlen : digits.length ≤ 6) (hdigits : ∀ x ∈ digits, x.utf8Size = 1) :
      Escape c (['\\', 'u', '\x7b'] ++ digits ++ ['\x7d'])

theorem utf8Size_of_mem_toDigits {x : Char} (n : Nat) (hx : x ∈ Nat.toDigits 16 n) :
    x.utf8Size = 1 := by
  have hdigit : ∀ d < 16, (Nat.digitChar d).utf8Size = 1 := by decide
  by_cases hn : n < 16
  · rw [Nat.toDigits_of_lt_base hn, List.mem_singleton] at hx
    exact hx ▸ hdigit n hn
  · rw [Nat.toDigits_of_base_le (by decide) (by omega), List.mem_append, List.mem_singleton] at hx
    rcases hx with hx | rfl
    · exact utf8Size_of_mem_toDigits (n / 16) hx
    · exact hdigit _ (Nat.mod_lt _ (by decide))

theorem escape_quoteChar (c : Char) : Escape c (quoteChar c) := by
  unfold quoteChar
  split_ifs
  iterate 6 exact .short _ (by decide)
  · refine .code _ ((Nat.length_toDigits_le_iff (by decide) (by decide)).2 ?_)
      fun x hx => utf8Size_of_mem_toDigits _ hx
    have hc : c.toNat.isValidChar := c.valid
    rcases hc with hc | ⟨-, hc⟩ <;> omega
  · exact .itself

theorem utf8Len_le {k : Nat} : ∀ {s : List Char}, (∀ c ∈ s, c.utf8Size ≤ k) →
    utf8Len s ≤ k * s.length
  | [], _ => Nat.zero_le _
  | c :: s, h => by
    obtain ⟨hc, hs⟩ := List.forall_mem_cons.1 h
    have ih := utf8Len_le hs
    rw [String.utf8Len_cons, List.length_cons, Nat.mul_succ]
    omega

theorem size_toUTF8_le (s : List Char) : (String.ofList s).toUTF8.size ≤ 4 * s.length := by
  rw [String.toUTF8_eq_toByteArray, String.size_toByteArray, String.utf8ByteSize_ofList]
  exact utf8Len_le fun c _ => c.utf8Size_le_four

theorem Escape.utf8Len_le {c : Char} {s : List Char} (h : Escape c s) : utf8Len s ≤ 10 := by
  cases h with
  | itself => simpa using c.utf8Size_le_four.trans (by decide)
  | short x hx =>
    rw [String.utf8Len_cons, String.utf8Len_cons, hx]
    decide
  | code digits hlen hdigits =>
    have hcode := Text.utf8Len_le (k := 1) fun x hx => (hdigits x hx).le
    have hopen : utf8Len ['\\', 'u', '\x7b'] = 3 := by decide
    have hclose : utf8Len ['\x7d'] = 1 := by decide
    rw [String.utf8Len_append, String.utf8Len_append, hopen, hclose]
    omega

theorem utf8Len_flatMap_quoteChar : ∀ s : List Char, utf8Len (s.flatMap quoteChar) ≤ 10 * s.length
  | [] => Nat.zero_le _
  | c :: s => by
    have hc := (escape_quoteChar c).utf8Len_le
    have ih := utf8Len_flatMap_quoteChar s
    rw [List.flatMap_cons, String.utf8Len_append, List.length_cons]
    omega

theorem Cropped.length_le {s shown : List Char} (h : Cropped s shown) : shown.length ≤ 65 :=
  cropped_iff.1 h ▸ length_excerpt_le s

theorem Cropped.utf8ByteSize_le {s shown : List Char} (h : Cropped s shown) :
    (String.ofList shown).utf8ByteSize ≤ 260 := by
  have hshown := size_toUTF8_le shown
  have hlen := h.length_le
  rw [String.toUTF8_eq_toByteArray, String.size_toByteArray] at hshown
  omega

theorem Cropped.utf8ByteSize_quote_le {s shown : List Char} (h : Cropped s shown) :
    (quote (String.ofList shown)).utf8ByteSize ≤ 652 := by
  have hshown := utf8Len_flatMap_quoteChar shown
  have hlen := h.length_le
  have hquote : utf8Len ['"'] = 1 := by decide
  rw [quote, String.toList_ofList, String.utf8ByteSize_ofList, List.cons_append,
    ← List.singleton_append, String.utf8Len_append, String.utf8Len_append, hquote]
  omega

end RemoteAutomaton.Text

namespace RemoteAutomaton.Message

open Inbound (Incomplete decode fields? readLine)
open Text (Cropped LineOf cropped_iff lineOf_dropLineEnd quote)

/-- Datagrams that are no message, or a command that there is not, each with the text that is
reported of it. -/
inductive Faulty : ByteArray → String → Prop
  | notText (d : ByteArray) (h : ∀ s : String, d ≠ s.toUTF8) :
      Faulty d "INVALID_UTF8: invalid UTF-8 in datagram"
  | incomplete (s : String) (line shown : List Char) (hline : LineOf s.toList line)
      (h : Incomplete line) (hshown : Cropped line shown) :
      Faulty s.toUTF8 ("MALFORMED_MESSAGE: malformed message (expected KIND|NAME|VALUE): "
        ++ quote (String.ofList shown))
  | kind (s : String) (kind name value shown : List Char)
      (hline : LineOf s.toList (kind ++ '|' :: (name ++ '|' :: value)))
      (hk : '|' ∉ kind) (hn : '|' ∉ name) (hne : name ≠ [])
      (hi : kind ≠ "INPUT".toList) (hc : kind ≠ "CMD".toList) (hshown : Cropped kind shown) :
      Faulty s.toUTF8 ("UNKNOWN_KIND: unknown message kind: " ++ String.ofList shown)
  | command (s : String) (name value shown : List Char)
      (hline : LineOf s.toList ("CMD".toList ++ '|' :: (name ++ '|' :: value)))
      (hn : '|' ∉ name) (hne : name ≠ []) (ht : name ≠ "TERMINATE".toList)
      (hg : name ≠ "GET_STATUS".toList) (hshown : Cropped name shown) :
      Faulty s.toUTF8 ("UNKNOWN_COMMAND: unknown command: " ++ String.ofList shown)

/-- A datagram is refused, or asks for a command that there is not. -/
def Refused (d : ByteArray) (x : Error) : Prop :=
  decode d = .error x ∨ ∃ m, decode d = .ok m ∧ m.kind = .command ∧ m.command = .error x

variable {d : ByteArray} {text : String} {x : Error}

theorem Faulty.utf8ByteSize_le (h : Faulty d text) : text.utf8ByteSize ≤ 717 := by
  cases h with
  | notText => decide +kernel
  | incomplete s line shown _ _ hshown =>
    have hquote := hshown.utf8ByteSize_quote_le
    have hwords : ("MALFORMED_MESSAGE: malformed message (expected KIND|NAME|VALUE): ").utf8ByteSize
      = 65 := by decide +kernel
    rw [String.utf8ByteSize_append, hwords]
    omega
  | kind _ _ _ _ _ _ _ _ _ _ _ hshown =>
    have hkind := hshown.utf8ByteSize_le
    have hwords : ("UNKNOWN_KIND: unknown message kind: ").utf8ByteSize = 36 := by decide +kernel
    rw [String.utf8ByteSize_append, hwords]
    omega
  | command _ _ _ _ _ _ _ _ _ hshown =>
    have hname := hshown.utf8ByteSize_le
    have hwords : ("UNKNOWN_COMMAND: unknown command: ").utf8ByteSize = 34 := by decide +kernel
    rw [String.utf8ByteSize_append, hwords]
    omega

theorem Outbound.size_encode_error (text : String) :
    (Outbound.error text).encode.size = 6 + text.utf8ByteSize := by
  have hword : String.utf8Len "ERROR ".toList = 6 := by decide +kernel
  have htext : String.utf8Len text.toList = text.utf8ByteSize := by
    rw [← String.utf8ByteSize_ofList, String.ofList_toList]
  have hline : (Outbound.error text).render = "ERROR ".toList ++ text.toList := by
    simp [Outbound.render, Outbound.payload?, Outbound.keyword]
  rw [Outbound.encode, Outbound.text, hline, String.toUTF8_eq_toByteArray,
    String.size_toByteArray, String.utf8ByteSize_ofList, String.utf8Len_append, hword, htext]

theorem Faulty.size_le (h : Faulty d text) : (Outbound.error text).encode.size ≤ 1024 := by
  have htext := h.utf8ByteSize_le
  rw [Outbound.size_encode_error]
  omega

theorem Error.report_malformed (line : String) : (malformed line).report
    = "MALFORMED_MESSAGE: malformed message (expected KIND|NAME|VALUE): " ++ quote line := by
  change "MALFORMED_MESSAGE" ++ ": "
    ++ ("malformed message (expected KIND|NAME|VALUE): " ++ quote line) = _
  simp only [← String.append_assoc, String.reduceAppend]

theorem Error.report_unknownKind (kind : String) :
    (unknownKind kind).report = "UNKNOWN_KIND: unknown message kind: " ++ kind := by
  change "UNKNOWN_KIND" ++ ": " ++ ("unknown message kind: " ++ kind) = _
  simp only [← String.append_assoc, String.reduceAppend]

theorem Error.report_unknownCommand (name : String) :
    (unknownCommand name).report = "UNKNOWN_COMMAND: unknown command: " ++ name := by
  change "UNKNOWN_COMMAND" ++ ": " ++ ("unknown command: " ++ name) = _
  simp only [← String.append_assoc, String.reduceAppend]

theorem Command.read_of_error {name : List Char} (h : Command.read name = .error x) :
    name ≠ "TERMINATE".toList ∧ name ≠ "GET_STATUS".toList
      ∧ x = .unknownCommand (shown name) := by
  unfold Command.read at h
  split_ifs at h with ht hg
  cases h
  exact ⟨ht, hg, rfl⟩

/-- What is reported is the text of the datagram's fault. -/
theorem Refused.faulty (h : Refused d x) : Faulty d x.report := by
  by_cases hd : ∀ s : String, d ≠ s.toUTF8
  · rw [Refused, Inbound.decode_of_not_utf8 hd] at h
    rcases h with h | ⟨m, h, -⟩ <;> cases h
    exact .notText d hd
  obtain ⟨s, hs⟩ := not_forall_not.1 hd
  have hline := lineOf_dropLineEnd s.toList
  rw [Refused, Inbound.decode_of_utf8 hs] at h
  subst hs
  generalize Text.dropLineEnd s.toList = line at h hline
  rcases Inbound.readLine_cases line with
    ⟨hinc, hread⟩ | ⟨kind, name, value, hf, ⟨hi, hc, hread⟩ | ⟨k, hk, hread⟩⟩
  all_goals
    rw [hread] at h
  · rcases h with h | ⟨m, h, -⟩ <;> cases h
    rw [Error.report_malformed]
    exact .incomplete s line _ hline hinc (cropped_iff.2 rfl)
  all_goals
    obtain ⟨hk', hn, hne, rfl⟩ := Inbound.fields?_eq_some_iff.1 hf
  · rcases h with h | ⟨m, h, -⟩ <;> cases h
    rw [Error.report_unknownKind]
    exact .kind s kind name value _ hline hk' hn hne hi hc (cropped_iff.2 rfl)
  · rcases h with h | ⟨m, h, hcommand, hx⟩ <;> cases h
    obtain rfl : k = .command := hcommand
    subst hk
    change Command.read (String.ofList name).toList = _ at hx
    rw [String.toList_ofList] at hx
    obtain ⟨ht, hg, rfl⟩ := Command.read_of_error hx
    rw [Error.report_unknownCommand]
    exact .command s name value _ hline hn hne ht hg (cropped_iff.2 rfl)

end RemoteAutomaton.Message

namespace RemoteAutomaton.Engine

open Message (Faulty Inbound Outbound Refused maxDatagramSize)
open Network (Prompt Socket)

variable {σ τ : Type} [Socket σ]

/-- A datagram that is not too long is taken whole. -/
theorem extract_of_size_le {d : ByteArray} (h : d.size ≤ maxDatagramSize) :
    d.extract 0 maxDatagramSize = d := by
  refine ByteArray.ext ?_
  rw [ByteArray.data_extract]
  exact Array.extract_eq_self_of_le h

/-- Whatever its handlers are, an engine answers a bad datagram itself. -/
theorem dispatch_of_refused {g : Engine σ τ} {a : τ} {d : ByteArray} {x : Message.Error}
    (hg : g.link.transport.isReceiving = true) (h : Refused (d.extract 0 maxDatagramSize) x) :
    g.dispatch a (.datagram d)
      = (false, a, g.link.sendError (Error.network (.message x)).report) := by
  rw [dispatch, takeReceived, if_pos hg, Network.receive]
  rcases h with h | ⟨m, h, hkind, hx⟩
  · rw [h]
    rfl
  · rw [h]
    simp only [takeMessage, hkind, hx]

/-- A datagram of any length that is refused, or asks for no known command, gets a report of at most
1024 bytes, which says what is wrong and repeats at most 64 characters of it and an ellipsis.  This
is what an engine sends that takes the datagram, as far as its buffer holds it, and nothing else. -/
theorem bad_datagram_report {sent : σ → List ByteArray}
    (hσ : Prompt (fun x => decide (x.size ≤ maxDatagramSize)) sent) {d : ByteArray}
    {x : Message.Error} (h : Refused d x) :
    let text := (Error.network (.message x)).report
    Faulty d text
      ∧ (Outbound.error text).encode.size ≤ 1024
      ∧ ∀ (g : Engine σ τ) (a : τ) (datagram : ByteArray), g.link.transport.Live →
        datagram.extract 0 maxDatagramSize = d →
          g.dispatch a (.datagram datagram) = (false, a, g.link.sendError text)
          ∧ (g.link.sendError text).told sent
            = g.link.told sent ++ [(Outbound.error text).encode] := by
  intro text
  have hfaulty : Faulty d text := h.faulty
  refine ⟨hfaulty, hfaulty.size_le, fun g a datagram hlive hd => ?_⟩
  have hfits : (Outbound.error text).encode.size ≤ maxDatagramSize :=
    hfaulty.size_le.trans (by decide)
  obtain ⟨-, htold⟩ := told_sendError hσ hlive text
  subst hd
  refine ⟨dispatch_of_refused hlive.isReceiving h, ?_⟩
  rw [htold, List.filter_eq_self.2 (by simpa using hfits)]

open Message Network in
/-- Seventy characters whose codes have six digits each: 64 of them are repeated. -/
theorem bad_datagram_report_codes :
    let line := List.replicate 70 (Char.ofNat 0x100000)
    let d := (String.ofList line).toUTF8
    let x := Message.Error.malformed (String.ofList (line.take 64 ++ ['…']))
    let text := (Error.network (.message x)).report
    let g : Engine (Wire fun x => decide (x.size ≤ maxDatagramSize)) Unit :=
      ⟨{}, { transport := { socket := {}, peer := ⟨.v4 127 0 0 1, 0, 9⟩, wantsDatagrams := true } },
        {}, false⟩
    Refused d x ∧ Faulty d text ∧ (Outbound.error text).encode.size ≤ 1024
      ∧ g.dispatch () (.datagram d) = (false, (), g.link.sendError text)
      ∧ (g.link.sendError text).told Wire.sent = [(Outbound.error text).encode] := by
  intro line d x text g
  have hx : Refused d x := by
    refine .inl ?_
    rw [Inbound.decode_of_utf8 rfl, String.toList_ofList,
      Text.dropLineEnd_eq_self_iff.2 (by decide), Inbound.readLine_of_incomplete (.inl (by decide))]
    rfl
  have hd : d.extract 0 maxDatagramSize = d :=
    extract_of_size_le ((Text.size_toUTF8_le line).trans (by decide))
  obtain ⟨hfaulty, hfits, hsent⟩ := bad_datagram_report (τ := Unit) Wire.prompt hx
  obtain ⟨hdispatch, htold⟩ := hsent g () d ⟨rfl, rfl, rfl⟩ hd
  have hnone : g.link.told Wire.sent = [] := rfl
  rw [hnone, List.nil_append] at htold
  exact ⟨hx, hfaulty, hfits, hdispatch, htold⟩

end RemoteAutomaton.Engine
