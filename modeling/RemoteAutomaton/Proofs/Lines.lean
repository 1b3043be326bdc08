import Mathlib.Data.List.Basic
import Mathlib.Data.List.TakeWhile
import RemoteAutomaton.Text.Line

/-!
# Lines and their parts

A text is read from bytes exactly if they are its UTF-8 bytes (`fromUTF8?_eq_some_iff`).  `LineOf`
says what is left of a text without the line end after it, and dropping a line end leaves exactly
that (`lineOf_iff`).  A text is cut at its first separator: cutting succeeds exactly if there is one
(`cut?_eq_none_iff`), and the two parts determine the text and are determined by it
(`cut?_eq_some_iff`).
-/

namespace RemoteAutomaton.Text

/-! ### Texts and bytes -/

theorem fromUTF8?_toUTF8 (s : String) : String.fromUTF8? s.toUTF8 = some s := by
  unfold String.fromUTF8?
  rw [String.toUTF8_eq_toByteArray, dif_pos s.isValidUTF8]
  rfl

theorem fromUTF8?_eq_some_iff {d : ByteArray} {s : String} :
    String.fromUTF8? d = some s ↔ d = s.toUTF8 := by
  constructor
  · intro h
    unfold String.fromUTF8? at h
    split at h
    · cases h
      rfl
    · cases h
  · rintro rfl
    exact fromUTF8?_toUTF8 s

/-! ### Line ends -/

/-- The second text is the first one without the line end after it: without `\r\n`, or else without
`\n`.  A lone `\r` is no line end. -/
inductive LineOf : List Char → List Char → Prop
  | crlf (line : List Char) : LineOf (line ++ ['\r', '\n']) line
  | lf (line : List Char) (h : line.getLast? ≠ some '\r') : LineOf (line ++ ['\n']) line
  | unended (line : List Char) (h : line.getLast? ≠ some '\n') : LineOf line line

theorem lineOf_dropLineEnd (s : List Char) : LineOf s (dropLineEnd s) := by
  have hs : s = s.reverse.reverse := s.reverse_reverse.symm
  unfold dropLineEnd
  split
  · rename_i r hr
    rw [hr, List.reverse_cons, List.reverse_cons, List.append_assoc] at hs
    rw [hs]
    exact .crlf r.reverse
  · rename_i r hne hr
    rw [hr, List.reverse_cons] at hs
    rw [hs]
    refine .lf r.reverse fun hlast => ?_
    rw [List.getLast?_reverse] at hlast
    obtain ⟨r', rfl⟩ := List.head?_eq_some_iff.1 hlast
    exact hne r' rfl
  · rename_i hne
    refine .unended s fun hlast => ?_
    rw [List.getLast?_eq_head?_reverse] at hlast
    obtain ⟨r, hr⟩ := List.head?_eq_some_iff.1 hlast
    exact hne r hr

theorem LineOf.eq_dropLineEnd {s line : List Char} (h : LineOf s line) : dropLineEnd s = line := by
  cases h with
  | crlf => simp [dropLineEnd]
  | lf line h =>
    rw [List.getLast?_eq_head?_reverse] at h
    unfold dropLineEnd
    rw [List.reverse_append, List.reverse_singleton, List.singleton_append]
    split
    · rename_i r hr
      rw [(List.cons.inj hr).2] at h
      exact absurd rfl h
    · rename_i r _ hr
      rw [← (List.cons.inj hr).2, List.reverse_reverse]
    · rename_i hne
      exact absurd rfl (hne line.reverse)
  | unended line h =>
    rw [List.getLast?_eq_head?_reverse] at h
    unfold dropLineEnd
    split
    · rename_i r hr
      rw [hr] at h
      exact absurd rfl h
    · rename_i r _ hr
      rw [hr] at h
      exact absurd rfl h
    · rfl

theorem lineOf_iff {s line : List Char} : LineOf s line ↔ line = dropLineEnd s := by
  refine ⟨fun h => h.eq_dropLineEnd.symm, ?_⟩
  rintro rfl
  exact lineOf_dropLineEnd s

theorem dropLineEnd_eq_self_iff {s : List Char} : dropLineEnd s = s ↔ s.getLast? ≠ some '\n' := by
  constructor
  · intro h
    have hs : LineOf s (dropLineEnd s) := lineOf_dropLineEnd s
    generalize hline : dropLineEnd s = line at h hs
    cases hs with
    | crlf =>
      have hlen := congrArg List.length h
      simp at hlen
    | lf line _ =>
      have hlen := congrArg List.length h
      simp at hlen
    | unended line hlast => exact hlast
  · exact fun h => (LineOf.unended s h).eq_dropLineEnd

/-- What ends the last part of a text ends the text, unless it is what stands before that part. -/
theorem getLast?_append_cons_eq_iff {a b : List Char} {c x : Char} (h : c ≠ x) :
    (a ++ c :: b).getLast? = some x ↔ b.getLast? = some x := by
  rcases b.eq_nil_or_concat with rfl | ⟨b, y, rfl⟩
  · simp [h]
  · rw [List.concat_eq_append, ← List.cons_append, ← List.append_assoc, List.getLast?_concat,
      List.getLast?_concat]

/-! ### Parts of a line -/

theorem unwrapQuotes?_eq_some_iff {s value : List Char} :
    unwrapQuotes? s = some value ↔ s = '"' :: (value ++ ['"']) := by
  constructor
  · intro h
    unfold unwrapQuotes? at h
    split at h
    · rename_i r
      split at h
      · rename_i hlast
        cases h
        rw [List.dropLast_append_getLast? _ hlast]
      · cases h
    · cases h
  · rintro rfl
    simp [unwrapQuotes?]

section Cut

variable {sep : Char} {s a b : List Char}

theorem cut?_eq_none_iff : cut? sep s = none ↔ sep ∉ s := by
  have hdrop : s.dropWhile (· ≠ sep) = [] ↔ sep ∉ s := by
    rw [List.dropWhile_eq_nil_iff]
    simp only [decide_eq_true_eq]
    exact ⟨fun h hs => h sep hs rfl, fun h x hx e => h (e ▸ hx)⟩
  unfold cut?
  split
  · rename_i h
    exact iff_of_true rfl (hdrop.1 h)
  · rename_i c rest h
    refine iff_of_false (Option.some_ne_none _) fun hs => ?_
    rw [hdrop.2 hs] at h
    cases h

/-- The first part has no separator, and the two parts with one between them are the text. -/
theorem cut?_eq_some_iff : cut? sep s = some (a, b) ↔ s = a ++ sep :: b ∧ sep ∉ a := by
  refine ⟨cut?_eq_some, ?_⟩
  rintro ⟨rfl, ha⟩
  have hall : ∀ x ∈ a, decide (x ≠ sep) = true := fun x hx =>
    decide_eq_true fun e => ha (e ▸ hx)
  unfold cut?
  rw [List.dropWhile_append_of_pos hall, List.takeWhile_append_of_pos hall,
    List.dropWhile_cons_of_neg (by simp), List.takeWhile_cons_of_neg (by simp), List.append_nil]

end Cut

end RemoteAutomaton.Text
