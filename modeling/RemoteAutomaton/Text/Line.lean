/-!
# Lines and their parts

A datagram is one line: a line end that follows it is dropped, and its parts lie between
separators. `trim` removes the blanks at both ends of a text, which are the characters of Unicode's
`White_Space` property.
-/

namespace RemoteAutomaton.Text

/-- The text without one line end (`\r\n` or `\n`) at its end. -/
def dropLineEnd (s : List Char) : List Char :=
  match s.reverse with
  | '\n' :: '\r' :: r => r.reverse
  | '\n' :: r => r.reverse
  | _ => s

/-- The parts before and after the first `sep`. -/
def cut? (sep : Char) (s : List Char) : Option (List Char × List Char) :=
  match s.dropWhile (· ≠ sep) with
  | [] => none
  | _ :: rest => some (s.takeWhile (· ≠ sep), rest)

/-- The text between two double quotes that are its first and last characters. -/
def unwrapQuotes? : List Char → Option (List Char)
  | '"' :: r => if r.getLast? = some '"' then some r.dropLast else none
  | _ => none

/-- The characters of Unicode's `White_Space` property. -/
def isBlank (c : Char) : Bool :=
  let n := c.toNat
  (0x9 ≤ n && n ≤ 0xD) || n == 0x20 || n == 0x85 || n == 0xA0 || n == 0x1680
    || (0x2000 ≤ n && n ≤ 0x200A) || n == 0x2028 || n == 0x2029 || n == 0x202F || n == 0x205F
    || n == 0x3000

/-- The text without the blanks at its two ends. -/
def trim (s : List Char) : List Char :=
  ((s.dropWhile isBlank).reverse.dropWhile isBlank).reverse

/-- Cutting loses only the separator, and the first part has none. -/
theorem cut?_eq_some {sep : Char} {s a b : List Char} (h : cut? sep s = some (a, b)) :
    s = a ++ sep :: b ∧ sep ∉ a := by
  unfold cut? at h
  split at h
  · simp at h
  · rename_i c rest hd
    simp only [Option.some.injEq, Prod.mk.injEq] at h
    have hc : c = sep := by
      have := List.head?_dropWhile_not (fun x => decide (x ≠ sep)) s
      rw [hd] at this
      simpa using this
    subst hc
    refine ⟨?_, fun hm => ?_⟩
    · rw [← h.1, ← h.2, ← hd, List.takeWhile_append_dropWhile]
    · have := List.all_takeWhile (l := s) (p := fun x => decide (x ≠ c))
      rw [h.1, List.all_eq_true] at this
      simpa using this c hm

end RemoteAutomaton.Text
