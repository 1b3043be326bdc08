import RemoteAutomaton.Text.Unshown

/-!
# How errors show texts

`quote` writes a text between double quotes so that it stays on one line and every character of it
can be seen: the quote, the backslash and the usual controls get a two-character escape, and any
other character that shows nothing by itself is written `\u{hex}`.

An error repeats at most the first `excerptLength` characters of the text that caused it, and marks
the cut with an ellipsis.
-/

namespace RemoteAutomaton.Text

/-- How one character stands inside a quoted text. -/
def quoteChar (c : Char) : List Char :=
  if c = '\x00' then ['\\', '0']
  else if c = '\t' then ['\\', 't']
  else if c = '\n' then ['\\', 'n']
  else if c = '\r' then ['\\', 'r']
  else if c = '"' then ['\\', '"']
  else if c = '\\' then ['\\', '\\']
  else if isUnshown c then ['\\', 'u', '\x7b'] ++ Nat.toDigits 16 c.toNat ++ ['\x7d']
  else [c]

/-- The text between double quotes, escaped. -/
def quote (s : String) : String :=
  String.ofList ('"' :: s.toList.flatMap quoteChar ++ ['"'])

/-- How many characters of an offending text an error repeats. -/
def excerptLength : Nat := 64

/-- The text itself, or its beginning and an ellipsis. -/
def excerpt (s : List Char) : List Char :=
  if s.length ≤ excerptLength then s else s.take excerptLength ++ ['…']

theorem length_excerpt_le (s : List Char) : (excerpt s).length ≤ excerptLength + 1 := by
  unfold excerpt
  split
  · omega
  · simp only [List.length_append, List.length_take, List.length_singleton]
    omega

end RemoteAutomaton.Text
