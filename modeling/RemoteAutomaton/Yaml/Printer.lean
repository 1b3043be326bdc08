import RemoteAutomaton.Yaml.Plain
import RemoteAutomaton.Yaml.Character

/-!
# Writing YAML

A text is written plain where it then reads back as a text. Otherwise it is put into single quotes,
or into double quotes if it has characters that must be escaped; a text of several lines is written
as a block. `Draft.render` writes mappings whose keys are plain words.
-/

namespace RemoteAutomaton.Yaml

/-- Whether a character is written as it is. -/
def isShown (c : Char) : Bool :=
  let n := c.toNat
  n == 0xA || (0x20 ≤ n && n ≤ 0x7E) || (0xA0 ≤ n && n ≤ 0xD7FF)
    || (0xE000 ≤ n && n ≤ 0xFFFD && n != 0xFEFF)

/-- Whether two neighbours satisfy two conditions anywhere in a text. -/
def hasPair (p q : Char → Bool) : List Char → Bool
  | c :: d :: r => (p c && q d) || hasPair p q (d :: r)
  | _ => false

/-- Whether a colon ends a word. -/
def hasEndingColon : List Char → Bool
  | [] => false
  | c :: r => (c == ':' && endsWord r) || hasEndingColon r

/-- Whether the first characters would not be read as those of a plain scalar. -/
def hasSignFirst (s : List Char) : Bool :=
  match s with
  | [] => false
  | c :: r =>
    "#,[]\x7b\x7d&*!|>'\"%@\x60".toList.contains c || ((c == '?' || c == '-') && endsWord r)

/-- Whether a text can be written without escapes, on one line or in a block. -/
def isLiteral (s : List Char) : Bool :=
  s.all isShown && !hasPair (· == ' ') isBreak s

/-- Whether a text can be written plain, if nothing else than a text is written so. -/
def isPlain (s : List Char) : Bool :=
  isLiteral s && !s.any isBreak && s.head? != some ' ' && s.getLast? != some ' '
    && !"---".toList.isPrefixOf s && !"...".toList.isPrefixOf s && !hasSignFirst s
    && !hasEndingColon s && !hasPair isSpace (· == '#') s

/-- Whether a plain scalar would be read as a text, and its digits as no number by anyone. -/
def isTextPlain (s : String) : Bool :=
  match Scalar.ofPlain s with
  | .text _ => !isPadded (splitSign s.toList).2
  | _ => false

def numberEscape (c : Char) : List Char :=
  let n := c.toNat
  let digits := (Nat.toDigits 16 n).map Char.toUpper
  let (letter, length) := if n ≤ 0xFF then ('x', 2) else if n ≤ 0xFFFF then ('u', 4) else ('U', 8)
  '\\' :: letter :: (List.replicate (length - digits.length) '0' ++ digits)

def escapeChar (c : Char) : List Char :=
  match c with
  | '\x00' => ['\\', '0']
  | '\x07' => ['\\', 'a']
  | '\x08' => ['\\', 'b']
  | '\t' => ['\\', 't']
  | '\n' => ['\\', 'n']
  | '\x0b' => ['\\', 'v']
  | '\x0c' => ['\\', 'f']
  | '\r' => ['\\', 'r']
  | '\x1b' => ['\\', 'e']
  | '"' => ['\\', '"']
  | '\\' => ['\\', '\\']
  | '\u0085' => ['\\', 'N']
  | '\u2028' => ['\\', 'L']
  | '\u2029' => ['\\', 'P']
  | c => if isShown c then [c] else numberEscape c

def doubleQuoted (s : List Char) : List Char := '"' :: (s.flatMap escapeChar ++ ['"'])

/-- The rest of a text in single quotes. A line begins with `indent` spaces. -/
def singleQuotedFrom (indent : Nat) (atStart : Bool) : List Char → List Char
  | [] => (if atStart then List.replicate indent ' ' else []) ++ ['\'']
  | c :: r =>
    if isBreak c then c :: singleQuotedFrom indent true r
    else
      (if atStart then List.replicate indent ' ' else [])
        ++ (if c == '\'' then ['\'', '\''] else [c]) ++ singleQuotedFrom indent false r

def singleQuoted (indent : Nat) (s : List Char) : List Char :=
  '\'' :: singleQuotedFrom indent false s

/-- The lines of a block. Empty lines are not indented. -/
def blockLines (indent : Nat) (atStart : Bool) : List Char → List Char
  | [] => []
  | c :: r =>
    if isBreak c then c :: blockLines indent true r
    else (if atStart then List.replicate indent ' ' else []) ++ c :: blockLines indent false r

/-- Whether a block keeps line ends after its last one. -/
def keepsEnds (s : List Char) : Bool :=
  match s.reverse with
  | [c] => isBreak c
  | c :: d :: _ => isBreak c && isBreak d
  | [] => false

/-- A text as a block. -/
def literalBlock (indent : Nat) (s : List Char) : List Char :=
  let hint := if (s.head?.map fun c => c == ' ' || isBreak c).getD false then ['2'] else []
  let chomping :=
    if keepsEnds s then ['+'] else if (s.getLast?.map isBreak).getD false then [] else ['-']
  '|' :: (hint ++ chomping ++ '\n' :: blockLines indent true s)

/-- A text as a value whose further lines begin with `indent` spaces. -/
def renderText (indent : Nat) (s : String) : List Char :=
  let cs := s.toList
  let isBlock := cs.contains '\n'
  if isBlock && isLiteral cs && cs.getLast? != some ' ' then literalBlock indent cs
  else if !isBlock && isTextPlain s && isPlain cs then cs
  else if !isBlock && isLiteral cs && !hasPair isBreak (· == ' ') cs then singleQuoted indent cs
  else doubleQuoted cs

/-- A value to be written. -/
inductive Draft where
  | null
  | natural (n : Nat)
  | text (s : String)
  | mapping (entries : List (String × Draft))

namespace Draft

/-- Ends a line, unless it has been ended. -/
def endLine (s : List Char) : List Char :=
  if (s.getLast?.map isBreak).getD false then s else s ++ ['\n']

mutual
/-- The text after a key and its colon, for an entry that is indented by `indent`. -/
def renderValue (indent : Nat) : Draft → List Char
  | null => " null\n".toList
  | natural n => ' ' :: (Nat.toDigits 10 n ++ ['\n'])
  | text s => endLine (' ' :: renderText (indent + 2) s)
  | mapping entries => '\n' :: renderEntries (indent + 2) entries

def renderEntries (indent : Nat) : List (String × Draft) → List Char
  | [] => []
  | (key, d) :: rest =>
    List.replicate indent ' ' ++ key.toList ++ ':' :: renderValue indent d
      ++ renderEntries indent rest
end

end Draft

end RemoteAutomaton.Yaml
