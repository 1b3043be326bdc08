/-!
# Characters and lines of a YAML text

Lines may end in several ways. `lines` brings the four ordinary ones to a line feed, which is how a
text keeps them; the two Unicode separators are line ends of their own and stay as they are.
-/

namespace RemoteAutomaton.Yaml

/-- What is wrong with a YAML text. -/
inductive Fault where
  /-- The text is not one YAML document. -/
  | malformed
  /-- The document has another shape. -/
  | unfit
  deriving DecidableEq, Repr

/-- The characters that a text may contain. -/
def isPermitted (c : Char) : Bool :=
  let n := c.toNat
  n == 0x9 || n == 0xA || n == 0xD || (0x20 ≤ n && n ≤ 0x7E) || n == 0x85
    || (0xA0 ≤ n && n ≤ 0xD7FF)
    || (0xE000 ≤ n && n ≤ 0xFFFD) || 0x10000 ≤ n

/-- The line ends that are left after `lines`. -/
def isBreak (c : Char) : Bool := c == '\n' || c == '\u2028' || c == '\u2029'

def isSpace (c : Char) : Bool := c == ' ' || c == '\t'

/-- Whether nothing but white space or an end follows. -/
def endsWord : List Char → Bool
  | [] => true
  | c :: _ => isSpace c || isBreak c

/-- Whether `---` or `...` begins here, which at the start of a line begins or ends a document. -/
def isMarker : List Char → Bool
  | '-' :: '-' :: '-' :: r => endsWord r
  | '.' :: '.' :: '.' :: r => endsWord r
  | _ => false

/-- The text with one kind of line end. -/
def lines : List Char → List Char
  | [] => []
  | '\r' :: '\n' :: r => '\n' :: lines r
  | c :: r => (if c == '\r' || c == '\u0085' then '\n' else c) :: lines r

/-- The characters of a text, if they are all permitted. -/
def characters (s : String) : Except Fault (List Char) :=
  if s.toList.all isPermitted then .ok (lines s.toList) else .error .malformed

end RemoteAutomaton.Yaml
