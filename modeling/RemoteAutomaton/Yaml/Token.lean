import RemoteAutomaton.Text.Integer
import RemoteAutomaton.Yaml.Folding

/-!
# The words of a YAML text

`tokens` splits a text into its words: brackets and other signs, scalars, names of anchors, and the
begin and end of every block that indentation makes. It is a machine that takes one character at a
time and sees the characters after it. Whether a word is a key shows only when a colon follows, on
the same line and not too far away; the words before it are then put in where the key began.
-/

namespace RemoteAutomaton.Yaml

inductive Token where
  | documentStart
  | documentEnd
  | textEnd
  | blockSequence
  | blockMapping
  | blockEnd
  | openSequence
  | closeSequence
  | openMapping
  | closeMapping
  | comma
  | entry
  | key
  | value
  | anchor (name : String)
  | alias (name : String)
  | scalar (isPlain : Bool) (text : String)
  deriving DecidableEq, Repr

/-- A place in the text where a key began if a colon follows. -/
structure Candidate where
  /-- The number of words before it. -/
  position : Nat
  line : Nat
  column : Nat
  /-- Whether nothing but a key can stand there. -/
  required : Bool

/-- What has been read of the word at hand. -/
inductive Mode where
  | between
  | comment
  /-- In `---` or `...`: the characters still to come. -/
  | marker (left : Nat)
  /-- In a name after `&` or `*`, last letter first. -/
  | name (isAlias : Bool) (letters : List Char)
  | plain (f : Folding)
  | single (f : Folding)
  /-- In a doubled quote. -/
  | doubled (f : Folding)
  | double (f : Folding)
  | escape (f : Folding)
  /-- In an escape by number: the digits still to come, and the value of those before. -/
  | hex (f : Folding) (left value : Nat)
  | header (h : Header)
  /-- In the first line of a block scalar, after its signs. -/
  | afterHeader (h : Header)
  | headerComment (h : Header)
  /-- At the start of a line of a block scalar. -/
  | indentation (b : Block)
  /-- Within a line of a block scalar. -/
  | line (b : Block)

/-- The machine: the words read so far, the place, and what indentation and brackets are open. -/
structure Scanner where
  tokens : Array Token := #[]
  line : Nat := 0
  column : Nat := 0
  /-- The columns of the open blocks, innermost first. -/
  indents : List Nat := []
  /-- The candidates around the open brackets, innermost first. -/
  around : List (Option Candidate) := []
  candidate : Option Candidate := none
  /-- Whether a key may begin here. -/
  keyAllowed : Bool := true
  mode : Mode := .between

namespace Scanner

/-- Whether a bracket is open. -/
def inFlow (s : Scanner) : Bool := !s.around.isEmpty

/-- The least column of what is inside the innermost block. -/
def least (s : Scanner) : Nat :=
  match s.indents with
  | [] => 0
  | i :: _ => i + 1

def push (s : Scanner) (t : Token) : Scanner := { s with tokens := s.tokens.push t }

def advance (s : Scanner) (c : Char) : Scanner :=
  if isBreak c then { s with line := s.line + 1, column := 0 }
  else { s with column := s.column + 1 }

/-- Whether a candidate can still become a key: a key is within one line and 1024 characters. -/
def isFresh (s : Scanner) (k : Candidate) : Bool :=
  s.line ≤ k.line && s.column ≤ k.column + 1024

/-- The candidate, unless it can no longer become a key. -/
def keep (s : Scanner) : Option Candidate → Except Fault (Option Candidate)
  | none => .ok none
  | some k =>
    if s.isFresh k then .ok (some k) else if k.required then .error .malformed else .ok none

def refresh (s : Scanner) : Except Fault Scanner := do
  let candidate ← s.keep s.candidate
  let around ← s.around.mapM s.keep
  return { s with candidate, around }

def dropCandidate (s : Scanner) : Except Fault Scanner :=
  match s.candidate with
  | some ⟨_, _, _, true⟩ => .error .malformed
  | _ => .ok { s with candidate := none }

/-- Takes this place as a candidate, if a key may begin here. -/
def offerKey (s : Scanner) : Except Fault Scanner := do
  if s.keyAllowed then
    let s ← s.dropCandidate
    let required := !s.inFlow && s.indents.head? == some s.column
    return { s with candidate := some ⟨s.tokens.size, s.line, s.column, required⟩ }
  else return s

/-- Ends the blocks whose columns satisfy a condition, innermost first. -/
def endBlocks (p : Nat → Bool) : List Nat → Array Token → List Nat × Array Token
  | [], tokens => ([], tokens)
  | i :: rest, tokens =>
    if p i then endBlocks p rest (tokens.push .blockEnd) else (i :: rest, tokens)

/-- Ends the blocks that are indented further than the given column. Within brackets indentation
means nothing. -/
def unindent (s : Scanner) (column : Nat) : Scanner :=
  if s.inFlow then s
  else
    let (indents, tokens) := endBlocks (column < ·) s.indents s.tokens
    { s with indents, tokens }

def unindentAll (s : Scanner) : Scanner :=
  if s.inFlow then s
  else
    let (indents, tokens) := endBlocks (fun _ => true) s.indents s.tokens
    { s with indents, tokens }

/-- Begins a block at a column if it is inside the innermost one. `position` is the number of words
before the block. -/
def indent (s : Scanner) (column position : Nat) (t : Token) : Scanner :=
  if !s.inFlow && s.least ≤ column then
    { s with indents := column :: s.indents, tokens := s.tokens.insertIdxIfInBounds position t }
  else s

def documentMarker (s : Scanner) (c : Char) : Except Fault Scanner := do
  let s ← s.unindentAll.dropCandidate
  let t : Token := if c == '-' then .documentStart else .documentEnd
  return { s.push t with keyAllowed := false, mode := .marker 2 }

def openBracket (s : Scanner) (t : Token) : Except Fault Scanner := do
  let s ← s.offerKey
  return { s.push t with around := s.candidate :: s.around, candidate := none, keyAllowed := true }

def closeBracket (s : Scanner) (t : Token) : Except Fault Scanner := do
  let s ← s.dropCandidate
  let s := s.push t
  return { s with around := s.around.tail, candidate := s.around.head?.join, keyAllowed := false }

/-- The dash of an entry or the question mark of a key, which in a block may begin the block. -/
def indicator (s : Scanner) (block t : Token) (keyAllowed : Bool) : Except Fault Scanner := do
  if !s.inFlow && !s.keyAllowed then throw .malformed
  let s ← (s.indent s.column s.tokens.size block).dropCandidate
  return { s.push t with keyAllowed }

/-- The colon of a value. -/
def colon (s : Scanner) : Except Fault Scanner := do
  match s.candidate with
  | some k =>
    let s := { s with tokens := s.tokens.insertIdxIfInBounds k.position .key, candidate := none }
    return { (s.indent k.column k.position .blockMapping).push .value with keyAllowed := false }
  | none =>
    if !s.inFlow && !s.keyAllowed then throw .malformed
    let s := s.indent s.column s.tokens.size .blockMapping
    return { s.push .value with keyAllowed := !s.inFlow }

/-- The signs that do not begin a plain scalar by themselves. -/
def isSign (c : Char) : Bool := "-?:,[]\x7b\x7d#&*!|>'\"%@\x60".toList.contains c

/-- Whether a plain scalar begins here. -/
def beginsPlain (s : Scanner) (c : Char) (r : List Char) : Bool :=
  !(isSign c || isSpace c) || (c == '-' && !endsWord r)
    || (!s.inFlow && (c == '?' || c == ':') && !endsWord r)

/-- Whether a plain scalar ends before this character. -/
def endsPlain (s : Scanner) (f : Folding) (c : Char) (r : List Char) : Bool :=
  (f.isApart && (c == '#' || (!s.inFlow && s.column < s.least)))
    || (s.column == 0 && isMarker (c :: r))
    || (c == ':' && endsWord r) || (s.inFlow && ",[]\x7b\x7d".toList.contains c)

/-- Whether brackets refuse what follows a colon in a plain scalar. -/
def refusesAfterColon (r : List Char) : Bool :=
  match r with
  | [] => false
  | c :: _ => ",?[]\x7b\x7d".toList.contains c

/-- Adds a scalar whose characters are kept last first. -/
def pushScalar (s : Scanner) (isPlain : Bool) (text : List Char) : Scanner :=
  { s.push (.scalar isPlain (String.ofList text.reverse)) with mode := .between }

/-- Ends a plain scalar. After a line end a key may begin. -/
def endPlain (s : Scanner) (f : Folding) : Scanner :=
  { s.pushScalar true f.text with keyAllowed := s.keyAllowed || f.ends.isSome }

/-- A character in a plain scalar that does not end it. -/
def plain (s : Scanner) (f : Folding) (c : Char) (r : List Char) : Except Fault Scanner :=
  if isSpace c then
    if f.ends.isSome && s.column < s.least && c == '\t' then .error .malformed
    else .ok { s with mode := .plain (f.addSpace c) }
  else if isBreak c then .ok { s with mode := .plain (f.addEnd c) }
  else if s.inFlow && c == ':' && refusesAfterColon r then .error .malformed
  else .ok { s with mode := .plain (f.add c) }

def begin (s : Scanner) (c : Char) (r : List Char) : Except Fault Scanner := do
  let s := (← s.refresh).unindent s.column
  if s.column == 0 && isMarker (c :: r) then s.documentMarker c
  else if c == '[' then s.openBracket .openSequence
  else if c == '\x7b' then s.openBracket .openMapping
  else if c == ']' then s.closeBracket .closeSequence
  else if c == '\x7d' then s.closeBracket .closeMapping
  else if c == ',' then
    let s ← s.dropCandidate
    return { s.push .comma with keyAllowed := true }
  else if c == '-' && endsWord r then s.indicator .blockSequence .entry true
  else if c == '?' && (s.inFlow || endsWord r) then s.indicator .blockMapping .key (!s.inFlow)
  else if c == ':' && (s.inFlow || endsWord r) then s.colon
  else if c == '*' || c == '&' then
    let s ← s.offerKey
    return { s with keyAllowed := false, mode := .name (c == '*') [] }
  else if (c == '|' || c == '>') && !s.inFlow then
    let s ← s.dropCandidate
    return { s with keyAllowed := true, mode := .header { folded := c == '>' } }
  else if c == '\'' || c == '"' then
    let s ← s.offerKey
    return { s with keyAllowed := false, mode := if c == '"' then .double {} else .single {} }
  else if s.beginsPlain c r then
    let s ← s.offerKey
    Scanner.plain { s with keyAllowed := false } {} c r
  else throw .malformed

/-- Whether a character between words means nothing. Tabs are white space except where a block may
begin. A byte-order mark at the start of a line is passed over and takes up a column. -/
def isIgnored (s : Scanner) (c : Char) : Bool :=
  c == ' ' || (c == '\t' && (s.inFlow || !s.keyAllowed)) || (c == '\uFEFF' && s.column == 0)

def between (s : Scanner) (c : Char) (r : List Char) : Except Fault Scanner :=
  if s.isIgnored c then .ok s
  else if c == '#' then .ok { s with mode := .comment }
  else if isBreak c then .ok { s with keyAllowed := s.keyAllowed || !s.inFlow }
  else s.begin c r

def isNameChar (c : Char) : Bool := c.isAlphanum || c == '-' || c == '_'

/-- Ends a name before `rest`. -/
def endName (s : Scanner) (isAlias : Bool) (letters rest : List Char) : Except Fault Scanner :=
  let name := String.ofList letters.reverse
  let ends := endsWord rest || "?:,]\x7d%@\x60".toList.contains (rest.headD ' ')
  if letters.isEmpty || !ends then .error .malformed
  else .ok { s.push (if isAlias then .alias name else .anchor name) with mode := .between }

/-- The character that a backslash and this character stand for. -/
def escaped? : Char → Option Char
  | '0' => some '\x00'
  | 'a' => some '\x07'
  | 'b' => some '\x08'
  | 't' | '\t' => some '\t'
  | 'n' => some '\n'
  | 'v' => some '\x0b'
  | 'f' => some '\x0c'
  | 'r' => some '\r'
  | 'e' => some '\x1b'
  | ' ' => some ' '
  | '"' => some '"'
  | '/' => some '/'
  | '\\' => some '\\'
  | 'N' => some '\u0085'
  | '_' => some '\u00a0'
  | 'L' => some '\u2028'
  | 'P' => some '\u2029'
  | _ => none

/-- The number of digits after a backslash and this character. -/
def escapeLength? : Char → Option Nat
  | 'x' => some 2
  | 'u' => some 4
  | 'U' => some 8
  | _ => none

def escape (s : Scanner) (f : Folding) (c : Char) : Except Fault Scanner :=
  if isBreak c then .ok { s with mode := .double f.addEscapedEnd }
  else
    match escaped? c, escapeLength? c with
    | some d, _ => .ok { s with mode := .double (f.add d) }
    | none, some n => .ok { s with mode := .hex f n 0 }
    | none, none => .error .malformed

def hex (s : Scanner) (f : Folding) (left value : Nat) (c : Char) : Except Fault Scanner :=
  match Text.hexDigit? c with
  | none => .error .malformed
  | some d =>
    let value := value * 16 + d
    if 1 < left then .ok { s with mode := .hex f (left - 1) value }
    else if value.isValidChar then .ok { s with mode := .double (f.add (Char.ofNat value)) }
    else .error .malformed

/-- A character in a quoted scalar that is neither white space nor a line end. -/
def quoted (s : Scanner) (isDouble : Bool) (f : Folding) (c : Char) (r : List Char) :
    Except Fault Scanner :=
  if s.column == 0 && isMarker (c :: r) then .error .malformed
  else if isDouble then
    if c == '"' then .ok (s.pushScalar false f.joined)
    else if c == '\\' then .ok { s with mode := .escape f }
    else .ok { s with mode := .double (f.add c) }
  else if c == '\'' then
    if r.head? == some '\'' then .ok { s with mode := .doubled (f.add c) }
    else .ok (s.pushScalar false f.joined)
  else .ok { s with mode := .single (f.add c) }

/-- The block scalar that a first line announces. -/
def block (s : Scanner) (h : Header) : Block :=
  { folded := h.folded
    chomping := h.chomping.getD .clip
    column := h.indentation.map fun n => s.indents.headD 0 + n }

def afterHeader (s : Scanner) (h : Header) (c : Char) : Except Fault Scanner :=
  if isSpace c then .ok { s with mode := .afterHeader h }
  else if c == '#' then .ok { s with mode := .headerComment h }
  else if isBreak c then .ok { s with mode := .indentation (s.block h) }
  else .error .malformed

def header (s : Scanner) (h : Header) (c : Char) : Except Fault Scanner :=
  if (c == '+' || c == '-') && h.chomping.isNone then
    .ok { s with mode := .header { h with chomping := some (if c == '+' then .keep else .strip) } }
  else if c.isDigit && h.indentation.isNone then
    if c == '0' then .error .malformed
    else .ok { s with mode := .header { h with indentation := some (c.toNat - 48) } }
  else s.afterHeader h c

def indentation (s : Scanner) (b : Block) (c : Char) (r : List Char) : Except Fault Scanner :=
  let isBefore :=
    match b.column with
    | none => true
    | some n => s.column < n
  if isBefore && c == ' ' then .ok s
  else if isBefore && c == '\t' then .error .malformed
  else
    let widest := max b.widest s.column
    if isBreak c then
      .ok { s with mode := .indentation { b with emptyEnds := c :: b.emptyEnds, widest } }
    else
      let column := b.column.getD (max widest (max s.least 1))
      if s.column == column then
        .ok { s with mode := .line ({ b with column := some column }.beginLine c) }
      else (s.pushScalar false b.finish).between c r

/-- Takes one character, with those that follow it. -/
def step (s : Scanner) (c : Char) (r : List Char) : Except Fault Scanner :=
  match s.mode with
  | .between => s.between c r
  | .comment => if isBreak c then { s with mode := .between }.between c r else .ok s
  | .marker left => .ok { s with mode := if left ≤ 1 then .between else .marker (left - 1) }
  | .name isAlias letters =>
    if isNameChar c then .ok { s with mode := .name isAlias (c :: letters) }
    else do (← s.endName isAlias letters (c :: r)).between c r
  | .plain f =>
    if !isSpace c && !isBreak c && s.endsPlain f c r then (s.endPlain f).between c r
    else s.plain f c r
  | .single f =>
    if isSpace c then .ok { s with mode := .single (f.addSpace c) }
    else if isBreak c then .ok { s with mode := .single (f.addEnd c) }
    else s.quoted false f c r
  | .doubled f => .ok { s with mode := .single f }
  | .double f =>
    if isSpace c then .ok { s with mode := .double (f.addSpace c) }
    else if isBreak c then .ok { s with mode := .double (f.addEnd c) }
    else s.quoted true f c r
  | .escape f => s.escape f c
  | .hex f left value => s.hex f left value c
  | .header h => s.header h c
  | .afterHeader h => s.afterHeader h c
  | .headerComment h =>
    if isBreak c then .ok { s with mode := .indentation (s.block h) } else .ok s
  | .indentation b => s.indentation b c r
  | .line b =>
    if isBreak c then .ok { s with mode := .indentation { b with lineEnd := some c } }
    else .ok { s with mode := .line { b with text := c :: b.text } }

def finish (s : Scanner) : Except Fault (List Token) := do
  let s ←
    match s.mode with
    | .between | .comment | .marker _ => pure s
    | .name isAlias letters => s.endName isAlias letters []
    | .plain f => pure (s.endPlain f)
    | .header h | .afterHeader h | .headerComment h => pure (s.pushScalar false (s.block h).finish)
    | .indentation b | .line b => pure (s.pushScalar false b.finish)
    | .single _ | .doubled _ | .double _ | .escape _ | .hex .. => throw .malformed
  let s ← s.refresh
  let s ← s.unindentAll.dropCandidate
  return (s.push .textEnd).tokens.toList

/-- The words of the rest of a text. -/
def read (s : Scanner) : List Char → Except Fault (List Token)
  | [] => s.finish
  | c :: r => do ((← s.step c r).advance c).read r

end Scanner

def tokens (s : String) : Except Fault (List Token) := do
  Scanner.read {} (← characters s)

end RemoteAutomaton.Yaml
