import RemoteAutomaton.Yaml.Character

/-!
# Scalars over several lines

A plain or quoted scalar may go on over several lines. A single line end in it is kept as a space,
and of several the first is dropped. In a block scalar the lines are kept as they are; in a folded
one, lines that do not begin with white space are joined. All characters are kept last first while
a scalar is read.
-/

namespace RemoteAutomaton.Yaml

/-- A plain or quoted scalar, as far as it has been read. -/
structure Folding where
  text : List Char := []
  /-- White space after the text, on the same line. -/
  spaces : List Char := []
  /-- Line ends after the text: the first, unless it was escaped, and the others. -/
  ends : Option (Option Char × List Char) := none

namespace Folding

/-- Takes white space, which counts only on the line of the text. -/
def addSpace (f : Folding) (c : Char) : Folding :=
  match f.ends with
  | none => { f with spaces := c :: f.spaces }
  | some _ => f

def addEnd (f : Folding) (c : Char) : Folding :=
  match f.ends with
  | none => { f with spaces := [], ends := some (some c, []) }
  | some (first, more) => { f with ends := some (first, c :: more) }

/-- The text with what is kept of the white space and line ends after it. -/
def joined (f : Folding) : List Char :=
  match f.ends with
  | none => f.spaces ++ f.text
  | some (some '\n', []) => ' ' :: f.text
  | some (some '\n', more) => more ++ f.text
  | some (first, more) => more ++ first.toList ++ f.text

def add (f : Folding) (c : Char) : Folding := { text := c :: f.joined }

/-- Takes a line end that was escaped. -/
def addEscapedEnd (f : Folding) : Folding := { text := f.joined, ends := some (none, []) }

/-- Whether the next character follows white space or a line end. -/
def isApart (f : Folding) : Bool := f.ends.isSome || !f.spaces.isEmpty

end Folding

/-- Which line ends at the end of a block scalar are kept: none, one or all. -/
inductive Chomping where
  | strip
  | clip
  | keep

/-- The first line of a block scalar. -/
structure Header where
  folded : Bool
  chomping : Option Chomping := none
  /-- How much further the block is indented, where this is said. -/
  indentation : Option Nat := none

/-- A block scalar, as far as it has been read. -/
structure Block where
  folded : Bool
  chomping : Chomping
  /-- The column of its lines, once it is known. -/
  column : Option Nat
  text : List Char := []
  /-- The end of the last line that is not empty. -/
  lineEnd : Option Char := none
  /-- The ends of the empty lines after it. -/
  emptyEnds : List Char := []
  /-- Whether the last line began with white space. -/
  wasSpaced : Bool := false
  /-- The largest column that an empty line reaches. -/
  widest : Nat := 0

namespace Block

/-- Begins a line with its first character. -/
def beginLine (b : Block) (c : Char) : Block :=
  let spaced := isSpace c
  let text :=
    if b.folded && b.lineEnd == some '\n' && !b.wasSpaced && !spaced then
      b.emptyEnds ++ (if b.emptyEnds.isEmpty then [' '] else []) ++ b.text
    else b.emptyEnds ++ b.lineEnd.toList ++ b.text
  { b with text := c :: text, lineEnd := none, emptyEnds := [], wasSpaced := spaced }

def finish (b : Block) : List Char :=
  match b.chomping with
  | .strip => b.text
  | .clip => b.lineEnd.toList ++ b.text
  | .keep => b.emptyEnds ++ b.lineEnd.toList ++ b.text

end Block

end RemoteAutomaton.Yaml
