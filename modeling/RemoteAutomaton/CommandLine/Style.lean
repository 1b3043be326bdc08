/-!
# Styles of a terminal

A styled text stands between the escape sequence of its style and the one that ends all styles. An
end that the text itself contains is followed by the style again.
-/

namespace RemoteAutomaton.CommandLine

/-- The codes of styles. -/
inductive Style where
  | bold
  | dimmed
  | red
  | green
  | yellow
  | blue
  | magenta
  | cyan
  deriving DecidableEq, Repr

/-- The number of a style. -/
def Style.code : Style → String
  | bold => "1"
  | dimmed => "2"
  | red => "31"
  | green => "32"
  | yellow => "33"
  | blue => "34"
  | magenta => "35"
  | cyan => "36"

/-- The sequence that ends all styles. -/
def styleEnd : List Char := ['\x1b', '[', '0', 'm']

/-- Puts `inserted` after every occurrence of `styleEnd`. -/
def insertAfterEnds (inserted : List Char) : List Char → List Char
  | '\x1b' :: '[' :: '0' :: 'm' :: r => styleEnd ++ inserted ++ insertAfterEnds inserted r
  | c :: r => c :: insertAfterEnds inserted r
  | [] => []

/-- A text in some styles, or as it is if no styles are wanted. -/
def styled (isStyled : Bool) (styles : List Style) (s : String) : String :=
  if isStyled then
    let opening := '\x1b' :: '[' :: ((";".intercalate (styles.map Style.code)).toList ++ ['m'])
    String.ofList (opening ++ insertAfterEnds opening s.toList ++ styleEnd)
  else s

/-- Whether styles are wanted: one variable of the environment asks for them, another one forbids
them, and otherwise they are for terminals, unless a third one turns them off. -/
def wantsStyles (env : String → Option String) (isTerminal : Bool) : Bool :=
  if (env "CLICOLOR_FORCE").any (· != "0") then true
  else if (env "NO_COLOR").isSome then false
  else isTerminal && (env "CLICOLOR").all (· != "0")

end RemoteAutomaton.CommandLine
