import RemoteAutomaton.Document.Source
import RemoteAutomaton.Json.Token

/-!
# The structure of a JSON text

`Tree.read` arranges the tokens of any text into a tree. Where the text is no JSON, the tree ends
with the part that breaks it, and every list and object around that part says why it was cut. So a
node is whole exactly if it is not cut itself, and a reader that goes through the tree in order
finds the first fault of the text where it is.
-/

namespace RemoteAutomaton.Json

open Document (Source Sight Scalar)

/-- A JSON text, whole or broken. -/
inductive Tree where
  | null
  | truth (b : Bool)
  | number (n : Numeral)
  | text (q : Quoted)
  /-- `cut` is the fault that ended the list, if it is not closed. -/
  | list (items : List Tree) (cut : Option Fault)
  /-- `cut` is the fault that ended the object, if it is not closed. -/
  | object (entries : List (Quoted × Tree)) (cut : Option Fault)
  /-- A number literal that the end of the text cut short. -/
  | cutNumber
  /-- No value, for the given reason. -/
  | broken (f : Fault)

/-- A tree, and whether something follows it. -/
structure Reading where
  root : Tree
  trailing : Bool

namespace Tree

/-- A list or object around the place that is being read. Its parts are kept last first. -/
inductive Frame where
  | list (items : List Tree)
  /-- The value of `key` is being read. -/
  | entry (entries : List (Quoted × Tree)) (key : Quoted)

/-- What may come next. -/
inductive Place where
  | value
  /-- The first item of a list, or its end. -/
  | firstItem
  /-- The first key of an object, or its end. -/
  | firstKey
  /-- A key, after a comma. -/
  | key (entries : List (Quoted × Tree))
  /-- The colon after a key. -/
  | colon (entries : List (Quoted × Tree)) (key : Quoted)
  | after (t : Tree)

/-- A step of the reader: go on, or the text is decided. -/
inductive Step where
  | next (p : Place) (stack : List Frame)
  | done (r : Reading)

/-- Ends the text inside the given frames, after the tree that breaks it. -/
def cutOff (f : Fault) (t : Tree) : List Frame → Reading
  | [] => ⟨t, false⟩
  | .list items :: stack => cutOff f (.list (t :: items).reverse (some f)) stack
  | .entry entries key :: stack => cutOff f (.object ((key, t) :: entries).reverse (some f)) stack

/-- Ends the text at a place where something else had to come. -/
def cutAt (f : Fault) (stack : List Frame) : Place → Reading
  | .value => cutOff f (.broken f) stack
  | .firstItem => cutOff f (.list [] (some f)) stack
  | .firstKey => cutOff f (.object [] (some f)) stack
  | .key entries => cutOff f (.object entries.reverse (some f)) stack
  | .colon entries key => cutOff f (.object ((key, .broken f) :: entries).reverse (some f)) stack
  | .after t =>
    match stack with
    | [] => ⟨t, true⟩
    | .list items :: stack => cutOff f (.list (t :: items).reverse (some f)) stack
    | .entry entries key :: stack =>
      cutOff f (.object ((key, t) :: entries).reverse (some f)) stack

def beginValue (stack : List Frame) : Token → Step
  | .null => .next (.after .null) stack
  | .truth b => .next (.after (.truth b)) stack
  | .number n => .next (.after (.number n)) stack
  | .text q =>
    match q.cut with
    | none => .next (.after (.text q)) stack
    | some f => .done (cutOff f (.text q) stack)
  | .openList => .next .firstItem stack
  | .openObject => .next .firstKey stack
  | .cutNumber => .done (cutOff .malformed .cutNumber stack)
  | .broken f => .done (cutOff f (.broken f) stack)
  | .closeList | .closeObject | .comma | .colon => .done (cutAt .malformed stack .value)

/-- A token where a key has to come. -/
def beginKey (entries : List (Quoted × Tree)) (stack : List Frame) (place : Place) : Token → Step
  | .text q =>
    match q.cut with
    | none => .next (.colon entries q) stack
    | some f => .done (cutAt f stack (.colon entries q))
  | _ => .done (cutAt .malformed stack place)

/-- A token after a complete value. -/
def goOn (t : Tree) (stack : List Frame) (token : Token) : Step :=
  match stack, token with
  | .list items :: stack, .closeList => .next (.after (.list (t :: items).reverse none)) stack
  | .list items :: stack, .comma => .next .value (.list (t :: items) :: stack)
  | .entry entries key :: stack, .closeObject =>
    .next (.after (.object ((key, t) :: entries).reverse none)) stack
  | .entry entries key :: stack, .comma => .next (.key ((key, t) :: entries)) stack
  | stack, _ => .done (cutAt .malformed stack (.after t))

def step (stack : List Frame) : Place → Token → Step
  | .value, token => beginValue stack token
  | .firstItem, .closeList => .next (.after (.list [] none)) stack
  | .firstItem, token => beginValue (.list [] :: stack) token
  | .firstKey, .closeObject => .next (.after (.object [] none)) stack
  | .firstKey, token => beginKey [] stack .firstKey token
  | .key entries, token => beginKey entries stack (.key entries) token
  | .colon entries key, .colon => .next .value (.entry entries key :: stack)
  | .colon entries key, _ => .done (cutAt .malformed stack (.colon entries key))
  | .after t, token => goOn t stack token

def finish (stack : List Frame) : Place → Reading
  | .after t =>
    match stack with
    | [] => ⟨t, false⟩
    | _ :: _ => cutAt .unfinished stack (.after t)
  | place => cutAt .unfinished stack place

/-- Arranges the tokens that follow a place. -/
def arrange (place : Place) (stack : List Frame) : List Token → Reading
  | [] => finish stack place
  | token :: rest =>
    match step stack place token with
    | .next place stack => arrange place stack rest
    | .done r => r

def read (s : List Char) : Reading := arrange .value [] (tokens s)

/-- What ends a list or an object. -/
def ending (cut : Option Fault) : Except Fault Unit :=
  match cut with
  | none => .ok ()
  | some f => .error f

/-- Looks at a node, and evaluates its literals. -/
def see : Tree → Except Fault (Sight Tree Fault)
  | null => .ok (.scalar .null none)
  | truth b => .ok (.scalar (.truth b) none)
  | number n => n.value.map fun v => .scalar (.number v) none
  | text q => q.decode.map fun s => .scalar (.text s) (some s)
  | list items cut => .ok (.list items (ending cut))
  | object entries cut => .ok (.fields (entries.map fun (k, t) => (k.decode, t)) (ending cut))
  | cutNumber => .error .unfinished
  | broken f => .error f

/-- Passes over a node: it has to be whole, but its literals are not evaluated. -/
def skip : Tree → Except Fault Unit
  | null | truth _ | number _ => .ok ()
  | text q => ending q.cut
  | list _ cut => ending cut
  | object _ cut => ending cut
  | cutNumber => .error .malformed
  | broken f => .error f

instance : Source Tree Fault where
  see := see
  skip := skip
  unfit := .unfit
  surplus := .malformed
  positional := true
  nullIsEmpty := false

end Tree

/-- Reads a text with a reader of trees. Nothing may follow the value. -/
def readText {α : Type} (reader : Tree → Except Fault α) (s : String) : Except Fault α :=
  let r := Tree.read s.toList
  match reader r.root with
  | .error f => .error f
  | .ok a => if r.trailing then .error .malformed else .ok a

end RemoteAutomaton.Json
