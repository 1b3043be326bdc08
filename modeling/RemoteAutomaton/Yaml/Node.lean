import RemoteAutomaton.Yaml.Plain
import RemoteAutomaton.Yaml.Token

/-!
# The structure of a YAML text

`Node.ofTokens` arranges the words of a text into the nodes of its one document. A node may be left
out wherever the words around it show its place; it is then the empty scalar. A node may be given a
name and be named again later.
-/

namespace RemoteAutomaton.Yaml

open Document (Source Sight Scalar)

inductive Node where
  | scalar (isPlain : Bool) (text : String)
  | sequence (items : List Node)
  | mapping (entries : List (Node × Node))
  /-- The name of a node that is around this one. -/
  | itself

namespace Node

/-- A node that was left out. -/
def empty : Node := scalar true ""

/-- A node that is being read, and the part of it that comes next. Parts are kept last first. -/
inductive Frame where
  /-- The content of the document, after a marker or without one. -/
  | document (marked : Bool)
  /-- An item after a dash; in a loose sequence the dashes are not indented. -/
  | entry (loose : Bool) (name : Option Nat) (items : List Node)
  /-- An item within brackets. -/
  | item (name : Option Nat) (items : List Node)
  /-- The key of a single pair among the items within brackets. -/
  | pairKey
  | pairValue (key : Node)
  | key (name : Option Nat) (entries : List (Node × Node))
  | value (name : Option Nat) (entries : List (Node × Node)) (key : Node)
  /-- A key within braces, or a bare node that has no value. -/
  | fieldKey (bare : Bool) (name : Option Nat) (entries : List (Node × Node))
  | fieldValue (name : Option Nat) (entries : List (Node × Node)) (key : Node)

/-- What comes next. -/
inductive Place where
  | before
  /-- A node, with its name if this has been given. -/
  | node (name : Option Nat)
  /-- What follows a node. -/
  | after (n : Node)
  /-- The first dash of a block. -/
  | dash (name : Option Nat)
  /-- The first key of a block. -/
  | firstKey (name : Option Nat)
  /-- An item or the closing bracket. -/
  | item (name : Option Nat) (items : List Node)
  /-- A key or the closing brace. -/
  | field (name : Option Nat) (entries : List (Node × Node))
  | ended (root : Node)

/-- A reader: what comes next, what is around it, and the named nodes, latest last. -/
structure Reader where
  place : Place := .before
  stack : List Frame := []
  named : Array (String × Node) := #[]

/-- Whether a node is left out if this word comes in its place. -/
def Frame.isEndedBy : Frame → Token → Bool
  | document true, .documentStart | document true, .documentEnd | document true, .textEnd => true
  | entry _ _ _, .entry | entry _ _ _, .blockEnd => true
  | entry true _ _, .key | entry true _ _, .value => true
  | key .., .key | key .., .value | key .., .blockEnd => true
  | value .., .key | value .., .value | value .., .blockEnd => true
  | fieldKey false _ _, .value | fieldKey false _ _, .comma
  | fieldKey false _ _, .closeMapping => true
  | fieldValue .., .comma | fieldValue .., .closeMapping => true
  | pairKey, .value | pairKey, .comma | pairKey, .closeSequence => true
  | pairValue _, .comma | pairValue _, .closeSequence => true
  | _, _ => false

/-- Whether a block may come in the place of a node. -/
def Frame.takesBlock : Frame → Bool
  | document _ | entry .. | key .. | value .. => true
  | _ => false

/-- Whether a sequence may come whose dashes are not indented. -/
def Frame.takesLoose : Frame → Bool
  | key .. | value .. => true
  | _ => false

namespace Reader

/-- Ends a collection and gives it its name. -/
def finish (r : Reader) (name : Option Nat) (n : Node) : Reader :=
  match name with
  | none => r
  | some i => { r with named := r.named.modify i fun (s, _) => (s, n) }

/-- Goes on with a collection that a closing word has completed. -/
def close (r : Reader) (stack : List Frame) (name : Option Nat) (n : Node) : Reader :=
  { r.finish name n with place := .after n, stack }

def go (r : Reader) (place : Place) (stack : List Frame) : Except Fault Reader :=
  .ok { r with place, stack }

/-- A word between the entries of a block. -/
def betweenKeys (r : Reader) (name : Option Nat) (entries : List (Node × Node))
    (stack : List Frame) : Token → Except Fault Reader
  | .key => r.go (.node none) (.key name entries :: stack)
  | .blockEnd => .ok (r.close stack name (mapping entries.reverse))
  | _ => .error .malformed

/-- A word between the entries within braces. -/
def betweenFields (r : Reader) (name : Option Nat) (entries : List (Node × Node))
    (stack : List Frame) : Token → Except Fault Reader
  | .comma => r.go (.field name entries) stack
  | .closeMapping => .ok (r.close stack name (mapping entries.reverse))
  | _ => .error .malformed

/-- A word after the node `n` that the innermost frame waits for. -/
def settle (t : Token) (r : Reader) (n : Node) : List Frame → Except Fault Reader
  | [] => .error .malformed
  | .document _ :: _ =>
    match t with
    | .documentEnd | .textEnd => r.go (.ended n) []
    | _ => .error .malformed
  | .entry loose name items :: stack =>
    let items := n :: items
    match t, loose with
    | .entry, _ => r.go (.node none) (.entry loose name items :: stack)
    | .blockEnd, false => .ok (r.close stack name (sequence items.reverse))
    | _, false => .error .malformed
    | _, true => settle t (r.finish name (sequence items.reverse)) (sequence items.reverse) stack
  | .item name items :: stack =>
    match t with
    | .comma => r.go (.item name (n :: items)) stack
    | .closeSequence => .ok (r.close stack name (sequence (n :: items).reverse))
    | _ => .error .malformed
  | .pairKey :: stack =>
    match t with
    | .value => r.go (.node none) (.pairValue n :: stack)
    | _ => settle t r (mapping [(n, empty)]) stack
  | .pairValue k :: stack => settle t r (mapping [(k, n)]) stack
  | .key name entries :: stack =>
    match t with
    | .value => r.go (.node none) (.value name entries n :: stack)
    | _ => r.betweenKeys name ((n, empty) :: entries) stack t
  | .value name entries k :: stack => r.betweenKeys name ((k, n) :: entries) stack t
  | .fieldKey bare name entries :: stack =>
    match t, bare with
    | .value, false => r.go (.node none) (.fieldValue name entries n :: stack)
    | _, _ => r.betweenFields name ((n, empty) :: entries) stack t
  | .fieldValue name entries k :: stack => r.betweenFields name ((k, n) :: entries) stack t

/-- A word where the innermost frame waits for a node. -/
def node (r : Reader) (name : Option Nat) (frame : Frame) (t : Token) : Except Fault Reader :=
  match t with
  | .scalar isPlain text =>
    let n := scalar isPlain text
    .ok (r.close r.stack name n)
  | .openSequence => r.go (.item name []) r.stack
  | .openMapping => r.go (.field name []) r.stack
  | .blockSequence => if frame.takesBlock then r.go (.dash name) r.stack else .error .malformed
  | .blockMapping => if frame.takesBlock then r.go (.firstKey name) r.stack else .error .malformed
  | .anchor s =>
    if name.isSome then settle t (r.finish name empty) empty r.stack
    else .ok { r with place := .node (some r.named.size), named := r.named.push (s, itself) }
  | .alias s =>
    if name.isSome then settle t (r.finish name empty) empty r.stack
    else
      match r.named.findRev? (·.1 == s) with
      | some (_, n) => r.go (.after n) r.stack
      | none => .error .malformed
  | _ =>
    if t = .entry ∧ frame.takesLoose then r.go (.node none) (.entry true name [] :: r.stack)
    else if frame.isEndedBy t || name.isSome then settle t (r.finish name empty) empty r.stack
    else .error .malformed

/-- A word where a node has to come in the innermost of the given frames. -/
def begin (r : Reader) (frame : Frame) (stack : List Frame) (t : Token) : Except Fault Reader :=
  { r with stack := frame :: stack }.node none frame t

/-- Takes one word. -/
def step (r : Reader) (t : Token) : Except Fault Reader :=
  match r.place, r.stack with
  | .before, stack =>
    match t with
    | .documentStart => r.go (.node none) (.document true :: stack)
    | .textEnd => r.go (.ended empty) stack
    | _ => r.begin (.document false) stack t
  | .node name, frame :: _ => r.node name frame t
  | .node _, [] => .error .malformed
  | .after n, stack => settle t r n stack
  | .dash name, stack =>
    match t with
    | .entry => r.go (.node none) (.entry false name [] :: stack)
    | .blockEnd => .ok (r.close stack name (sequence []))
    | _ => .error .malformed
  | .firstKey name, stack => r.betweenKeys name [] stack t
  | .item name items, stack =>
    match t with
    | .closeSequence => .ok (r.close stack name (sequence items.reverse))
    | .key => r.go (.node none) (.pairKey :: .item name items :: stack)
    | _ => r.begin (.item name items) stack t
  | .field name entries, stack =>
    match t with
    | .closeMapping => .ok (r.close stack name (mapping entries.reverse))
    | .key => r.go (.node none) (.fieldKey false name entries :: stack)
    | _ => r.begin (.fieldKey true name entries) stack t
  | .ended _, _ =>
    match t with
    | .documentEnd | .textEnd => .ok r
    | _ => .error .malformed

end Reader

/-- The node of the document with these words. -/
def ofTokens (ts : List Token) : Except Fault Node := do
  match (← ts.foldlM Reader.step ({} : Reader)).place with
  | .ended root => return root
  | _ => throw .malformed

def read (s : String) : Except Fault Node := do ofTokens (← tokens s)

/-- Looks at a node. A key has to be a scalar, of any kind. -/
def see : Node → Except Fault (Sight Node Fault)
  | scalar isPlain text =>
    .ok (.scalar (if isPlain then Scalar.ofPlain text else .text text) (some text))
  | sequence items => .ok (.list items (.ok ()))
  | mapping entries =>
    .ok (.fields
      (entries.map fun (k, n) =>
        match k with
        | scalar _ text => (.ok text, n)
        | _ => (.error .unfit, n))
      (.ok ()))
  | itself => .error .unfit

instance : Source Node Fault where
  see := see
  skip _ := .ok ()
  unfit := .unfit
  surplus := .unfit
  positional := false
  nullIsEmpty := true

end Node

/-- Reads a text with a reader of nodes. -/
def readText {α : Type} (reader : Node → Except Fault α) (s : String) : Except Fault α := do
  reader (← Node.read s)

end RemoteAutomaton.Yaml
