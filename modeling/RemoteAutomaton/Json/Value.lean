import RemoteAutomaton.Json.Tree

/-!
# JSON values

A value is what a whole JSON text stands for: its literals are evaluated, and of entries with one
key an object keeps the last. `Value.ofTree` nests at most `maxDepth` lists and objects.
`Value.render` writes a value without blanks.
-/

namespace RemoteAutomaton.Json

open Decimal (Number)
open Document (Source Sight)

inductive Value where
  | null
  | truth (b : Bool)
  | number (n : Number)
  | text (s : String)
  | list (items : List Value)
  | object (entries : List (String × Value))

namespace Value

/-- How deeply lists and objects may be nested. -/
def maxDepth : Nat := 127

/-- Gives a key a value. A key that is there keeps its place. -/
def putEntry (key : String) (v : Value) : List (String × Value) → List (String × Value)
  | [] => [(key, v)]
  | (k, w) :: rest => if k = key then (key, v) :: rest else (k, w) :: putEntry key v rest

/-- Evaluates items in order. -/
def ofItems (item : Tree → Except Fault Value) : List Tree → Except Fault (List Value)
  | [] => .ok []
  | t :: rest => do
    let v ← item t
    return v :: (← ofItems item rest)

/-- Evaluates entries in order into an object. -/
def ofEntries (item : Tree → Except Fault Value) (done : List (String × Value)) :
    List (Quoted × Tree) → Except Fault (List (String × Value))
  | [] => .ok done
  | (q, t) :: rest => do
    let key ← q.decode
    let v ← item t
    ofEntries item (putEntry key v done) rest

/-- Evaluates a tree whose lists and objects are nested at most `depth` deep. -/
def ofTree : Nat → Tree → Except Fault Value
  | _, .null => .ok .null
  | _, .truth b => .ok (.truth b)
  | _, .number n => n.value.map .number
  | _, .text q => q.decode.map .text
  | 0, .list _ _ => .error .malformed
  | depth + 1, .list items cut => do
    let all ← ofItems (ofTree depth) items
    Tree.ending cut
    return .list all
  | 0, .object _ _ => .error .malformed
  | depth + 1, .object entries cut => do
    let all ← ofEntries (ofTree depth) [] entries
    Tree.ending cut
    return .object all
  | _, .cutNumber => .error .unfinished
  | _, .broken f => .error f

def ofText (s : String) : Except Fault Value := readText (ofTree maxDepth) s

def see : Value → Except Fault (Sight Value Fault)
  | null => .ok (.scalar .null none)
  | truth b => .ok (.scalar (.truth b) none)
  | number n => .ok (.scalar (.number n) none)
  | text s => .ok (.scalar (.text s) (some s))
  | list items => .ok (.list items (.ok ()))
  | object entries => .ok (.fields (entries.map fun (k, v) => (.ok k, v)) (.ok ()))

instance : Source Value Fault where
  see := see
  skip _ := .ok ()
  unfit := .unfit
  surplus := .unfit
  positional := true
  nullIsEmpty := false

/-- How a character stands in a string literal: the quote, the backslash and the controls are
escaped. -/
def escapeChar (c : Char) : List Char :=
  if c = '"' then ['\\', '"']
  else if c = '\\' then ['\\', '\\']
  else if c = '\x08' then ['\\', 'b']
  else if c = '\x0c' then ['\\', 'f']
  else if c = '\n' then ['\\', 'n']
  else if c = '\r' then ['\\', 'r']
  else if c = '\t' then ['\\', 't']
  else if c < ' ' then
    ['\\', 'u', '0', '0', Nat.digitChar (c.toNat / 16), Nat.digitChar (c.toNat % 16)]
  else [c]

def renderText (s : String) : List Char := '"' :: s.toList.flatMap escapeChar ++ ['"']

def joined : List (List Char) → List Char
  | [] => []
  | [x] => x
  | x :: y :: rest => x ++ ',' :: joined (y :: rest)

mutual
/-- The JSON text of a value, without blanks. -/
def render : Value → List Char
  | null => ['n', 'u', 'l', 'l']
  | truth true => ['t', 'r', 'u', 'e']
  | truth false => ['f', 'a', 'l', 's', 'e']
  | number n => n.text.toList
  | text s => renderText s
  | list items => '[' :: joined (renderItems items) ++ [']']
  | object entries => '\x7b' :: joined (renderEntries entries) ++ ['\x7d']

def renderItems : List Value → List (List Char)
  | [] => []
  | v :: rest => render v :: renderItems rest

def renderEntries : List (String × Value) → List (List Char)
  | [] => []
  | (k, v) :: rest => (renderText k ++ ':' :: render v) :: renderEntries rest
end

def toText (v : Value) : String := String.ofList v.render

def ofInt (n : Int) : Value := .number (.integer n)

def get? (v : Value) (key : String) : Option Value :=
  match v with
  | object entries => entries.lookup key
  | _ => none

end Value

end RemoteAutomaton.Json
