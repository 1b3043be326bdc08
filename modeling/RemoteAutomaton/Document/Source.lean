import RemoteAutomaton.Decimal.Number

/-!
# Documents as their readers see them

A reader of records does not care which notation a document is written in. `Source` is what it asks
of a notation: to look at one node at a time, and to pass over a node that it does not want. A
notation whose text may be broken reports a fault at the node that holds it, so that a reader that
goes through a document in order meets the first fault first.
-/

namespace RemoteAutomaton.Document

open Decimal (Number)

/-- A value without parts. -/
inductive Scalar where
  | null
  | truth (b : Bool)
  | number (n : Number)
  | text (s : String)

/-- What one node of a document shows. -/
inductive Sight (ν ε : Type) where
  /-- A value without parts. `spelling` is the text it may stand for where a text is wanted. -/
  | scalar (value : Scalar) (spelling : Option String)
  /-- Items, and what is found at their end. -/
  | list (items : List ν) (ending : Except ε Unit)
  /-- Named values, and what is found at their end. -/
  | fields (entries : List (Except ε String × ν)) (ending : Except ε Unit)

/-- A notation with nodes `ν` and faults `ε`. -/
class Source (ν : Type) (ε : outParam Type) where
  /-- Looks at a node. -/
  see : ν → Except ε (Sight ν ε)
  /-- Passes over a node. -/
  skip : ν → Except ε Unit
  /-- The fault of a document that does not have the wanted shape. -/
  unfit : ε
  /-- The fault of a list that goes on after the last field of a record. -/
  surplus : ε
  /-- Whether a record may be written as the list of its fields. -/
  positional : Bool
  /-- Whether a missing value stands for a list or a record without parts. -/
  nullIsEmpty : Bool

end RemoteAutomaton.Document
