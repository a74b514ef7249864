import SyntaxForest.Data.Assoc
import SyntaxForest.Fault

/-!
Looking up items by their place and entries by their key.

A place below zero counts from the end of a list. What is not there is a fault.
-/

namespace SyntaxForest.Lookup

open SyntaxForest

/-- The place that a value names, which has to be an integer. -/
def place : Datum → Except Fault Int
  | .int n => .ok n
  | .bool b => .ok (if b then 1 else 0)
  | _ => .error (.badType "a place is an integer")

/-- The text that a value is, which has to be one. -/
def text : Datum → Except Fault String
  | .text s => .ok s
  | _ => .error (.noAttribute "only text has letters")

/-- The text that a value is; a value that counts as not given is none. -/
def text? (d : Datum) : Except Fault (Option String) :=
  if d.isGiven then some <$> text d else .ok d.text?

/-- The position that a place stands for in a list of `size` items. -/
def position (size : Nat) (place : Int) : Except Fault Nat :=
  let i := if place < 0 then place + Int.ofNat size else place
  if 0 ≤ i && i < Int.ofNat size then .ok i.toNat else .error .badPlace

/-- The item at a place. -/
def item {α : Type} (items : List α) (place : Int) : Except Fault α := do
  match items[← position items.length place]? with
  | some a => return a
  | none => throw .badPlace

/-- The value under a key. -/
def value {α : Type} (table : Assoc String α) (key : String) : Except Fault α :=
  match Assoc.get? table key with
  | some a => .ok a
  | none => .error (.badKey key)

end SyntaxForest.Lookup
