/-!
Association lists that keep the order in which their keys were first set.

Setting a key that is present replaces its value where it stands; a new key goes to the end. These
lists hold the records, counters and tables whose order an answer can show.
-/

namespace SyntaxForest

/-- Keys with values, in the order in which the keys were first set. -/
abbrev Assoc (κ : Type) (α : Type) := List (κ × α)

namespace Assoc

variable {κ α : Type} [DecidableEq κ]

/-- The value of a key. -/
def get? (table : Assoc κ α) (key : κ) : Option α :=
  (table.find? fun entry => entry.1 = key).map (·.2)

def contains (table : Assoc κ α) (key : κ) : Bool := table.any fun entry => entry.1 = key

/-- Sets a key: in place if it is present, at the end otherwise. -/
def set : Assoc κ α → κ → α → Assoc κ α
  | [], key, value => [(key, value)]
  | entry :: rest, key, value =>
    if entry.1 = key then (key, value) :: rest else entry :: set rest key value

/-- Removes a key. -/
def erase (table : Assoc κ α) (key : κ) : Assoc κ α := table.filter fun entry => entry.1 ≠ key

/-- Replaces the value of a key by a function of it, or of `none` if the key is new. -/
def alter (table : Assoc κ α) (key : κ) (f : Option α → α) : Assoc κ α :=
  set table key (f (get? table key))

/-- Sets all keys of the second table in the first, in order; the second one wins. -/
def merge (table newer : Assoc κ α) : Assoc κ α :=
  newer.foldl (fun acc entry => set acc entry.1 entry.2) table

/-- The table that results from setting the entries one after another. -/
def ofEntries (entries : List (κ × α)) : Assoc κ α := merge [] entries

def keys (table : Assoc κ α) : List κ := table.map (·.1)

def values (table : Assoc κ α) : List α := table.map (·.2)

end Assoc

end SyntaxForest
