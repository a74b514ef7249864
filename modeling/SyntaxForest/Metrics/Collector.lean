import SyntaxForest.Data.Assoc
import SyntaxForest.Data.Number
import SyntaxForest.Decimal.Rounded
import SyntaxForest.Fault

/-!
What is counted and timed while parsing, per language.

Languages stand in the order in which they were first counted. Times are milliseconds.
-/

namespace SyntaxForest

/-- Counts and times of parses and of initializations. -/
structure Collector where
  parseCounts : Assoc String Nat := []
  failureCounts : Assoc String Nat := []
  latencies : Assoc String (List Float) := []
  initializations : Assoc String Float := []
  nodesParsed : Number := .int 0

namespace Collector

def increment (table : Assoc String Nat) (key : String) : Assoc String Nat :=
  Assoc.alter table key fun n => n.getD 0 + 1

/-- A time that is given as a number. -/
def timeOf : Datum → Except Fault Float
  | .float x => .ok x
  | .bool b => .ok (if b then 1.0 else 0.0)
  | .int n => if (Float.ofInt n).isInf then .error .beyondFloat else .ok (Float.ofInt n)
  | _ => .error (.badType "a time is a number")

/-- Counts one parse. -/
def recordParse (c : Collector) (language : String) (duration : Float) (success : Bool)
    (nodeCount : Int) : Collector :=
  { c with
    parseCounts := increment c.parseCounts language
    failureCounts := if success then c.failureCounts else increment c.failureCounts language
    latencies := Assoc.alter c.latencies language fun ls => ls.getD [] ++ [duration]
    nodesParsed := c.nodesParsed.plus nodeCount }

/-- Counts one parse whose number of nodes is given as plain data. If that is no number, the rest is
counted. -/
def recordParseGiven (c : Collector) (language : String) (duration : Float) (success : Bool)
    (nodeCount : Datum) : Collector × Except Fault Unit :=
  let counted := c.recordParse language duration success 0
  match Number.ofDatum nodeCount >>= c.nodesParsed.add with
  | .ok nodesParsed => ({ counted with nodesParsed }, .ok ())
  | .error e => (counted, .error e)

/-- Keeps the time of the last initialization of a language. -/
def recordInitialization (c : Collector) (language : String) (duration : Float) : Collector :=
  { c with initializations := Assoc.set c.initializations language duration }

/-- How long the parses of a language took. -/
structure LatencySummary where
  count : Nat
  least : Float
  greatest : Float
  average : Float

def least (first : Float) (rest : List Float) : Float :=
  rest.foldl (fun acc x => if x < acc then x else acc) first

def greatest (first : Float) (rest : List Float) : Float :=
  rest.foldl (fun acc x => if acc < x then x else acc) first

/-- Count, extremes and average of some times, rounded to two places. -/
def summarize? : List Float → Option LatencySummary
  | [] => none
  | first :: rest =>
    let times := first :: rest
    let sum := times.foldl (· + ·) 0.0
    some {
      count := times.length
      least := Decimal.roundTo 2 (least first rest)
      greatest := Decimal.roundTo 2 (greatest first rest)
      average := Decimal.roundTo 2 (sum / Float.ofNat times.length) }

/-- The summaries of all languages that were parsed. -/
def latencySummaries (c : Collector) : Assoc String LatencySummary :=
  c.latencies.filterMap fun entry => (summarize? entry.2).map fun s => (entry.1, s)

/-- The initialization times, rounded to two places. -/
def roundedInitializations (c : Collector) : Assoc String Float :=
  c.initializations.map fun entry => (entry.1, Decimal.roundTo 2 entry.2)

/-- The counts as plain data. -/
def countFields (c : Collector) : Assoc String Datum :=
  [("parse_counts", .pairsOf .nat c.parseCounts), ("failure_counts", .pairsOf .nat c.failureCounts),
   ("nodes_parsed", c.nodesParsed.toDatum)]

/-- What was counted and how often something was timed, as plain data. -/
def toDatum (c : Collector) : Datum :=
  .record (c.countFields ++ [("initialized", .texts c.initializations.keys),
    ("latency_counts", .pairsOf (fun times => .nat times.length) c.latencies)])

def LatencySummary.toDatum (s : LatencySummary) : Datum :=
  .record [("count", .nat s.count), ("min_ms", .float s.least), ("max_ms", .float s.greatest),
    ("avg_ms", .float s.average)]

/-- What is known of a timing: nothing while the work runs, its duration when it has ended. -/
structure Timing where
  duration : Option Float := none

/-- The names of what is known. -/
def Timing.keys (t : Timing) : List String := t.duration.toList.map fun _ => "duration_ms"

/-- Times a piece of work for a language. The time is kept even if the work fails. -/
def track {α : Type} (c : Option Collector) (language : String) (duration : Float)
    (work : Timing → Except Fault α) : Option Collector × Timing × Except Fault α :=
  (c.map fun c => c.recordInitialization language duration, { duration := some duration }, work {})

end Collector

end SyntaxForest
