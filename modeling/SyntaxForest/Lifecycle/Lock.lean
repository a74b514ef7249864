/-!
Fair locks between tasks.

One task holds the lock. The others wait in a queue; letting go wakes the first of them, which takes
the lock when it runs next. While a woken task has not run, nobody else can take the lock. A task
whose wait is cancelled leaves the queue when it runs, and wakes the next one if the lock is then
free.
-/

namespace SyntaxForest

/-- The identity of a task. -/
abbrev TaskId := Nat

/-- What has happened to a waiting task. -/
inductive WaiterState where
  | queued
  | woken
  | cancelled
deriving DecidableEq, Repr

/-- A lock and the tasks that wait for it, the first one first. -/
structure Lock where
  held : Bool := false
  waiters : List (TaskId × WaiterState) := []
deriving DecidableEq, Repr

namespace Lock

/-- The lock can be taken without waiting. -/
def isFree (l : Lock) : Bool := !l.held && l.waiters.all (·.2 = .cancelled)

def take (l : Lock) : Lock := { l with held := true }

/-- Puts a task at the end of the queue. -/
def enqueue (l : Lock) (task : TaskId) : Lock :=
  { l with waiters := l.waiters ++ [(task, .queued)] }

/-- Wakes the first task of the queue, unless it already is to run. -/
def wakeFirst (l : Lock) : Lock × Option TaskId :=
  match l.waiters with
  | (task, .queued) :: rest => ({ l with waiters := (task, .woken) :: rest }, some task)
  | _ => (l, none)

/-- Lets go of the lock and wakes the first task of the queue. -/
def release (l : Lock) : Lock × Option TaskId := { l with held := false }.wakeFirst

/-- Takes a task out of the queue. -/
def leave (l : Lock) (task : TaskId) : Lock :=
  { l with waiters := l.waiters.filter (·.1 ≠ task) }

/-- Marks the wait of a task as cancelled, unless the task was woken before. -/
def cancel (l : Lock) (task : TaskId) : Lock :=
  { l with waiters := l.waiters.map fun w =>
      if w.1 = task && w.2 = .queued then (task, .cancelled) else w }

end Lock

end SyntaxForest
