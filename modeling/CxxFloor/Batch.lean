/-
# Batches

A batch classifies inputs one by one and keeps their order.  An input that
cannot be read becomes a failure and stops nothing; a cancelled run stops the
whole, as does an error that reading does not provide for, and no part of a
batch is handed out then.  All runs of a batch listen
to one signal, one behind the other.

A batch fails if an input failed or there was none.  Otherwise it violates the
floor if a file requires a newer standard, or, where that is asked for, if a
file has a note or a diagnostic.
-/
import CxxFloor.Input
import CxxFloor.Run.Basic

namespace CxxFloor

/-- An input that could not be read. -/
structure Failure where
  name : String
  kind : String
  message : String
deriving DecidableEq, Repr

/-- The failure of an input that could not be read for the reason given. -/
def Failure.unreadable (name reason : String) : Failure := ⟨name, "InputUnreadable", reason⟩

/-- What became of an input. -/
inductive Entry where
  | report (r : FileReport)
  | failure (f : Failure)
deriving DecidableEq, Repr

namespace Entry

/-- The report of an entry that is one. -/
def report? : Entry → Option FileReport
  | report r => some r
  | failure _ => none

/-- The failure of an entry that is one. -/
def failure? : Entry → Option Failure
  | report _ => none
  | failure f => some f

end Entry

/-- The verdict on a batch. -/
inductive Conclusion where
  | ok
  | violation
  | failure
deriving DecidableEq, Repr

namespace Conclusion

/-- The name of a conclusion. -/
def name : Conclusion → String
  | ok => "ok"
  | violation => "violation"
  | failure => "failure"

/-- The exit code a conclusion stands for. -/
def exitCode : Conclusion → Nat
  | ok => 0
  | violation => 1
  | failure => 2

end Conclusion

def FileReport.isDoubtful (r : FileReport) : Bool := !r.notes.isEmpty || !r.diagnostics.isEmpty

/-- The entries of a batch, in the order of its inputs, and what they are judged by. -/
structure Batch where
  entries : List Entry
  floor : Int
  /-- Notes and diagnostics are violations too. -/
  failOnUnknown : Bool := false
deriving DecidableEq, Repr

namespace Batch

def reports (b : Batch) : List FileReport := b.entries.filterMap (·.report?)

def failures (b : Batch) : List Failure := b.entries.filterMap (·.failure?)

/-- The newest standard that a file requires, or the floor if there is no file. -/
def required (b : Batch) : Int := ((b.reports.map (·.required)).max?).getD b.floor

def findingCount (b : Batch) : Nat :=
  (b.reports.flatMap (·.classification.findings)).length

def violates (b : Batch) (r : FileReport) : Bool := b.floor < r.required

/-- The verdict on the batch. -/
def conclusion (b : Batch) : Conclusion :=
  if !b.failures.isEmpty || b.entries.isEmpty then .failure
  else if b.reports.any b.violates then .violation
  else if b.failOnUnknown && b.reports.any (·.isDoubtful) then .violation
  else .ok

end Batch

/-! ## Classifying a batch -/

/-- How the inputs of a batch are read and classified. -/
structure Plan where
  tree : FileTree
  codec : Codec
  floor : Int
  dispatcher : Dispatcher

namespace Plan

/-- The entry of an input, and the signal behind its run.  An input that cannot be read asks
nothing of the signal. -/
def entry (p : Plan) (signal : Signal) (i : Input) : Except Refusal (Entry × Signal) := do
  match ← i.read p.tree p.codec with
  | .error reason => pure (.failure (.unreadable i.name reason), signal)
  | .ok text =>
    let run : Run := { job := ⟨text, i.name, p.floor, p.dispatcher⟩, signal := signal }
    let (answer, after) := run.execute
    pure (.report (← answer), after.signal)

/-- The entries of the inputs in order. -/
def entries (p : Plan) : Signal → List Input → Except Refusal (List Entry)
  | _, [] => .ok []
  | signal, i :: is => do
    let (e, signal) ← p.entry signal i
    pure (e :: (← p.entries signal is))

end Plan

end CxxFloor
