/-
# Refusals

Why a request is refused, one constructor per cause, and the wording of each.
Faults of a source are not among them: those are diagnostics and never stop a
classification.

A run goes from scanning over matching to reported, or is cancelled on the way.
What it refuses depends on the state it is in.
-/
import CxxFloor.Text.Integer

namespace CxxFloor

/-- The state of a run. -/
inductive RunState where
  | scanning
  | matching
  | reported
  | cancelled
deriving DecidableEq, Repr

def RunState.name : RunState → String
  | .scanning => "scanning"
  | .matching => "matching"
  | .reported => "reported"
  | .cancelled => "cancelled"

/-- What a run in progress is asked for. -/
inductive RunAction where
  | scan
  | matchFragments
  | report
deriving DecidableEq, Repr

def RunAction.name : RunAction → String
  | .scan => "scan"
  | .matchFragments => "match"
  | .report => "report"

/-- Why a request is refused. -/
inductive Refusal where
  /-- A catalog lists the feature twice. -/
  | duplicateFeature (id : String)
  /-- Two matchers are registered for the feature. -/
  | duplicateMatcher (id : String)
  /-- The catalog has no such feature. -/
  | unknownFeature (id : String)
  /-- A catalog without features cannot be listed. -/
  | emptyCatalog
  /-- The text names no standard. -/
  | unknownStandard (text : String)
  /-- The text names no report format. -/
  | unknownFormat (text : String)
  /-- A number cannot be read, or cannot be written. -/
  | integer (fault : Text.IntegerFault)
  /-- The number of jobs is no integer. -/
  | jobs (text : String)
  /-- A path holds the character with code zero. -/
  | nullInPath
  /-- Reading a file ends in an error that nothing provides for. -/
  | uncaught (className message : String)
  /-- A run was asked for an action that its state does not allow. -/
  | wrongState (action : RunAction) (name : String) (state : RunState)
  /-- The fragments of the run were matched before. -/
  | alreadyMatched (name : String)
  /-- The fragments of the run have not been matched. -/
  | notMatched (name : String)
  /-- The run has no report. -/
  | noResult (name : String) (state : RunState)
  /-- The run was cancelled. -/
  | cancelled (name : String)
deriving DecidableEq, Repr

/-- The wording of a refusal. -/
def Refusal.message : Refusal → String
  | .duplicateFeature id => "Duplicate feature id in catalog: " ++ id
  | .duplicateMatcher id => "Two matchers registered for " ++ id
  | .unknownFeature id => "Unknown feature id: " ++ id
  | .emptyCatalog => "max() arg is an empty sequence"
  | .unknownStandard text => "Unknown standard: " ++ text ++ " (known: 20, 23)"
  | .unknownFormat text => "Unknown output format: " ++ text
  | .integer fault => fault.message
  | .jobs text => "STDGATE_JOBS must be an integer, got: " ++ text
  | .nullInPath => "embedded null byte"
  | .uncaught _ message => message
  | .wrongState action name state =>
    "Cannot " ++ action.name ++ " " ++ name ++ ": run is " ++ state.name
  | .alreadyMatched name => "Cannot match " ++ name ++ ": fragments already matched"
  | .notMatched name => "Cannot report " ++ name ++ ": fragments not matched yet"
  | .noResult name state => "No result for " ++ name ++ ": run is " ++ state.name
  | .cancelled name => "Run cancelled: " ++ name

end CxxFloor
