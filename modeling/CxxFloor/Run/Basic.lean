/-
# Runs

A run classifies one source in three actions: it scans the text, matches the
fragments, and reports.  It keeps what each action leaves for the next one:
the fragments and the diagnostics of the scan, what the matchers found, and the
report.  It can be asked for anything at any time, and its state and what it
holds decide the answer.

While it scans and matches it asks a signal at every fragment, and once more
when the scan is complete; the first yes cancels it for good, and fragments and
matches are dropped.  What a run sees of its signal is the number of times the
answer is still no; once the answer is yes it stays yes.  One signal may be
shared by many runs, one behind the other.
-/
import CxxFloor.Classification
import CxxFloor.Feature.Dispatch
import CxxFloor.Fragment.Scan

namespace CxxFloor

/-! ## Signals -/

/-- How many more times the answer is no; `none` if it always is. -/
structure Signal where
  remaining : Option Nat
deriving DecidableEq, Repr

namespace Signal

def never : Signal := ⟨none⟩

def given : Signal := ⟨some 0⟩

/-- The signal behind one question that is answered by no; `none` if the answer is yes. -/
def ask? : Signal → Option Signal
  | ⟨none⟩ => some ⟨none⟩
  | ⟨some 0⟩ => none
  | ⟨some (k + 1)⟩ => some ⟨some k⟩

end Signal

/-! ## Runs -/

/-- What is classified, and how. -/
structure Job where
  text : String
  name : String
  floor : Int
  dispatcher : Dispatcher

/-- A run of a job, and the signal it listens to. -/
structure Run where
  job : Job
  state : RunState := .scanning
  fragments : List Fragment := []
  diagnostics : List Diagnostic := []
  found? : Option MatchSet := none
  made? : Option FileReport := none
  signal : Signal := .never

namespace Run

/-- The run is told to stop; it does so when it next asks. -/
def cancel (r : Run) : Run := { r with signal := .given }

abbrev Answer (α : Type) := Except Refusal α × Run

def refuse {α : Type} (r : Run) (action : RunAction) : Answer α :=
  (.error (.wrongState action r.job.name r.state), r)

/-- The signal was given: the run is cancelled. -/
def stop {α : Type} (r : Run) : Answer α :=
  (.error (.cancelled r.job.name),
    { r with state := .cancelled, fragments := [], found? := none, signal := .given })

/-- The fragments of a scan are taken over one by one, each when the signal has been asked, and the
signal is asked once more behind the last. -/
def collect (signal : Signal) : List Fragment → Option (List Fragment × Signal)
  | [] => do
    let signal ← signal.ask?
    pure ([], signal)
  | f :: fs => do
    let signal ← signal.ask?
    let (taken, signal) ← collect signal fs
    pure (f :: taken, signal)

/-- The text is scanned; the answer is the fragments. -/
def scan (r : Run) : Answer (List Fragment) :=
  match r.state with
  | .scanning =>
    let scan := CxxFloor.scan r.job.name r.job.text
    match collect r.signal scan.fragments with
    | some (fragments, signal) =>
      (.ok fragments,
        { r with
          state := .matching
          fragments := fragments
          diagnostics := scan.diagnostics
          signal := signal })
    | none => r.stop
  | _ => r.refuse .scan

/-- The fragments are shown to the matchers one by one, each when the signal has been asked. -/
def examineAll (d : Dispatcher) (signal : Signal) : List Fragment → Option (MatchSet × Signal)
  | [] => some ({}, signal)
  | f :: fs => do
    let signal ← signal.ask?
    let (later, signal) ← examineAll d signal fs
    pure ((d.examine f).append later, signal)

/-- The fragments are matched; the answer is what was found. -/
def matchFragments (r : Run) : Answer MatchSet :=
  match r.state, r.found? with
  | .matching, none =>
    match examineAll r.job.dispatcher r.signal r.fragments with
    | some (found, signal) => (.ok found, { r with found? := some found, signal := signal })
    | none => r.stop
  | .matching, some _ => (.error (.alreadyMatched r.job.name), r)
  | _, _ => r.refuse .matchFragments

/-- The report on what was found. -/
def reportOf (job : Job) (diagnostics : List Diagnostic) (found : MatchSet) :
    Except Refusal FileReport := do
  let catalog := job.dispatcher.catalog
  let classification ← classify found.found catalog job.floor
  pure ⟨job.name, classification, found.notes.mergeSort catalog.noteLe, diagnostics⟩

/-- The report is made; it is the answer. -/
def report (r : Run) : Answer FileReport :=
  match r.state, r.found? with
  | .matching, some found =>
    match reportOf r.job r.diagnostics found with
    | .ok report =>
      (.ok report, { r with state := .reported, fragments := [], made? := some report })
    | .error e => (.error e, r)
  | .matching, none => (.error (.notMatched r.job.name), r)
  | _, _ => r.refuse .report

/-- The report that was made. -/
def result (r : Run) : Except Refusal FileReport :=
  match r.made? with
  | some report => .ok report
  | none => .error (.noResult r.job.name r.state)

/-- All three actions in order, up to the first that fails. -/
def execute (r : Run) : Answer FileReport :=
  match r.scan with
  | (.error e, r) => (.error e, r)
  | (.ok _, r) =>
    match r.matchFragments with
    | (.error e, r) => (.error e, r)
    | (.ok _, r) => r.report

end Run

/-- The report on a text, with the standard matchers and without those disabled. -/
def classifyText (name text : String) (catalog : Catalog) (floor : Int) (disabled : List String) :
    Except Refusal FileReport := do
  let dispatcher ← Dispatcher.make catalog.orStandard standardMatchers disabled
  ({ job := ⟨text, name, floor, dispatcher⟩ } : Run).execute.1

end CxxFloor
