/-
# Settings

How a batch is classified and reported.  Settings come from the environment,
read in a fixed order so that the first fault is the one that is reported, and
are overlaid by the command line.  A variable that is empty counts as absent.
-/
import CxxFloor.Report.Format
import CxxFloor.Text.Fields

namespace CxxFloor

/-- How a batch is classified and reported. -/
structure Settings where
  floor : Int := Standard.lowest
  format : ReportFormat := .human
  failOnUnknown : Bool := false
  /-- How many files may be classified at a time; results do not depend on it. -/
  jobs : Option Int := none
  encoding : String := "utf-8"
  disabled : List String := []
deriving DecidableEq, Repr

abbrev Environment := List (String × String)

namespace Environment

def value? (env : Environment) (name : String) : Option String :=
  (env.lookup name).filter (· ≠ "")

/-- The reading of a variable, or `default` where it is absent. -/
def readOr {α : Type} (env : Environment) (name : String) (default : α)
    (read : String → Except Refusal α) : Except Refusal α :=
  match env.value? name with
  | some text => read text
  | none => .ok default

def color (env : Environment) : Bool := (env.value? "STDGATE_NO_COLORS").isNone

end Environment

namespace Settings

/-- The text says yes.  The words are ASCII, and no other letter has one of theirs for a lower
case. -/
def isYes (text : String) : Bool :=
  ["1", "true", "yes", "on"].contains
    (String.ofList ((Text.trim text.toList).map Char.toLower))

def atLeastOne (n : Int) : Int := max 1 n

/-- The number of jobs that a text gives. -/
def readJobs (text : String) : Except Refusal (Option Int) :=
  match Text.readInteger text with
  | .ok n => .ok (some (atLeastOne n))
  | .error _ => .error (.jobs text)

/-- The ids between the commas of a text, without the blanks around them; empty ones are left
out. -/
def readIds (text : String) : List String :=
  ((Text.fields ',' text.toList).map fun cs => String.ofList (Text.trim cs)).filter (· ≠ "")

/-- The settings of an environment. -/
def ofEnvironment (env : Environment) : Except Refusal Settings := do
  let standard : Settings := {}
  let floor ← env.readOr "STDGATE_FLOOR" standard.floor Standard.parse
  let format ← env.readOr "STDGATE_FORMAT" standard.format ReportFormat.parse
  let failOnUnknown ←
    env.readOr "STDGATE_FAIL_ON_UNKNOWN" standard.failOnUnknown (fun s => .ok (isYes s))
  let jobs ← env.readOr "STDGATE_JOBS" standard.jobs readJobs
  let encoding ← env.readOr "STDGATE_ENCODING" standard.encoding .ok
  let disabled ← env.readOr "STDGATE_DISABLE" standard.disabled (fun s => .ok (readIds s))
  pure ⟨floor, format, failOnUnknown, jobs, encoding, disabled⟩

end Settings

end CxxFloor
