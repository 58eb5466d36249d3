/-
# Listings

The report for a reader: for each file what it requires and what was found in
it, then the inputs that could not be read, then one line that sums up.  A
listing is made of lines; line feeds in the text of a finding or a note become
spaces.
-/
import CxxFloor.Report.Document
import CxxFloor.Standard

namespace CxxFloor

/-- The marks of a listing. -/
structure Palette where
  reset : String := ""
  bold : String := ""
  dim : String := ""
  red : String := ""
  green : String := ""
  yellow : String := ""
  magenta : String := ""
  cyan : String := ""
deriving DecidableEq, Repr

namespace Palette

def escape (code : String) : String := "\x1b[" ++ code ++ "m"

/-- The marks of a terminal. -/
def terminal : Palette :=
  { reset := escape "0", bold := escape "1", dim := escape "2", red := escape "31"
    green := escape "32", yellow := escape "33", magenta := escape "35", cyan := escape "36" }

def plain : Palette := {}

def ofColor (color : Bool) : Palette := if color then terminal else plain

def inBold (p : Palette) (s : String) : String := p.bold ++ s ++ p.reset

def inYellow (p : Palette) (s : String) : String := p.yellow ++ s ++ p.reset

/-- The mark of a conclusion. -/
def conclusion (p : Palette) : Conclusion → String
  | .ok => p.green
  | .violation => p.yellow
  | .failure => p.bold ++ p.red

end Palette

namespace Listing

def flat (s : String) : String := String.ofList (s.toList.map fun c => if c = '\n' then ' ' else c)

def place (line column : Int) : String := toString line ++ ":" ++ toString column

/-- The line that says what a file requires. -/
def headLine (p : Palette) (floor : Int) (r : FileReport) : String :=
  p.inBold r.name ++ ": requires " ++ Standard.label r.required ++
    if floor < r.required then
      " " ++ p.red ++ "(above floor " ++ Standard.label floor ++ ")" ++ p.reset
    else ""

def findingLine (m : Match) : String := "    " ++ place m.line m.column ++ "  " ++ flat m.text

/-- The lines of a group. -/
def groupLines (p : Palette) (g : FeatureGroup) : List String :=
  ("  " ++ p.inYellow g.feature.id ++ " " ++ p.dim ++ "[" ++ Standard.label g.feature.minStandard
      ++ "] " ++ g.feature.description ++ p.reset)
    :: g.findings.map findingLine

/-- The line of a note. -/
def noteLine (p : Palette) (n : Note) : String :=
  "  " ++ p.cyan ++ "note" ++ p.reset ++ " " ++ place n.line n.column ++ " [" ++ n.feature ++ "] "
    ++ flat n.text ++ ": " ++ n.reason

def diagnosticLine (p : Palette) (d : Diagnostic) : String :=
  "  " ++ p.magenta ++ "scan" ++ p.reset ++ " " ++ place d.line d.column ++ " " ++ d.message

/-- The lines of what was found in a file. -/
def bodyLines (p : Palette) (catalog : Catalog) (r : FileReport) : List String :=
  (r.groups catalog).flatMap (groupLines p) ++ r.notes.map (noteLine p)
    ++ r.diagnostics.map (diagnosticLine p)

/-- The lines of a file. -/
def fileLines (p : Palette) (catalog : Catalog) (floor : Int) (r : FileReport) : List String :=
  let body := bodyLines p catalog r
  headLine p floor r ::
    (if body.isEmpty then
        ["  " ++ p.green ++ "no newer-standard features found" ++ p.reset]
      else body)
    ++ [""]

/-- The lines of the inputs that could not be read. -/
def failureLines (p : Palette) (failures : List Failure) : List String :=
  if failures.isEmpty then []
  else
    (p.bold ++ p.red ++ "Failures:" ++ p.reset)
      :: failures.map (fun f => "  " ++ f.name ++ ": " ++ f.message) ++ [""]

/-- The line that sums up. -/
def summaryLine (p : Palette) (b : Batch) : String :=
  p.inBold "Summary:" ++ " " ++ toString b.reports.length ++ " file(s), "
    ++ toString b.findingCount ++ " finding(s), requires " ++ Standard.label b.required
    ++ " (floor " ++ Standard.label b.floor ++ "): " ++ p.conclusion b.conclusion
    ++ b.conclusion.name ++ p.reset

/-- The lines of the listing of a batch. -/
def lines (p : Palette) (catalog : Catalog) (b : Batch) : List String :=
  b.reports.flatMap (fileLines p catalog b.floor) ++ failureLines p b.failures
    ++ [summaryLine p b]

def ofLines (ls : List String) : String := String.join (ls.map (· ++ "\n"))

def render (p : Palette) (catalog : Catalog) (b : Batch) : String := ofLines (lines p catalog b)

end Listing

/-! ## The features of a catalog -/

def padded (width : Nat) (s : String) : String :=
  s ++ String.ofList (List.replicate (width - s.length) ' ')

/-- The line of a feature. -/
def featureLine (p : Palette) (width : Nat) (d : Descriptor) : String :=
  p.inYellow (padded width d.id) ++ "  " ++ Standard.label d.minStandard ++ "  " ++ d.description
    ++ "  " ++ p.dim ++ d.sample ++ p.reset

/-- The list of the features of a catalog, which must have one. -/
def featureList (p : Palette) (catalog : Catalog) : Except Refusal String :=
  match (catalog.entries.map (·.id.length)).max? with
  | none => .error .emptyCatalog
  | some width => .ok (Listing.ofLines (catalog.entries.map (featureLine p width)))

end CxxFloor
