/-
# Report formats

A batch is reported as a listing or as a document.
-/
import CxxFloor.Report.Document
import CxxFloor.Report.Listing
import CxxFloor.Text.Blank

namespace CxxFloor

/-- The formats of a report. -/
inductive ReportFormat where
  /-- A listing for a reader. -/
  | human
  /-- A document for a program. -/
  | machine
deriving DecidableEq, Repr

namespace ReportFormat

/-- The name of a format. -/
def name : ReportFormat → String
  | human => "human"
  | machine => "machine"

/-- The format of a name in lower case; each has a second name. -/
def ofName? (s : String) : Option ReportFormat :=
  if s = "human" || s = "text" then some human
  else if s = "machine" || s = "json" then some machine
  else none

/-- The format that a setting names.  Case does not matter, and blanks may stand at either end.
The names are ASCII, and no other letter has one of theirs for a lower case. -/
def parse (text : String) : Except Refusal ReportFormat :=
  match ofName? (String.ofList (Text.trim (text.toList.map Char.toLower))) with
  | some f => .ok f
  | none => .error (.unknownFormat text)

/-- The report on a batch, its numbers written out.  Only a listing has colours, and an empty
catalog counts as none. -/
def render (catalog : Catalog) (color : Bool) (b : Batch) : ReportFormat → String
  | human => Listing.render (.ofColor color) catalog.orStandard b
  | machine => Document.render catalog.orStandard b

/-- The report on a batch where integers have at most `limit` digits.  Both formats show the same
numbers. -/
def write (limit : Option Nat) (catalog : Catalog) (color : Bool) (b : Batch) (f : ReportFormat) :
    Except Refusal String :=
  match (Document.ofBatch catalog.orStandard b).fault? limit with
  | none => .ok (f.render catalog color b)
  | some fault => .error (.integer fault)

end ReportFormat

end CxxFloor
