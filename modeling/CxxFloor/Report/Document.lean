/-
# Report documents

The report for a program: one JSON object with a record for each finding, the
notes, diagnostics and failures, what each file requires, and a summary.  The
fields stand in a fixed order.
-/
import CxxFloor.Batch
import CxxFloor.Text.Json

namespace CxxFloor

/-! ## Findings by feature -/

/-- The findings of one feature in a file; there is at least one. -/
structure FeatureGroup where
  feature : Descriptor
  findings : List Match
deriving DecidableEq, Repr

/-- The finding `a` may be listed before the finding `b`. -/
def Match.listedBefore (a b : Match) : Bool :=
  if a.line ≠ b.line then a.line < b.line
  else if a.column ≠ b.column then a.column < b.column
  else a.offset ≤ b.offset

def FeatureGroup.of (findings : List Match) (d : Descriptor) : FeatureGroup :=
  ⟨d, (findings.filter (·.feature == d.id)).mergeSort Match.listedBefore⟩

def FileReport.groups (r : FileReport) (catalog : Catalog) : List FeatureGroup :=
  (catalog.entries.map (FeatureGroup.of r.classification.findings)).filter (!·.findings.isEmpty)

/-! ## The document -/

namespace Document

def count (n : Nat) : Json := .number n

/-- The record of a finding. -/
def record (file : String) (d : Descriptor) (m : Match) : Json :=
  .object
    [("file", .text file), ("featureId", .text m.feature), ("minStandard", .number d.minStandard),
     ("line", .number m.line), ("column", .number m.column), ("matchedText", .text m.text)]

def records (catalog : Catalog) (r : FileReport) : List Json :=
  (r.groups catalog).flatMap fun g => g.findings.map (record r.name g.feature)

/-- A note of a file. -/
def note (file : String) (n : Note) : Json :=
  .object
    [("file", .text file), ("kind", .text "ambiguous"), ("featureId", .text n.feature),
     ("line", .number n.line), ("column", .number n.column), ("text", .text n.text),
     ("reason", .text n.reason), ("candidates", .array (n.candidates.map .text))]

/-- A diagnostic of a file. -/
def diagnostic (file : String) (d : Diagnostic) : Json :=
  .object
    [("file", .text file), ("kind", .text "scan-partial-failure"), ("line", .number d.line),
     ("column", .number d.column), ("message", .text d.message)]

def failure (f : Failure) : Json :=
  .object [("file", .text f.name), ("kind", .text f.kind), ("message", .text f.message)]

/-- What a file requires. -/
def file (r : FileReport) : Json :=
  .object
    [("file", .text r.name), ("requiredStandard", .number r.required),
     ("findings", count r.classification.findings.length)]

/-- The summary of a batch. -/
def summary (b : Batch) : Json :=
  .object
    [("requiredStandard", .number b.required), ("floorStandard", .number b.floor),
     ("files", count b.reports.length), ("findings", count b.findingCount),
     ("outcome", .text b.conclusion.name)]

/-- The document of a batch. -/
def ofBatch (catalog : Catalog) (b : Batch) : Json :=
  .object
    [("records", .array (b.reports.flatMap (records catalog))),
     ("notes", .array (b.reports.flatMap fun r => r.notes.map (note r.name))),
     ("diagnostics", .array (b.reports.flatMap fun r => r.diagnostics.map (diagnostic r.name))),
     ("failures", .array (b.failures.map failure)),
     ("files", .array (b.reports.map file)),
     ("summary", summary b)]

def render (catalog : Catalog) (b : Batch) : String := (ofBatch catalog b).render ++ "\n"

end Document

end CxxFloor
