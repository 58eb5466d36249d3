/-
# Classification

The standard a set of matches requires: the newest that any of them needs, and
the floor if there is none.  The findings are put in the order of their
offsets, those at one offset in catalog order, and are counted by feature.
Lines and texts only break ties between findings of one feature at one offset.
-/
import CxxFloor.Feature.Catalog
import CxxFloor.Feature.Verdict

namespace CxxFloor

/-- What a set of matches amounts to. -/
structure Classification where
  required : Int
  findings : List Match := []
  /-- The features that occur, in catalog order, with the number of their findings. -/
  byFeature : List (String × Nat) := []
deriving DecidableEq, Repr

namespace Catalog

/-- The position that orders a feature; one that is not in the catalog comes last. -/
def rank (c : Catalog) (id : String) : Nat := (c.position? id).getD c.size

/-- The finding `a` may come before the finding `b`. -/
def findingLe (c : Catalog) (a b : Match) : Bool :=
  if a.offset ≠ b.offset then a.offset < b.offset
  else if c.rank a.feature ≠ c.rank b.feature then c.rank a.feature < c.rank b.feature
  else if a.line ≠ b.line then a.line < b.line
  else decide (a.text ≤ b.text)

/-- The note `a` may come before the note `b`. -/
def noteLe (c : Catalog) (a b : Note) : Bool :=
  if a.offset ≠ b.offset then a.offset < b.offset
  else c.rank a.feature ≤ c.rank b.feature

def newest? (c : Catalog) (ids : List String) : Option Int :=
  ((ids.filterMap c.find?).map (·.minStandard)).max?

/-- The features that occur among these ids, in catalog order, with the number of times. -/
def tally (c : Catalog) (ids : List String) : List (String × Nat) :=
  (c.ids.map fun id => (id, ids.count id)).filter fun entry => 0 < entry.2

end Catalog

/-- The classification of matches.  All their features have to be in the catalog. -/
def classify (matched : List Match) (catalog : Catalog) (floor : Int) :
    Except Refusal Classification := do
  matched.forM fun m => discard (catalog.lookup m.feature)
  let findings := matched.mergeSort catalog.findingLe
  let ids := findings.map (·.feature)
  pure ⟨(catalog.newest? ids).getD floor, findings, catalog.tally ids⟩

/-- The classification of a named source, with its notes and diagnostics. -/
structure FileReport where
  name : String
  classification : Classification
  notes : List Note := []
  diagnostics : List Diagnostic := []
deriving DecidableEq, Repr

def FileReport.required (r : FileReport) : Int := r.classification.required

end CxxFloor
