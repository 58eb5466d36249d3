/-
# Dispatching fragments to matchers

A dispatcher holds the enabled matchers in catalog order.  It shows a fragment
to the matchers of its kind and keeps the slots of the catalog apart: where
several features of one slot are found in a fragment, all of them are
withdrawn, and one note names them as candidates.
-/
import CxxFloor.Feature.Statement
import CxxFloor.Feature.Catalog
import CxxFloor.Feature.Lexical
import CxxFloor.Feature.Explicit
import CxxFloor.Feature.Lambda
import CxxFloor.Feature.Operator
import CxxFloor.Feature.Placeholder
import CxxFloor.Feature.Record

namespace CxxFloor

/-- The matchers of the standard catalog, in its order. -/
def standardMatchers : List Matcher :=
  [compileTimeBranch, conditionalExplicit, placeholderCopy, staticCall, manyIndices,
   deducedObjectParameter, incompleteSizeQuery, restrictedGuide, objectCapture, constantTry,
   unionMemberInitializer, messagelessAssertion, staticSubscript, noIndex, fixedObjectParameter,
   sizeSuffix, extendedFloatSuffix, elifdefDirective, warningDirective, assumeAttribute,
   parameterlessSpecifiers, trailingLabel]

/-- Matches and notes, each in the order they were made. -/
structure MatchSet where
  found : List Match := []
  notes : List Note := []
deriving DecidableEq, Repr

namespace MatchSet

def append (a b : MatchSet) : MatchSet := ⟨a.found ++ b.found, a.notes ++ b.notes⟩

def join (sets : List MatchSet) : MatchSet :=
  ⟨sets.flatMap (·.found), sets.flatMap (·.notes)⟩

end MatchSet

/-- The enabled matchers in catalog order. -/
structure Dispatcher where
  catalog : Catalog
  matchers : List Examiner

namespace Dispatcher

/-- The matchers that are not disabled.  Every matcher has to be in the catalog, and none may
come twice, whether it is disabled or not. -/
def select (catalog : Catalog) (disabled : List String) :
    (seen : List String) → List Examiner → Except Refusal (List Examiner)
  | _, [] => .ok []
  | seen, m :: ms => do
    let d ← catalog.lookup m.id
    if seen.contains d.id then throw (.duplicateMatcher d.id)
    let rest ← select catalog disabled (d.id :: seen) ms
    pure (if disabled.contains d.id then rest else m :: rest)

def positionOf (catalog : Catalog) (m : Examiner) : Nat := (catalog.position? m.id).getD catalog.size

/-- The dispatcher of these examiners, without those whose features are disabled. -/
def register (catalog : Catalog) (examiners : List Examiner) (disabled : List String) :
    Except Refusal Dispatcher := do
  disabled.forM fun id => discard (catalog.lookup id)
  let selected ← select catalog disabled [] examiners
  pure ⟨catalog, selected.mergeSort fun a b => positionOf catalog a ≤ positionOf catalog b⟩

def make (catalog : Catalog) (matchers : List Matcher) (disabled : List String) :
    Except Refusal Dispatcher :=
  register catalog (matchers.map (·.examiner)) disabled

def featureIds (d : Dispatcher) : List String := d.matchers.map (·.id)

def kindsOf (catalog : Catalog) (m : Examiner) : List FragmentKind :=
  if m.kinds.isEmpty then ((catalog.find? m.id).map (·.kinds)).getD [] else m.kinds

def matchersFor (d : Dispatcher) (kind : FragmentKind) : List Examiner :=
  d.matchers.filter fun m => (kindsOf d.catalog m).contains kind

/-- The match of an outcome. -/
def match? : Outcome → Option Match
  | .found m => some m
  | _ => none

/-- The note of an outcome. -/
def note? : Outcome → Option Note
  | .ambiguous n => some n
  | _ => none

/-! ## Slots -/

def slotOf? (catalog : Catalog) (m : Match) : Option String :=
  (catalog.find? m.feature).bind (·.slot)

def slotsOf (catalog : Catalog) (ms : List Match) : List String :=
  (ms.filterMap (slotOf? catalog)).eraseDups

def rivals (catalog : Catalog) (ms : List Match) (slot : String) : List Match :=
  ms.filter fun m => slotOf? catalog m == some slot

def contested (catalog : Catalog) (ms : List Match) : List String :=
  (slotsOf catalog ms).filter fun slot => 1 < (rivals catalog ms slot).length

/-- The note on a contested slot. -/
def conflict (catalog : Catalog) (f : Fragment) (ms : List Match) (slot : String) : Note :=
  let ids := (rivals catalog ms slot).map (·.feature)
  { f.whole with
    feature := ids.headD ""
    reason := "features sharing slot '" ++ slot ++ "' both claim this construct"
    candidates := ids }

/-- The matches without those of the contested slots, and a note for each of these. -/
def enforceSlots (catalog : Catalog) (f : Fragment) (ms : List Match) : MatchSet :=
  let slots := contested catalog ms
  let withdrawn := slots.flatMap fun slot => (rivals catalog ms slot).map (·.feature)
  ⟨ms.filter fun m => !withdrawn.contains m.feature, slots.map (conflict catalog f ms)⟩

/-! ## Fragments -/

/-- What the matchers find in a fragment. -/
def examine (d : Dispatcher) (f : Fragment) : MatchSet :=
  let outcomes := (d.matchersFor f.kind).map (·.outcome f)
  let kept := enforceSlots d.catalog f (outcomes.filterMap match?)
  ⟨kept.found, outcomes.filterMap note? ++ kept.notes⟩

def run (d : Dispatcher) (fs : List Fragment) : MatchSet := .join (fs.map d.examine)

end Dispatcher

end CxxFloor
