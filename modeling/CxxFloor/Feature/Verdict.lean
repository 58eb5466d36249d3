/-
# Verdicts

What a feature says about a view: it is there, it may be there, or it is not.
A verdict points at lexemes of the view by index; where those stand in the
file is found out afterwards (`Fragment.spot`).

A matcher is one feature's way of reaching a verdict, together with the kinds
of fragment it looks at.  A dispatcher asks examiners, of which a matcher is
one: how an examiner comes to what it says is its own affair, and so is the
place it names, but it speaks of its own feature only.
-/
import CxxFloor.Fragment.Basic
import CxxFloor.Bracket.Split

namespace CxxFloor

/-- The lexemes of a view from `first` to `last`, both included. -/
structure Span where
  first : Nat
  last : Nat
deriving DecidableEq, Repr

def Part.span (p : Part) : Span := ⟨p.start, p.start + p.lexemes.length - 1⟩

/-- What a feature says about a view.  A verdict without a span is about the whole. -/
inductive Verdict where
  /-- The feature is not there. -/
  | absent
  /-- The feature is there. -/
  | found (span : Option Span)
  /-- Without knowing more than the tokens, any of the candidates may be there. -/
  | ambiguous (span : Option Span) (reason : String) (candidates : List String)
deriving DecidableEq, Repr

/-- A feature's way of reaching a verdict. -/
structure Matcher where
  id : String
  kinds : List FragmentKind
  examine : View → Verdict

/-- A text of a source and the place of its first character. -/
structure Spot where
  line : Int
  column : Int
  offset : Int
  text : String
deriving DecidableEq, Repr, Inhabited

/-- A feature found at a place of a file. -/
structure Match extends Spot where
  feature : String
  file : String
deriving DecidableEq, Repr, Inhabited

def Match.location (m : Match) : String :=
  m.file ++ ":" ++ toString m.line ++ ":" ++ toString m.column

/-- A construct that may or may not use a feature. -/
structure Note extends Spot where
  feature : String
  reason : String
  candidates : List String
deriving DecidableEq, Repr, Inhabited

/-- What a matcher says about a fragment, in the words of the file. -/
inductive Outcome where
  | none
  | found (m : Match)
  | ambiguous (note : Note)
deriving DecidableEq, Repr

/-- The feature an outcome speaks of. -/
def Outcome.feature? : Outcome → Option String
  | .none => .none
  | .found m => some m.feature
  | .ambiguous note => some note.feature

/-- Something to say about every fragment, always of one feature.  Without kinds of its own, the
catalog's decide which fragments it is asked about. -/
structure Examiner where
  id : String
  kinds : List FragmentKind
  outcome : Fragment → Outcome
  own : ∀ f, ∀ feature ∈ (outcome f).feature?, feature = id

/-! ## Pointing into a file -/

namespace Fragment

def textBetween (f : Fragment) (start stop : Nat) : String :=
  Text.slice f.text.toList (start - f.start.offset) (stop - f.start.offset)

def whole (f : Fragment) : Spot := ⟨f.start.line, f.start.column, f.start.offset, f.text⟩

/-- The place and text that a span points at; without a span, and for one that the fragment does
not have, those of the whole. -/
def spot (f : Fragment) : Option Span → Spot
  | .none => f.whole
  | some span =>
    match f.tokens[span.first]?, f.tokens[span.last]? with
    | some t, some u =>
      ⟨t.start.line, t.start.column, t.start.offset, f.textBetween t.start.offset u.stop⟩
    | _, _ => f.whole

/-- What a verdict of the feature `id` says in the words of the file. -/
def outcome (f : Fragment) (id : String) : Verdict → Outcome
  | .absent => .none
  | .found span => .found { f.spot span with feature := id, file := f.file }
  | .ambiguous span reason candidates =>
    .ambiguous { f.spot span with feature := id, reason := reason, candidates := candidates }

theorem feature_of_outcome {f : Fragment} {id feature : String} {v : Verdict}
    (h : feature ∈ (f.outcome id v).feature?) : feature = id := by
  cases v with
  | absent => cases h
  | found => exact (Option.some.inj h).symm
  | ambiguous => exact (Option.some.inj h).symm

end Fragment

namespace Matcher

def outcome (m : Matcher) (f : Fragment) : Outcome := f.outcome m.id (m.examine f.view)

def examiner (m : Matcher) : Examiner where
  id := m.id
  kinds := m.kinds
  outcome := m.outcome
  own _ _ h := Fragment.feature_of_outcome h

instance : Coe Matcher Examiner := ⟨examiner⟩

end Matcher

end CxxFloor
