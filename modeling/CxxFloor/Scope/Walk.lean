/-
# The walk over a file

The walk steps through the tokens of a file from the first to the last and
collects the cuts of every step.  Preprocessor lines are no part of it: they
stand between the other tokens, and each is cut before the first step that
starts behind it.

The walk reads lexemes only.  Its outcome is therefore the same for two texts
with the same lexemes, whatever their layout.
-/
import CxxFloor.Scope.Step

namespace CxxFloor

/-- The cuts of each step from index `i` on, with the index of the step. -/
def stepsFrom (b : Bracketed) (i : Nat) (s : ScanState) : List (Nat × List Cut) :=
  if _ : i < b.lexemes.size then
    let move := s.step b i b.lexemes[i]
    (i, move.cuts) :: stepsFrom b move.next move.state
  else []
termination_by b.lexemes.size - i
decreasing_by
  have := (s.step b i b.lexemes[i]).later
  omega

/-- A file's lexemes, the preprocessor lines apart.  Of each line is kept how many of the other
lexemes stand before it. -/
structure Sheet where
  lexemes : List Lexeme := []
  directives : List Nat := []
deriving DecidableEq, Repr

namespace Sheet

/-- The sheet of the lexemes, `before` of which have been passed. -/
def sortFrom (before : Nat) : List Lexeme → Sheet
  | [] => {}
  | t :: ts =>
    if t.kind == .directive then
      let rest := sortFrom before ts
      { rest with directives := before :: rest.directives }
    else
      let rest := sortFrom (before + 1) ts
      { rest with lexemes := t :: rest.lexemes }

def ofLexemes (ts : List Lexeme) : Sheet := sortFrom 0 ts

def bracketed (sheet : Sheet) : Bracketed := .ofLexemes sheet.lexemes.toArray

end Sheet

/-- The cuts of the steps with those of the preprocessor lines, numbered from `number` on, in
between. -/
def interleave (number : Nat) : (directives : List Nat) → List (Nat × List Cut) → List Cut
  | [], steps => steps.flatMap (·.2)
  | directives, [] => (List.range' number directives.length).map .directive
  | before :: directives, (i, cuts) :: steps =>
    if before ≤ i then .directive number :: interleave (number + 1) directives ((i, cuts) :: steps)
    else cuts ++ interleave number (before :: directives) steps

/-- All cuts of a file in the order they are made. -/
def cutsOf (ts : List Lexeme) : List Cut :=
  let sheet := Sheet.ofLexemes ts
  interleave 0 sheet.directives (stepsFrom sheet.bracketed 0 {})

end CxxFloor
