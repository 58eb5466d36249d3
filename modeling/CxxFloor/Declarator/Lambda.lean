/-
# Lambda declarators

A lambda up to its body, taken apart: captures, template parameters,
parameters, and whatever stands between those and the body.
-/
import CxxFloor.Bracket.Split
import CxxFloor.Bracket.Walk

namespace CxxFloor

/-- The parts of a lambda before its body. -/
structure LambdaDeclarator where
  captures : List Part
  templateParameters : List Lexeme
  /-- Absent when the lambda has no parameter list. -/
  params : Option (List Part)
  /-- What stands behind the parameters, or behind the introducer. -/
  specifiers : Part
deriving DecidableEq, Repr

namespace Bracketed

/-- The parenthesis that ends the constraint read from index `j` on, groups in square brackets
passed over, or the end. -/
def constraintEnd (b : Bracketed) (j : Nat) : Nat :=
  if j < b.size then
    if b.punctAt j "(" then j
    else
      match h : b.operandEnd? j with
      | some c => b.constraintEnd (c + 1)
      | none => b.constraintEnd (j + 1)
  else j
termination_by b.size - j
decreasing_by
  · have := lt_of_operandEnd? h; omega
  · omega

/-- The template parameters from index `j` on and the index behind them and their constraint;
`none` if they are never closed. -/
def templateParametersAt? (b : Bracketed) (j : Nat) : Option (List Lexeme × Nat) :=
  if b.punctAt j "<" then
    match b.angleEnd? j with
    | none => none
    | some c =>
      some (b.between (j + 1) c,
        if b.wordAt (c + 1) "requires" then b.constraintEnd (c + 1) else c + 1)
  else some ([], j)

/-- The lambda the lexemes start with. -/
def lambdaDeclarator? (b : Bracketed) : Option LambdaDeclarator :=
  if b.punctAt 0 "[" then
    match b.closer? 0 with
    | none => none
    | some close =>
      match b.templateParametersAt? (close + 1) with
      | none => none
      | some (templateParameters, j) =>
        let captures := splitTopLevel "," false 1 (b.between 1 close)
        match b.roundEnd? j with
        | some c =>
          some {
            captures := captures
            templateParameters := templateParameters
            params := some (parameters (j + 1) (b.between (j + 1) c))
            specifiers := ⟨c + 1, b.between (c + 1) b.size⟩ }
        | none =>
          some {
            captures := captures
            templateParameters := templateParameters
            params := none
            specifiers := ⟨j, b.between j b.size⟩ }
  else none

end Bracketed

end CxxFloor
