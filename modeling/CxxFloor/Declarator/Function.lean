/-
# Function and operator declarators

The two readings of a declaration as that of a function: by its parameter
list, and, for a call or subscript operator, by the operator's name.  Both
skip template headers and attributes first, and both point at the tokens they
found.
-/
import CxxFloor.Declarator.Header

namespace CxxFloor

/-- A declaration with a parameter list. -/
structure FunctionDeclarator where
  /-- The index of the name before the parameters, if a word stands there. -/
  name : Option Nat
  opener : Nat
  closer : Nat
  params : List Part
deriving DecidableEq, Repr

/-- The declaration of a call operator (`symbol` is `round`) or of a subscript operator
(`square`). -/
structure OperatorSignature where
  symbol : Bracket
  /-- The indices of the top-level lexemes before `operator`. -/
  specifiers : List Nat
  /-- The index of `operator`. -/
  name : Nat
  opener : Nat
  paramLexemes : List Lexeme
  params : List Part
deriving DecidableEq, Repr

namespace Bracketed

/-- The function the lexemes declare. -/
def functionDeclarator? (b : Bracketed) : Option FunctionDeclarator :=
  let start := b.skipHeaders 0
  match (b.slice start b.size).parameterList? with
  | none => none
  | some (o, c) =>
    let opener := start + o
    some {
      name := if 0 < opener && b.nameAt (opener - 1) then some (opener - 1) else none
      opener := opener
      closer := start + c
      params := parameters (opener + 1) (b.between (opener + 1) (start + c)) }

/-- The symbol of the operator named at index `k`, room for a parameter list left behind it. -/
def operatorSymbol? (b : Bracketed) (k : Nat) : Option Bracket :=
  if b.wordAt k "operator" && k + 3 < b.size then
    if b.punctAt (k + 1) "(" && b.punctAt (k + 2) ")" then some .round
    else if b.punctAt (k + 1) "[" && b.punctAt (k + 2) "]" then some .square
    else none
  else none

/-- The first top-level index from `start` on that names an operator, with its symbol. -/
def namedOperator? (b : Bracketed) (start : Nat) : Option (Nat × Bracket) :=
  (b.topLevel start b.size).findSome? fun k => (b.operatorSymbol? k).map (k, ·)

/-- The operator the lexemes declare.  An operator called on an object is not declared. -/
def operatorSignature? (b : Bracketed) : Option OperatorSignature :=
  let start := b.skipHeaders 0
  match b.namedOperator? start with
  | none => none
  | some (k, symbol) =>
    if 0 < k && b.punctInAt (k - 1) [".", "->"] then none
    else
      match b.roundEnd? (k + 3) with
      | none => none
      | some c =>
        let lexemes := b.between (k + 4) c
        some {
          symbol := symbol
          specifiers := b.topLevel start k
          name := k
          opener := k + 3
          paramLexemes := lexemes
          params := parameters (k + 4) lexemes }

end Bracketed

end CxxFloor
