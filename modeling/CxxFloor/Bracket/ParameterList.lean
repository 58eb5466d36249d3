/-
# The parameter list of a declaration

Which parentheses of a declaration hold its parameters: the first ones at the
top level that follow a name, unless the name is a keyword with an operand in
parentheses, or that follow a template argument list.  Behind `operator` the
operator's own symbol is passed over first.  A default or an initialiser ends
the search.
-/
import CxxFloor.Bracket.Walk

namespace CxxFloor

/-- Keywords that take an operand in parentheses and never name a declarator. -/
def nonDeclaratorKeywords : List String :=
  ["explicit", "alignas", "decltype", "noexcept", "requires", "sizeof", "alignof",
   "static_assert", "__attribute__", "__declspec", "throw", "typeid"]

namespace Bracketed

def nextRound? (b : Bracketed) (i : Nat) : Option Nat :=
  (List.range' i (b.size - i)).find? fun k => b.punctAt k "("

/-- Where the parameters of an operator function may open, its symbol starting at index `i`. -/
def operatorParametersAt? (b : Bracketed) (i : Nat) : Option Nat :=
  match b.operandEnd? i with
  | some c => some (c + 1)
  | none => b.nextRound? i

/-- The parameter list of the operator function whose symbol starts at index `i`. -/
def operatorParameterList? (b : Bracketed) (i : Nat) : Option (Nat × Nat) := do
  let k ← b.operatorParametersAt? i
  let c ← b.roundEnd? k
  pure (k, c)

/-- What stands before index `i` may name a function. -/
def declaratorBefore (b : Bracketed) (i : Nat) : Bool :=
  0 < i &&
    (((b.at? (i - 1)).any fun t => t.isName && !nonDeclaratorKeywords.contains t.text)
      || b.punctAt (i - 1) ">")

/-- The parameter list found from index `i` on. -/
def parameterListFrom? (b : Bracketed) (i : Nat) : Option (Nat × Nat) :=
  if i < b.size then
    if b.wordAt i "operator" then b.operatorParameterList? (i + 1)
    else if (b.at? i).any (·.opens?.isSome) then
      match h : b.closer? i with
      | none => none
      | some c =>
        if b.punctAt i "(" && b.declaratorBefore i then some (i, c)
        else b.parameterListFrom? (c + 1)
    else if b.punctAt i "<" && 0 < i && b.wordAt (i - 1) "template" then
      match h : b.angleEnd? i with
      | none => none
      | some c => b.parameterListFrom? (c + 1)
    else if b.punctInAt i ["=", ";"] then none
    else b.parameterListFrom? (i + 1)
  else none
termination_by b.size - i
decreasing_by
  · have := Pairing.lt_of_closer? h; omega
  · have := le_of_angleEnd? h; omega
  · omega

/-- The opening and the closing parenthesis of the declaration's parameter list. -/
def parameterList? (b : Bracketed) : Option (Nat × Nat) := b.parameterListFrom? 0

end Bracketed

end CxxFloor
