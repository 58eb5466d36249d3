/-
# Features of statements

Features that a statement shows by itself: a compile-time branch, a `try` block
in a function that may be evaluated at compile time, a label with nothing
behind it, a failed assertion without a message, which only a template can
hold, and the attribute that states an assumption.
-/
import CxxFloor.Feature.Verdict

namespace CxxFloor

def examineBranch (v : View) : Verdict :=
  if v.lexemes.back?.any (·.isWord "consteval") then .found none else .absent

/-- A `try` block in a function that may be evaluated at compile time. -/
def examineTry (v : View) : Verdict :=
  if v.context.inConstantFunction then .found (some ⟨0, 0⟩) else .absent

def examineLabel (v : View) : Verdict :=
  if v.next.any (·.isPunct "\x7d") then .found none else .absent

def compileTimeBranch : Matcher := ⟨"compile-time-branch-marker", [.branch], examineBranch⟩

def constantTry : Matcher :=
  ⟨"exception-handling-in-constant-evaluation", [.tryBlock], examineTry⟩

/-- The matcher of labels at the end of a block. -/
def trailingLabel : Matcher := ⟨"label-at-end-of-compound-statement", [.label], examineLabel⟩

/-! ## Assertions and assumptions -/

/-- The only operand of a static assertion. -/
def assertedOperand? (v : View) : Option (List Lexeme) :=
  match v.bracketed.closer? 1 with
  | some c =>
    match splitTopLevel "," false 2 (v.bracketed.between 2 c) with
    | [operand] => some operand.lexemes
    | _ => none
  | none => none

/-- The operand is the word `false` alone. -/
def isFalse : List Lexeme → Bool
  | [t] => t.isWord "false"
  | _ => false

/-- In a template, a static assertion of `false` and nothing else. -/
def examineAssertion (v : View) : Verdict :=
  if v.context.inTemplate && 3 ≤ v.lexemes.size && (assertedOperand? v).any isFalse then
    .found none
  else .absent

def attributesOf (v : View) : List Part :=
  splitTopLevel "," false 2 (v.lexemes.extract 2 (v.lexemes.size - 2)).toList

/-- An attribute that assumes something. -/
def isAssumption : List Lexeme → Bool
  | t :: u :: _ => t.isWord "assume" && u.isPunct "("
  | _ => false

/-- The first attribute of the group that assumes something.  A group that starts with `using`
puts all its attributes into a namespace. -/
def examineAttributes (v : View) : Verdict :=
  if v.bracketed.wordAt 2 "using" && 4 < v.lexemes.size then .absent
  else
    match (attributesOf v).find? fun part => isAssumption part.lexemes with
    | some part => .found (some part.span)
    | none => .absent

def messagelessAssertion : Matcher :=
  ⟨"unconditional-static-assertion-without-message", [.staticAssertion], examineAssertion⟩

def assumeAttribute : Matcher := ⟨"assume-attribute", [.attributeGroup], examineAttributes⟩

end CxxFloor
