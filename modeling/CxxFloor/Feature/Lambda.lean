/-
# Features of lambdas and of explicit object parameters

A leading `this` parameter is one of two features: it is deduced at the call,
or its type is fixed.  Which of the two depends on the function's own template
parameters, so exactly one of the two is there whenever the parameter is.  In
a lambda, capturing `*this` beside such a parameter is a feature of its own.

Another is a lambda that has specifiers, a return type or attributes but no
parentheses.  A constraint alone does not count: it could stand there before.
-/
import CxxFloor.Declarator.Function
import CxxFloor.Declarator.Lambda
import CxxFloor.Declarator.ObjectParameter
import CxxFloor.Feature.Verdict

namespace CxxFloor

/-- The explicit object parameter of a lambda, and the names its template parameters declare. -/
def lambdaObjectParameter? (b : Bracketed) : Option (ObjectParameter × List String) := do
  let d ← b.lambdaDeclarator?
  let p ← objectParameter? (← d.params)
  pure (p, templateParameterNames d.templateParameters)

/-- The explicit object parameter of a function, and the names its template headers declare. -/
def functionObjectParameter? (b : Bracketed) : Option (ObjectParameter × List String) := do
  let d ← b.functionDeclarator?
  let p ← objectParameter? d.params
  pure (p, b.headerNames 0)

/-- The explicit object parameter the view declares, and the names that make it deduced. -/
def objectParameterOf? (v : View) : Option (ObjectParameter × List String) :=
  if v.kind == .captureList then lambdaObjectParameter? v.bracketed
  else functionObjectParameter? v.bracketed

/-- An explicit object parameter that is deduced, or that is not, as `deduced` says. -/
def examineObjectParameter (deduced : Bool) (v : View) : Verdict :=
  match objectParameterOf? v with
  | some (p, names) =>
    if p.deduced names == deduced then .found (some p.declared.span) else .absent
  | none => .absent

/-- The capture is `*this`. -/
def capturesObject : List Lexeme → Bool
  | [t, u] => t.isPunct "*" && u.isWord "this"
  | _ => false

/-- `*this` captured by a lambda with an explicit object parameter. -/
def examineCapture (v : View) : Verdict :=
  match v.bracketed.lambdaDeclarator? with
  | some d =>
    if (d.params.bind objectParameter?).isSome then
      match d.captures.find? fun part => capturesObject part.lexemes with
      | some part => .found (some part.span)
      | none => .absent
    else .absent
  | none => .absent

def deducedObjectParameter : Matcher :=
  ⟨"deduced-return-type-as-parameter", [.declaration, .captureList], examineObjectParameter true⟩

def fixedObjectParameter : Matcher :=
  ⟨"explicit-object-parameter", [.declaration, .captureList], examineObjectParameter false⟩

/-- The matcher of `*this` captures. -/
def objectCapture : Matcher := ⟨"enclosing-instance-value-capture", [.captureList], examineCapture⟩

/-! ## Lambdas without a parameter list -/

/-- Specifiers behind no parameter list. -/
def examineLambdaSpecifiers (v : View) : Verdict :=
  match v.bracketed.lambdaDeclarator? with
  | some d =>
    match d.params, d.specifiers.lexemes with
    | none, t :: _ => if t.isWord "requires" then .absent else .found none
    | _, _ => .absent
  | none => .absent

def parameterlessSpecifiers : Matcher :=
  ⟨"parameterless-lambda-specifiers", [.captureList], examineLambdaSpecifiers⟩

end CxxFloor
