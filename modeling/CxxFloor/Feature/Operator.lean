/-
# Features of call and subscript operators

Static operators, and subscript operators with any number of indices but one.
An explicit object parameter is no index, and a parameter list spelled `void`
has none.  A `<` or `>` behind the `=` of a default may be a comparison or an
argument list; if the two readings disagree on whether there are two indices,
that is a note.
-/
import CxxFloor.Declarator.Function
import CxxFloor.Declarator.Lambda
import CxxFloor.Declarator.ObjectParameter
import CxxFloor.Feature.Verdict

namespace CxxFloor

/-! ## Static operators -/

/-- The operator with this symbol is declared static: from the specifier to the symbol. -/
def staticOperator? (b : Bracketed) (symbol : Bracket) : Option Span := do
  let signature ← b.operatorSignature?
  if signature.symbol ≠ symbol then none
  let first ← signature.specifiers.find? fun k => b.wordAt k "static"
  pure ⟨first, signature.name + 2⟩

/-- The specifier that makes a lambda static: it stands before the return type. -/
def staticLambda? (b : Bracketed) : Option Span := do
  let d ← b.lambdaDeclarator?
  let words := d.specifiers.lexemes.takeWhile fun t => !t.isPunct "->"
  let k ← words.findIdx? (·.isWord "static")
  pure ⟨d.specifiers.start + k, d.specifiers.start + k⟩

/-- A static call operator, or a static lambda. -/
def examineStaticCall (v : View) : Verdict :=
  let span? :=
    if v.kind == .captureList then staticLambda? v.bracketed else staticOperator? v.bracketed .round
  match span? with
  | some span => .found (some span)
  | none => .absent

/-- A static subscript operator. -/
def examineStaticSubscript (v : View) : Verdict :=
  match staticOperator? v.bracketed .square with
  | some span => .found (some span)
  | none => .absent

/-! ## Indices -/

def subscript? (v : View) : Option OperatorSignature :=
  v.bracketed.operatorSignature?.filter (·.symbol == .square)

def OperatorSignature.nameSpan (s : OperatorSignature) : Span := ⟨s.name, s.name + 2⟩

def withoutObject (params : List Part) : List Part :=
  if (objectParameter? params).isSome then params.drop 1 else params

/-- The parameters that are indices. -/
def indexParameters (params : List Part) : List Part :=
  let rest := withoutObject params
  if isVoidList rest then [] else rest

def isPack (part : Part) : Bool := part.lexemes.any (·.isPunct "...")

/-- A `<` or `>` stands behind the `=` of a default and before the next comma. -/
def angleInDefault : (inDefault : Bool) → List Lexeme → Bool
  | _, [] => false
  | inDefault, t :: ts =>
    if t.isPunct "=" then angleInDefault true ts
    else if t.isPunct "," then angleInDefault false ts
    else (inDefault && t.isPunctIn ["<", ">"]) || angleInDefault inDefault ts

/-- Of two readings of a parameter list, one has two indices and the other has not. -/
def readingsDisagree (m n : Nat) : Bool := min m n < 2 && 2 ≤ max m n

/-- A subscript operator with several indices, or with a pack. -/
def examineManyIndices (v : View) : Verdict :=
  match subscript? v with
  | none => .absent
  | some signature =>
    let indices := indexParameters signature.params
    let plain := withoutObject (splitTopLevel "," false (signature.opener + 1) signature.paramLexemes)
    if indices.any isPack then .found (some signature.nameSpan)
    else if readingsDisagree plain.length indices.length
        && angleInDefault false signature.paramLexemes then
      .ambiguous (some signature.nameSpan)
        "default argument with '<' or '>' makes the parameter count undecidable"
        ["multi-argument-subscript-operator"]
    else if 2 ≤ indices.length then .found (some signature.nameSpan)
    else .absent

/-- A subscript operator without an index. -/
def examineNoIndex (v : View) : Verdict :=
  match subscript? v with
  | some signature =>
    if (indexParameters signature.params).isEmpty then .found (some signature.nameSpan) else .absent
  | none => .absent

def staticCall : Matcher :=
  ⟨"static-call-operator", [.operatorDefinition, .captureList], examineStaticCall⟩

def staticSubscript : Matcher :=
  ⟨"static-subscript-operator", [.operatorDefinition], examineStaticSubscript⟩

def manyIndices : Matcher :=
  ⟨"multi-argument-subscript-operator", [.operatorDefinition], examineManyIndices⟩

def noIndex : Matcher := ⟨"zero-argument-subscript-operator", [.operatorDefinition], examineNoIndex⟩

end CxxFloor
