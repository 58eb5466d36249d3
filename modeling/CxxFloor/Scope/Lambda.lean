/-
# Recognising lambdas ahead of time

At an opening square bracket the walk decides whether a lambda starts there,
and if so looks ahead for its body: template parameters and their constraint,
parameters, and then specifiers and a return type up to the brace.  The look
ahead passes over whole groups and takes at most `maxLambdaSpecifiers` steps
behind the parameters.
-/
import CxxFloor.Bracket.Split
import CxxFloor.Bracket.Walk
import CxxFloor.Scope.Basic

namespace CxxFloor

/-- The words behind which a square bracket starts a lambda and not a subscript. -/
def wordsBeforeLambda : List String :=
  ["return", "co_return", "co_yield", "co_await", "throw", "case", "else", "do"]

/-- The most steps taken between the parameters of a lambda and its body. -/
def maxLambdaSpecifiers : Nat := 64

/-- What looking ahead from an introducer found: the parentheses of the parameters, and the
scope of the body. -/
structure LambdaAhead where
  parameters : Option Nat := none
  body : Option Scope := none
deriving DecidableEq, Repr

namespace Bracketed

/-- The index of the last token before index `n` that is no reference sign or qualifier is that
of the word `auto`. -/
def bindsStructure (b : Bracketed) : Nat → Bool
  | 0 => false
  | k + 1 =>
    if b.punctInAt k ["&", "&&"] || b.wordInAt k ["const", "volatile"] then b.bindsStructure k
    else b.wordAt k "auto"

/-- A lambda may start at the square bracket at index `i`. -/
def introducesLambda (b : Bracketed) (i : Nat) : Bool :=
  0 < i && (b.pairs.partner? i).isSome &&
    match b.at? (i - 1) with
    | some t =>
      match t.kind with
      | .word => wordsBeforeLambda.contains t.text
      | .punctuator =>
        !([")", "]", "[", ">"].contains t.text)
          && !(["&", "&&"].contains t.text && b.bindsStructure i)
      | _ => false
    | none => false

/-- The brace of the body from index `j` on, and whether a constant specifier stands before it.
The first argument is the number of steps left; `arrow` says that the return type was reached. -/
def lambdaBody? (b : Bracketed) : Nat → Nat → (arrow constant : Bool) → Option (Nat × Bool)
  | 0, _, _, _ => none
  | steps + 1, j, arrow, constant =>
    match b.at? j with
    | none => none
    | some t =>
      if t.isPunct "\x7b" then some (j, constant)
      else if t.kind == .punctuator then
        match b.operandEnd? j with
        | some c => b.lambdaBody? steps (c + 1) arrow constant
        | none =>
          if t.isPunct "->" then b.lambdaBody? steps (j + 1) true constant
          else if t.isPunctIn [";", ")", "]", "\x7d", "="] then none
          else if t.isPunct "," && !arrow then none
          else b.lambdaBody? steps (j + 1) arrow constant
      else if t.isName then
        b.lambdaBody? steps (j + 1) arrow
          (constant || (t.isWordIn ["constexpr", "consteval"] && !arrow))
      else none

/-- The first index from `j` on that holds one of these punctuators, or the end. -/
def nextPunctIn (b : Bracketed) (j : Nat) (ss : List String) : Nat :=
  ((List.range' j (b.size - j)).find? fun k => b.punctInAt k ss).getD (max j b.size)

/-- The template parameters of a lambda, its introducer ending before index `j`: where what
follows them starts, and the names they declare.  `none` if they are never closed. -/
def lambdaTemplate? (b : Bracketed) (j : Nat) : Option (Nat × Option (List String)) :=
  if b.punctAt j "<" then
    match b.angleEnd? j with
    | none => none
    | some c =>
      let next := if b.wordAt (c + 1) "requires" then b.nextPunctIn (c + 1) ["(", "\x7b"] else c + 1
      some (next, some (templateParameterNames (b.between (j + 1) c)))
  else some (j, none)

/-- The lambda that starts at the square bracket at index `i`, seen from inside `enclosing`. -/
def lambdaAhead (b : Bracketed) (enclosing : Scope) (i : Nat) : LambdaAhead :=
  match b.pairs.partner? i with
  | none => {}
  | some close =>
    match b.lambdaTemplate? (close + 1) with
    | none => {}
    | some (j, names?) =>
      if b.punctAt j "(" then
        match b.closer? j with
        | none => {}
        | some c =>
          let generic := (b.between (j + 1) c).any (·.isWord "auto")
          { parameters := some j, body := finish (c + 1) (names?.isSome || generic) names? }
      else { body := finish j names?.isSome names? }
where
  /-- The scope of the body, the parameters ending before index `j`. -/
  finish (j : Nat) (template : Bool) (names? : Option (List String)) : Option Scope :=
    match b.lambdaBody? maxLambdaSpecifiers j false false with
    | some (body, constant) =>
      if (b.closer? body).isSome then
        some {
          kind := .lambda
          opener := body
          constant := constant
          template := template || enclosing.template
          templateNames := names?.getD [] ++ enclosing.templateNames }
      else none
    | none => none

end Bracketed

end CxxFloor
