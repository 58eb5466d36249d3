/-
# What the scopes say about a place

The facts that travel with a fragment, read off the scopes and groups that are
open when it is cut, and the two questions about an `auto` before a
parenthesis or a brace: whether it ends a trailing return type, and whether it
begins a parameter.
-/
import CxxFloor.Fragment.Basic
import CxxFloor.Scope.Head

namespace CxxFloor

def operandKeywords : List String :=
  ["decltype", "sizeof", "alignof", "alignas", "noexcept", "typeid", "static_assert", "requires"]

namespace Bracketed

/-! ## Trailing return types -/

/-- The tokens before index `k` end in an arrow and a qualified or constrained type name.  With
`depth` angles open, the walk back is inside the arguments of a constraint. -/
def followsArrow (b : Bracketed) : (k depth : Nat) → Bool
  | 0, _ => false
  | k + 1, 0 =>
    if b.nameAt k || b.punctAt k "::" then b.followsArrow k 0
    else if b.punctAt k ">" then b.followsArrow k 1
    else b.punctAt k "->"
  | k + 1, depth + 1 =>
    if b.punctAt k ">" then b.followsArrow k (depth + 2)
    else if b.punctAt k "<" then b.followsArrow k depth
    else if b.punctInAt k [";", "\x7b", "\x7d"] then false
    else b.followsArrow k (depth + 1)

/-! ## Parameters -/

/-- The word `operator` stands before index `k`; before the first token stands the last one. -/
def operatorBefore (b : Bracketed) (k : Nat) : Bool :=
  b.wordAt (if k = 0 then b.size - 1 else k - 1) "operator"

/-- None of these indices holds an `=` outside template argument lists that is no operator's
name. -/
def free (b : Bracketed) : (angles : Nat) → List Nat → Bool
  | _, [] => true
  | angles, k :: ks =>
    if b.punctAt k "<" && 0 < k && b.nameAt (k - 1) then b.free (angles + 1) ks
    else if b.punctAt k ">" && 0 < angles then b.free (angles - 1) ks
    else if b.punctAt k "=" && angles == 0 && !b.operatorBefore k then false
    else b.free angles ks

/-- The parenthesis at index `opener` holds the parameters of the declaration that starts at
index `head`. -/
def opensParameters (b : Bracketed) (head opener : Nat) : Bool :=
  head < opener
    && (b.nameAt (opener - 1) || b.punctAt (opener - 1) ">")
    && !b.textInAt (opener - 1) operandKeywords
    && b.free 0 (b.topLevel head opener)

end Bracketed

namespace ScanState

/-- The `auto` at index `i` begins the declaration of a parameter. -/
def startsParameter (b : Bracketed) (s : ScanState) (i : Nat) : Bool :=
  match s.groups with
  | [] => false
  | group :: outer =>
    0 < i && b.punctInAt (i - 1) ["(", ","] && b.punctAt group.opener "(" &&
      (s.lambdaParameters.contains group.opener
        || (outer.isEmpty && s.scope.kind.holdsDeclarations
          && b.opensParameters s.head group.opener))

/-! ## The facts of a context -/

/-- The place stands in a function or lambda that is, or may be, evaluated at compile time. -/
def inConstantFunction (s : ScanState) : Bool :=
  match s.scopes.find? (·.kind ≠ .block) with
  | some scope => scope.kind.isBody && scope.constant
  | none => false

/-- The query at index `i` stands where a constant expression is required. -/
def inConstantContext (b : Bracketed) (s : ScanState) (i : Nat) : Bool :=
  s.groups.head?.any (·.constant)
    || s.scope.kind == .enumeration
    || (s.atTop && b.declaresConstantVariable s.head i true)

/-- The records that are incomplete: those declared without a body, and those whose body is open
around the place with no function or lambda in between. -/
def incompleteTypes (s : ScanState) : List String :=
  s.forward.filter (!s.completed.contains ·)
    ++ (s.scopes.takeWhile (!·.kind.isBody)).filterMap fun scope =>
      if scope.kind.isClass then scope.name else none

/-- What is known about a fragment that starts at index `first`, whatever its kind. -/
def context (b : Bracketed) (s : ScanState) (first : Nat) : Context :=
  let front := b.headFront s.head b.size
  { inTemplate := front.template || s.scopes.any (·.template)
    inConstantFunction := s.inConstantFunction
    atStatementStart := s.head == first && s.atTop
    templateNames := front.templateNames ++ s.scopes.flatMap (·.templateNames) }

def span (b : Bracketed) (s : ScanState) (kind : FragmentKind) (first last : Nat) : Cut :=
  .span kind first last (s.context b first)

end ScanState

end CxxFloor
