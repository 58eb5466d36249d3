/-
# What a statement head announces

A head is the run of tokens from the start of a statement to a brace or a
semicolon.  Template headers, attributes and leading specifiers are stripped
from its front first; what the brace opens is then decided from the first
token that is left, in a fixed order: linkage and namespaces, control
statements, class definitions, and last, in a scope of declarations, a
function.  A head that announces none of these leaves the brace to an
initialiser.
-/
import CxxFloor.Bracket.ParameterList
import CxxFloor.Bracket.Split
import CxxFloor.Scope.Basic

namespace CxxFloor

/-! ## Words that decide -/

def classKeys : List String := ["struct", "class", "union"]

def controlKeywords : List String :=
  ["if", "else", "for", "while", "switch", "do", "try", "catch", "case", "default"]

def leadingSpecifiers : List String := ["export", "typedef", "inline", "friend"]

def blockHeadEndings : List String := ["else", "do", "try", "consteval"]

/-- What may stand between a class key and the name of the class. -/
def classNameSkips : List String := ["alignas", "class", "struct", "__declspec", "__attribute__"]

/-! ## The front of a head -/

/-- A head without its front: where the rest starts, and what the template headers said. -/
structure HeadFront where
  bodyStart : Nat
  template : Bool := false
  templateNames : List String := []
deriving DecidableEq, Repr

/-- What a head announces.  `kind` is absent when a brace behind the head belongs to an
initialiser. -/
structure Head where
  kind : Option ScopeKind
  bodyStart : Nat
  name : Option String := none
  constant : Bool := false
  template : Bool := false
  templateNames : List String := []
deriving DecidableEq, Repr

namespace Bracketed

/-- The end of the template header at index `k`, if it lies before `stop`. -/
def templateHeaderEnd? (b : Bracketed) (k stop : Nat) : Option Nat :=
  if b.wordAt k "template" && k + 1 < stop && b.punctAt (k + 1) "<" then
    (b.angleEnd? (k + 1)).filter (· < stop)
  else none

theorem lt_of_templateHeaderEnd? {b : Bracketed} {k stop c : Nat}
    (h : b.templateHeaderEnd? k stop = some c) : k < c := by
  unfold templateHeaderEnd? at h
  split at h
  · have := le_of_angleEnd? (Option.filter_eq_some_iff.1 h).1
    omega
  · cases h

/-- The front of the head from index `k` on and before `stop`. -/
def headFront (b : Bracketed) (k stop : Nat) : HeadFront :=
  if k < stop then
    match h : b.templateHeaderEnd? k stop with
    | some c =>
      let rest := b.headFront (c + 1) stop
      { rest with
        template := true
        templateNames := templateParameterNames (b.between (k + 2) c) ++ rest.templateNames }
    | none =>
      match h' : b.attributeEnd? k with
      | some c =>
        if k + 1 < stop then b.headFront (c + 1) stop else { bodyStart := k }
      | none =>
        if b.wordInAt k leadingSpecifiers then b.headFront (k + 1) stop
        else { bodyStart := k }
  else { bodyStart := k }
termination_by stop - k
decreasing_by
  · have := lt_of_templateHeaderEnd? h; omega
  · have := lt_of_attributeEnd? h'; omega
  · omega

/-! ## The body of a head -/

/-- An `=` at the top level of the range is no operator's name. -/
def hasInitializer (b : Bracketed) (start stop : Nat) : Bool :=
  (b.topLevel start stop).any fun k =>
    b.punctAt k "=" && !(start < k && b.wordAt (k - 1) "operator")

/-- The name of the class whose key stands before index `k`. -/
def className? (b : Bracketed) (k stop : Nat) : Option String :=
  if k < stop then
    match h : b.operandEnd? k with
    | some c => b.className? (c + 1) stop
    | none =>
      match b.at? k with
      | some t =>
        if t.isWordIn classNameSkips then b.className? (k + 1) stop
        else if t.isName then some t.text
        else none
      | none => none
  else none
termination_by stop - k
decreasing_by
  · have := lt_of_operandEnd? h; omega
  · omega

/-- The brace at `stop` goes on with the member initialisers of a constructor whose parameters
end before index `start`. -/
def continuesMemberInitializers (b : Bracketed) (start stop : Nat) : Bool :=
  ((b.topLevel start stop).any fun k => b.punctAt k ":")
    && (b.nameAt (stop - 1) || b.punctAt (stop - 1) ">")

/-- One of these words stands at the top level before index `stop`. -/
def topLevelWord (b : Bracketed) (stop : Nat) (words : List String) : Bool :=
  (b.topLevel 0 stop).any fun k => b.wordInAt k words

/-- The range ends with this index, a `try` that starts a function's handlers left out. -/
def withoutTry (b : Bracketed) (start stop : Nat) : Nat :=
  if start < stop && b.wordAt (stop - 1) "try" then stop - 1 else stop

/-- The head declares a function that is, or may be, evaluated at compile time. -/
def declaresConstantFunction (b : Bracketed) (start stop : Nat) : Bool :=
  let declarator := b.slice (b.headFront start stop).bodyStart stop
  match declarator.parameterList? with
  | some (opener, _) => declarator.topLevelWord opener ["constexpr", "consteval"]
  | none => false

/-- The head declares a constant variable whose initialiser starts before index `stop`.  Without
`requireEquals`, an initialiser in braces counts, and it starts at `stop`. -/
def declaresConstantVariable (b : Bracketed) (start stop : Nat) (requireEquals : Bool) : Bool :=
  let declarator := b.slice (b.headFront start stop).bodyStart stop
  declarator.topLevelWord declarator.size ["constexpr", "constinit"] &&
    match (declarator.topLevel 0 declarator.size).find? fun k => declarator.punctAt k "=" with
    | some equals => (declarator.take equals).parameterList?.isNone
    | none => !requireEquals && declarator.parameterList?.isNone

/-- The head names a call or a subscript operator that it does not call on an object. -/
def namesOperator (b : Bracketed) (start stop : Nat) : Bool :=
  (List.range' start (stop - 2 - start)).any fun k =>
    b.wordAt k "operator"
      && !(start < k && b.punctInAt (k - 1) [".", "->"])
      && ((b.punctAt (k + 1) "(" && b.punctAt (k + 2) ")")
        || (b.punctAt (k + 1) "[" && b.punctAt (k + 2) "]"))

/-- The head declares a data member. -/
def declaresDataMember (b : Bracketed) (start stop : Nat) : Bool :=
  let declarator := b.slice start stop
  !b.wordInAt start (classKeys ++ ["enum", "static", "friend"])
    && !declarator.topLevelWord declarator.size ["static"]
    && declarator.parameterList?.isNone

/-! ## The decision -/

/-- What a class definition with this key opens. -/
def classScope (key : Option Lexeme) : ScopeKind :=
  match key.map (·.text) with
  | some "union" => .union
  | some "enum" => .enumeration
  | _ => .record

def endsControlHead (b : Bracketed) (last : Nat) : Bool :=
  b.punctInAt last [")", ":"] || b.textInAt last blockHeadEndings

/-- What the declarator from `start` on and before `stop` announces in a scope of
declarations: a function, unless the brace belongs to an initialiser. -/
def functionHead? (b : Bracketed) (start stop : Nat) : Option Bool :=
  let declarator := b.slice start stop
  match declarator.parameterList? with
  | some (opener, closer) =>
    if b.continuesMemberInitializers (start + closer + 1) stop then none
    else some (declarator.topLevelWord opener ["constexpr", "consteval"])
  | none => none

/-- What the head from `start` on and before `stop` announces inside `scope`. -/
def head (b : Bracketed) (scope : Scope) (start stop : Nat) : Head :=
  let front := b.headFront start stop
  let body := front.bodyStart
  let stop := b.withoutTry body stop
  let initializer : Head := { kind := none, bodyStart := body }
  let opens (kind : ScopeKind) : Head :=
    { kind := some kind
      bodyStart := body
      template := front.template || scope.template
      templateNames := front.templateNames ++ scope.templateNames }
  if stop ≤ body then opens .block
  else if b.wordAt body "namespace"
      || (b.wordAt body "extern" && body + 1 < stop
        && (b.at? (body + 1)).any (·.kind == .string)) then
    { kind := some .namespaceScope, bodyStart := body }
  else if b.wordInAt body controlKeywords then
    if b.endsControlHead (stop - 1) then opens .block else initializer
  else if b.wordInAt body (classKeys ++ ["enum"]) && !b.hasInitializer body stop then
    { opens (classScope (b.at? body)) with name := b.className? (body + 1) stop }
  else if scope.kind.holdsCode then
    if b.punctAt (stop - 1) ":" then opens .block else initializer
  else if b.hasInitializer body stop then initializer
  else
    match b.functionHead? body stop with
    | some constant => { opens .function with constant := constant }
    | none => initializer

end Bracketed

end CxxFloor
