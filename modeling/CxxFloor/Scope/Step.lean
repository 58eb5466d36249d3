/-
# One step of the walk

A step handles the token at one index: it cuts the fragments that start or end
there, brings scopes, groups and head up to date, and says where the walk goes
on.  Mostly that is the next token; a label, an access specifier and an
attribute group are passed over whole.  Every step moves on (`Move.later`), so
the walk ends without a bound of its own.
-/
import CxxFloor.Scope.Context
import CxxFloor.Scope.Labels
import CxxFloor.Scope.Lambda

namespace CxxFloor

def sizeQueries : List String := ["sizeof", "alignof", "_Alignof", "__alignof__"]

/-- What a step from index `i` does. -/
structure Move (i : Nat) where
  next : Nat
  later : i < next
  state : ScanState
  cuts : List Cut

namespace Move

def one {i : Nat} (state : ScanState) (cuts : List Cut) : Move i :=
  ⟨i + 1, Nat.lt_succ_self i, state, cuts⟩

/-- The walk goes on behind index `last`. -/
def behind {i : Nat} (last : Nat) (later : i < last) (state : ScanState) (cuts : List Cut) :
    Move i :=
  ⟨last + 1, Nat.lt_succ_of_lt later, state, cuts⟩

end Move

namespace ScanState

/-! ## Groups -/

/-- The state with the group that opens at index `i`.  What stands in a constant group is
constant. -/
def openGroup (b : Bracketed) (s : ScanState) (i : Nat) (constant : Bool) : ScanState :=
  if (b.pairs.partner? i).isSome then
    let inherited := s.groups.head?.any (·.constant)
    { s with groups := ⟨i, constant || inherited || s.constantOpeners.contains i⟩ :: s.groups }
  else s

/-- The state without the group that closes at index `i`, and without the groups inside it. -/
def closeGroup (b : Bracketed) (s : ScanState) (i : Nat) : ScanState :=
  match b.pairs.partner? i with
  | none => s
  | some opener => { s with groups := (s.groups.dropWhile (·.opener ≠ opener)).drop 1 }

/-! ## Declarations -/

/-- The declaration from index `start` on and before `stop`. -/
def declarationCuts (b : Bracketed) (s : ScanState) (start stop : Nat) : List Cut :=
  if start < stop then
    let stop := b.withoutTry 0 stop
    if start < stop then
      s.span b .declaration start (stop - 1) ::
        if b.namesOperator start stop then [s.span b .operatorDefinition start (stop - 1)] else []
    else []
  else []

def recordIsOpen (s : ScanState) (name : String) : Bool :=
  s.scopes.any fun scope => scope.kind.isClass && scope.name == some name

/-- The name the head declares as a class without a body. -/
def forwardName? (b : Bracketed) (start stop : Nat) : Option String :=
  match b.between (b.headFront start stop).bodyStart stop with
  | [key, name] => if classKeys.contains key.text && name.isName then some name.text else none
  | _ => none

/-- The state behind a class declared without a body. -/
def noteForward (b : Bracketed) (s : ScanState) (start stop : Nat) : ScanState :=
  match forwardName? b start stop with
  | some name =>
    if s.completed.contains name || s.recordIsOpen name || s.forward.contains name then s
    else { s with forward := name :: s.forward }
  | none => s

/-- The fragments of the declaration that the semicolon at index `i` ends. -/
def statementCuts (b : Bracketed) (s : ScanState) (i : Nat) : List Cut :=
  let body := (b.headFront s.head i).bodyStart
  if i ≤ body then []
  else if b.wordInAt body ["static_assert", "using"] then []
  else if s.scope.kind == .union && b.declaresDataMember body i then
    [s.span b .unionMember s.head (i - 1)]
  else s.declarationCuts b s.head i

/-- A semicolon outside all groups. -/
def endStatement (b : Bracketed) (s : ScanState) (i : Nat) : ScanState × List Cut :=
  if s.scope.kind.holdsDeclarations && s.head < i then
    let s := s.noteForward b s.head i
    ({ s with head := i + 1 }, s.statementCuts b i)
  else ({ s with head := i + 1 }, [])

/-! ## Braces -/

/-- The state inside the body of a lambda. -/
def enterLambda (s : ScanState) (body : Scope) : ScanState :=
  { s with
    lambdaBodies := s.lambdaBodies.filter (·.opener ≠ body.opener)
    scopes := { body with resume := some ⟨s.groups, s.head⟩ } :: s.scopes
    groups := []
    head := body.opener + 1 }

/-- The state inside the scope that the head announces for the brace at index `i`. -/
def enterScope (s : ScanState) (i : Nat) (kind : ScopeKind) (head : Head) : ScanState :=
  { s with
    scopes := {
      kind := kind
      opener := i
      name := head.name
      constant := if kind == .block then s.inConstantFunction else head.constant
      template := head.template
      templateNames := head.templateNames } :: s.scopes
    head := i + 1 }

/-- An opening brace. -/
def openBrace (b : Bracketed) (s : ScanState) (i : Nat) : ScanState × List Cut :=
  if (b.pairs.partner? i).isNone then (s, [])
  else
    match s.lambdaBodies.find? (·.opener = i) with
    | some body => (s.enterLambda body, [])
    | none =>
      if !s.atTop then (s.openGroup b i false, [])
      else
        let head := b.head s.scope s.head i
        match head.kind with
        | none => (s.openGroup b i (b.declaresConstantVariable s.head i false), [])
        | some kind =>
          (s.enterScope i kind head,
            if kind == .function && s.scope.kind.holdsDeclarations then
              s.declarationCuts b s.head i
            else [])

/-- The state with the records among the closed scopes completed. -/
def complete (s : ScanState) (closed : List Scope) : ScanState :=
  let names := closed.filterMap fun scope => if scope.kind.isClass then scope.name else none
  { s with
    completed := names ++ s.completed
    forward := s.forward.filter (!names.contains ·) }

/-- The state without the scope opened at index `opener` and the scopes inside it.  A suspended
statement is taken up again; otherwise one starts behind index `i`. -/
def closeScope (s : ScanState) (i opener : Nat) : ScanState :=
  let inner := s.scopes.takeWhile (·.opener ≠ opener)
  match s.scopes.dropWhile (·.opener ≠ opener) with
  | [] => s
  | scope :: outer =>
    let s := { s.complete (inner ++ [scope]) with scopes := outer }
    match scope.resume with
    | some resume => { s with groups := resume.groups, head := resume.head }
    | none => { s with head := i + 1 }

/-- A closing brace.  One without a partner ends the statement in progress; one that closes a
scope inside an unfinished expression drops the expression. -/
def closeBrace (b : Bracketed) (s : ScanState) (i : Nat) : ScanState :=
  match b.pairs.partner? i with
  | none => if s.atTop then { s with head := i + 1 } else s
  | some opener =>
    if s.groups.any (·.opener = opener) then s.closeGroup b i
    else { s with groups := [] }.closeScope i opener

/-! ## Square brackets -/

/-- The state and the fragment of a lambda that the square bracket at index `i` introduces. -/
def noteLambda (b : Bracketed) (s : ScanState) (i : Nat) : ScanState × List Cut :=
  if b.introducesLambda i then
    let ahead := b.lambdaAhead s.scope i
    let s := { s with lambdaParameters := ahead.parameters.toList ++ s.lambdaParameters }
    match ahead.body with
    | some body =>
      ({ s with lambdaBodies := body :: s.lambdaBodies }, [s.span b .captureList i (body.opener - 1)])
    | none => (s, [])
  else (s, [])

/-- The square bracket at index `i` holds the bound of an array that is declared. -/
def opensArrayBound (b : Bracketed) (s : ScanState) (i : Nat) : Bool :=
  s.atTop && s.scope.kind.holdsDeclarations && 0 < i
    && (b.nameAt (i - 1) || b.punctAt (i - 1) "]")

/-! ## Words -/

/-- The branch that the `if` at index `i` starts: its last token, and the parenthesis that a
`constexpr` makes constant. -/
def branchEnd (b : Bracketed) (i : Nat) : Nat × Option Nat :=
  if b.punctAt (i + 1) "!" || b.wordAt (i + 1) "not" then
    (if b.wordAt (i + 2) "consteval" then i + 2 else i, none)
  else if b.textInAt (i + 1) ["constexpr"] then
    (i + 1, if b.punctAt (i + 2) "(" then some (i + 2) else none)
  else if b.textInAt (i + 1) ["consteval"] then (i + 1, none)
  else (i, none)

/-- The `try` at index `i` stands in a function that is, or may be, evaluated at compile time;
before the function's brace its head decides. -/
def tryIsConstant (b : Bracketed) (s : ScanState) (i : Nat) : Bool :=
  s.inConstantFunction
    || (s.scope.kind.holdsDeclarations && b.declaresConstantFunction s.head i)

/-- The fragment of a size query with its operand up to index `close`. -/
def sizeQueryCut (b : Bracketed) (s : ScanState) (i close : Nat) : Cut :=
  .span .sizeQuery i close
    { s.context b i with
      constantContext := s.inConstantContext b i
      incompleteTypes := s.incompleteTypes }

def tryCut (b : Bracketed) (s : ScanState) (i : Nat) : Cut :=
  .span .tryBlock i (i + 1) { s.context b i with inConstantFunction := s.tryIsConstant b i }

/-- The fragment of an `auto` with its operand up to index `close`. -/
def callCut (b : Bracketed) (s : ScanState) (i close : Nat) : Cut :=
  .span .call i close
    { s.context b i with placeholderType := b.followsArrow i 0 || s.startsParameter b i }

/-- What the word `text` at index `i` cuts, and the constant parentheses it announces. -/
def wordCuts (b : Bracketed) (s : ScanState) (i : Nat) (text : String) : ScanState × List Cut :=
  let announce (opener : Nat) : ScanState :=
    { s with constantOpeners := opener :: s.constantOpeners }
  if text == "static_assert" then
    match b.roundEnd? (i + 1) with
    | some close => (announce (i + 1), [s.span b .staticAssertion i close])
    | none => (s, [])
  else if sizeQueries.contains text then
    match b.roundEnd? (i + 1) with
    | some close => (s, [s.sizeQueryCut b i close])
    | none => (s, [])
  else if text == "alignas" then
    if b.punctAt (i + 1) "(" then (announce (i + 1), []) else (s, [])
  else if text == "if" then
    let (last, constant?) := branchEnd b i
    (match constant? with
      | some opener => announce opener
      | none => s,
      [s.span b .branch i last])
  else if text == "try" then
    if b.punctAt (i + 1) "\x7b" then (s, [s.tryCut b i]) else (s, [])
  else if text == "auto" && b.punctInAt (i + 1) ["(", "\x7b"] then
    match b.closer? (i + 1) with
    | some close => (s, [s.callCut b i close])
    | none => (s, [])
  else (s, [])

def startsStatement (s : ScanState) (i : Nat) : Bool := s.head == i && s.atTop

/-- The colon of the label that starts at index `i`: in a scope of code, at the start of a
statement. -/
def labelEnd? (b : Bracketed) (s : ScanState) (i : Nat) : Option Nat :=
  if s.startsStatement i && s.scope.kind.holdsCode then b.labelEnd? i else none

theorem lt_of_labelEnd? {b : Bracketed} {s : ScanState} {i k : Nat}
    (h : s.labelEnd? b i = some k) : i < k := by
  unfold labelEnd? at h
  split at h
  · exact Bracketed.lt_of_labelEnd? h
  · cases h

/-- The word `text` at index `i`. -/
def wordStep (b : Bracketed) (s : ScanState) (i : Nat) (text : String) : Move i :=
  if s.startsStatement i && s.scope.kind.isClass && accessSpecifiers.contains text
      && b.punctAt (i + 1) ":" then
    .behind (i + 1) (Nat.lt_succ_self i) { s with head := i + 2 } []
  else
    match h : s.labelEnd? b i with
    | some colon =>
      .behind colon (lt_of_labelEnd? h) { s with head := colon + 1 } [s.span b .label i colon]
    | none =>
      let (s, cuts) := s.wordCuts b i text
      .one s cuts

/-- The square bracket at index `i`. -/
def squareStep (b : Bracketed) (s : ScanState) (i : Nat) : Move i :=
  match h : b.attributeEnd? i with
  | some close =>
    .behind close (Bracketed.lt_of_attributeEnd? h) s [s.span b .attributeGroup i close]
  | none =>
    let (s, cuts) := s.noteLambda b i
    .one (s.openGroup b i (s.opensArrayBound b i)) cuts

/-! ## The step -/

/-- The punctuator `text` at index `i`, other than an opening square bracket. -/
def punctuatorStep (b : Bracketed) (s : ScanState) (i : Nat) (text : String) :
    ScanState × List Cut :=
  if text == "(" then (s.openGroup b i false, [])
  else if text == ")" || text == "]" then (s.closeGroup b i, [])
  else if text == "\x7b" then s.openBrace b i
  else if text == "\x7d" then (s.closeBrace b i, [])
  else if text == ";" && s.atTop then s.endStatement b i
  else (s, [])

/-- The token `t` at index `i`. -/
def step (b : Bracketed) (s : ScanState) (i : Nat) (t : Lexeme) : Move i :=
  match t.kind with
  | .number => .one s [s.span b .literal i i]
  | .word => s.wordStep b i t.text
  | .punctuator =>
    if t.text == "[" then s.squareStep b i
    else
      let (s, cuts) := s.punctuatorStep b i t.text
      .one s cuts
  | .string | .character | .directive => .one s []

end ScanState

end CxxFloor
