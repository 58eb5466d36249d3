/-
# A walk that takes nothing for granted

A step of the walk asks before most of its reads whether there is a token.
Where it does not ask, `ScanState.step` goes on as if there were one, but not
the one looked for; and so do the two matchers that take it that a fragment has
enough tokens.  Here each is done over in the option monad and stops at the
first token or partner that is missing, and at a cut without a token
(`Checked.step`, `Checked.examineBranch`, `Checked.examinePlaceholder`).

A search over a range reads all of it, and so at least what it needs.  What
keeps to a slice of the file, or asks at every token, is taken over as it is.
-/
import CxxFloor.Feature.Placeholder
import CxxFloor.Feature.Statement
import CxxFloor.Scope.Step

namespace CxxFloor

namespace Checked

/-- The token at index `k` passes the test. -/
def ask (b : Bracketed) (k : Nat) (test : Lexeme → Bool) : Option Bool := (b.at? k).map test

/-- The indices at the top level, each of which holds a token. -/
def topLevel (b : Bracketed) (i stop : Nat) : Option (List Nat) :=
  if i < stop then do
    let t ← b.at? i
    match h : if t.opens?.isSome then b.closer? i else none with
    | some j => return i :: (← topLevel b (j + 1) stop)
    | none => return i :: (← topLevel b (i + 1) stop)
  else some []
termination_by stop - i
decreasing_by
  · split at h
    · have := Pairing.lt_of_closer? h; omega
    · cases h
  · omega

/-! ## Heads -/

def startsHeader (b : Bracketed) (k stop : Nat) : Option Bool :=
  ask b k (·.isWord "template") <&&>
    (pure (decide (k + 1 < stop)) <&&> ask b (k + 1) (·.isPunct "<"))

def startsAttribute (b : Bracketed) (k stop : Nat) : Option Bool :=
  ask b k (·.isPunct "[") <&&> (pure (decide (k + 1 < stop)) <&&> ask b (k + 1) (·.isPunct "["))

def headFront (b : Bracketed) (k stop : Nat) : Option HeadFront :=
  if k < stop then do
    if ← startsHeader b k stop then
      match h : (b.angleEnd? (k + 1)).filter (· < stop) with
      | some c =>
        let rest ← headFront b (c + 1) stop
        return { rest with
          template := true
          templateNames := templateParameterNames (b.between (k + 2) c) ++ rest.templateNames }
      | none => return { bodyStart := k }
    else if ← startsAttribute b k stop then
      match h : b.closer? k with
      | some c => headFront b (c + 1) stop
      | none => return { bodyStart := k }
    else if ← ask b k (·.isWordIn leadingSpecifiers) then headFront b (k + 1) stop
    else return { bodyStart := k }
  else some { bodyStart := k }
termination_by stop - k
decreasing_by
  · have := Bracketed.le_of_angleEnd? (Option.filter_eq_some_iff.1 h).1; omega
  · have := Pairing.lt_of_closer? h; omega
  · omega

def hasInitializer (b : Bracketed) (start stop : Nat) : Option Bool := do
  (← topLevel b start stop).anyM fun k =>
    ask b k (·.isPunct "=") <&&>
      not <$> (pure (decide (start < k)) <&&> ask b (k - 1) (·.isWord "operator"))

def className (b : Bracketed) (k stop : Nat) : Option (Option String) :=
  if k < stop then do
    let t ← b.at? k
    match h : if t.isPunctIn ["(", "["] then b.closer? k else none with
    | some c => className b (c + 1) stop
    | none =>
      if t.isWordIn classNameSkips then className b (k + 1) stop
      else return if t.isName then some t.text else none
  else some none
termination_by stop - k
decreasing_by
  · split at h
    · have := Pairing.lt_of_closer? h; omega
    · cases h
  · omega

def continuesMemberInitializers (b : Bracketed) (start stop : Nat) : Option Bool := do
  (← topLevel b start stop).anyM (fun k => ask b k (·.isPunct ":")) <&&>
    ask b (stop - 1) fun t => t.isName || t.isPunct ">"

def withoutTry (b : Bracketed) (start stop : Nat) : Option Nat := do
  if ← pure (decide (start < stop)) <&&> ask b (stop - 1) (·.isWord "try") then return stop - 1
  else return stop

def namesOperator (b : Bracketed) (start stop : Nat) : Option Bool :=
  (List.range' start (stop - 2 - start)).anyM fun k =>
    ask b k (·.isWord "operator") <&&>
      (not <$> (pure (decide (start < k)) <&&> ask b (k - 1) (·.isPunctIn [".", "->"])) <&&> do
        let t ← b.at? (k + 1)
        let u ← b.at? (k + 2)
        return (t.isPunct "(" && u.isPunct ")") || (t.isPunct "[" && u.isPunct "]"))

def declaresDataMember (b : Bracketed) (start stop : Nat) : Option Bool := do
  let first ← b.at? start
  let declarator := b.slice start stop
  return !first.isWordIn (classKeys ++ ["enum", "static", "friend"])
    && !declarator.topLevelWord declarator.size ["static"]
    && declarator.parameterList?.isNone

def declaresConstantFunction (b : Bracketed) (start stop : Nat) : Option Bool := do
  let declarator := b.slice (← headFront b start stop).bodyStart stop
  return match declarator.parameterList? with
    | some (opener, _) => declarator.topLevelWord opener ["constexpr", "consteval"]
    | none => false

def declaresConstantVariable (b : Bracketed) (start stop : Nat) (requireEquals : Bool) :
    Option Bool := do
  let declarator := b.slice (← headFront b start stop).bodyStart stop
  return declarator.topLevelWord declarator.size ["constexpr", "constinit"] &&
    match (declarator.topLevel 0 declarator.size).find? fun k => declarator.punctAt k "=" with
    | some equals => (declarator.take equals).parameterList?.isNone
    | none => !requireEquals && declarator.parameterList?.isNone

def functionHead (b : Bracketed) (start stop : Nat) : Option (Option Bool) :=
  let declarator := b.slice start stop
  match declarator.parameterList? with
  | some (opener, closer) => do
    if ← continuesMemberInitializers b (start + closer + 1) stop then return none
    else return some (declarator.topLevelWord opener ["constexpr", "consteval"])
  | none => return none

/-- A body that starts with the token `first` at index `body` opens a namespace.  `Bracketed.head`
does not ask for an `inline` there, since the front of a head goes past it. -/
def opensNamespace (b : Bracketed) (body stop : Nat) (first : Lexeme) : Option Bool :=
  (pure (first.isWord "namespace") <||>
      (pure (first.isWord "inline") <&&> ask b (body + 1) (·.isWord "namespace"))) <||>
    (pure (first.isWord "extern" && decide (body + 1 < stop)) <&&>
      ask b (body + 1) (·.kind == .string))

def head (b : Bracketed) (scope : Scope) (start stop : Nat) : Option Head := do
  let front ← headFront b start stop
  let body := front.bodyStart
  let stop ← withoutTry b body stop
  let initializer : Head := { kind := none, bodyStart := body }
  let opens (kind : ScopeKind) : Head :=
    { kind := some kind
      bodyStart := body
      template := front.template || scope.template
      templateNames := front.templateNames ++ scope.templateNames }
  if stop ≤ body then return opens .block
  let first ← b.at? body
  if ← opensNamespace b body stop first then
    return { kind := some .namespaceScope, bodyStart := body }
  if first.isWordIn controlKeywords then
    let last ← b.at? (stop - 1)
    return if last.isPunctIn [")", ":"] || blockHeadEndings.contains last.text then opens .block
      else initializer
  let equals ← hasInitializer b body stop
  if first.isWordIn (classKeys ++ ["enum"]) && !equals then
    return { opens (Bracketed.classScope (some first)) with
      name := ← className b (body + 1) stop }
  if scope.kind.holdsCode then
    return if ← ask b (stop - 1) (·.isPunct ":") then opens .block else initializer
  if equals then return initializer
  match ← functionHead b body stop with
  | some constant => return { opens .function with constant := constant }
  | none => return initializer

/-! ## Places -/

def followsArrow (b : Bracketed) : (k depth : Nat) → Option Bool
  | 0, _ => some false
  | k + 1, 0 => do
    let t ← b.at? k
    if t.isName || t.isPunct "::" then followsArrow b k 0
    else if t.isPunct ">" then followsArrow b k 1
    else return t.isPunct "->"
  | k + 1, depth + 1 => do
    let t ← b.at? k
    if t.isPunct ">" then followsArrow b k (depth + 2)
    else if t.isPunct "<" then followsArrow b k depth
    else if t.isPunctIn [";", "\x7b", "\x7d"] then return false
    else followsArrow b k (depth + 1)

def free (b : Bracketed) : (angles : Nat) → List Nat → Option Bool
  | _, [] => some true
  | angles, k :: ks => do
    let t ← b.at? k
    if ← pure (t.isPunct "<" && decide (0 < k)) <&&> ask b (k - 1) (·.isName) then
      free b (angles + 1) ks
    else if t.isPunct ">" && decide (0 < angles) then free b (angles - 1) ks
    else if ← pure (t.isPunct "=" && angles == 0) <&&>
        not <$> ask b (if k = 0 then b.size - 1 else k - 1) (·.isWord "operator") then
      return false
    else free b angles ks

def opensParameters (b : Bracketed) (head opener : Nat) : Option Bool :=
  pure (decide (head < opener)) <&&> do
    let last ← b.at? (opener - 1)
    if (last.isName || last.isPunct ">") && !operandKeywords.contains last.text then
      free b 0 (← topLevel b head opener)
    else return false

def startsParameter (b : Bracketed) (s : ScanState) (i : Nat) : Option Bool :=
  match s.groups with
  | [] => some false
  | group :: outer =>
    pure (decide (0 < i)) <&&> (ask b (i - 1) (·.isPunctIn ["(", ","]) <&&>
      (ask b group.opener (·.isPunct "(") <&&>
        (pure (s.lambdaParameters.contains group.opener) <||>
          (pure (outer.isEmpty && s.scope.kind.holdsDeclarations) <&&>
            opensParameters b s.head group.opener))))

def inConstantContext (b : Bracketed) (s : ScanState) (i : Nat) : Option Bool :=
  pure (s.groups.head?.any (·.constant) || s.scope.kind == .enumeration) <||>
    (pure s.atTop <&&> declaresConstantVariable b s.head i true)

def tryIsConstant (b : Bracketed) (s : ScanState) (i : Nat) : Option Bool :=
  pure s.inConstantFunction <||>
    (pure s.scope.kind.holdsDeclarations <&&> declaresConstantFunction b s.head i)

/-! ## Cuts -/

def context (b : Bracketed) (s : ScanState) (first : Nat) : Option Context := do
  let front ← headFront b s.head b.size
  return {
    inTemplate := front.template || s.scopes.any (·.template)
    inConstantFunction := s.inConstantFunction
    atStatementStart := s.head == first && s.atTop
    templateNames := front.templateNames ++ s.scopes.flatMap (·.templateNames) }

/-- The cut from index `first` to index `last`, in which there is a token. -/
def window (b : Bracketed) (kind : FragmentKind) (first last : Nat) (context : Context) :
    Option Cut := do
  let _ ← (b.between first (last + 1)).head?
  return .span kind first last context

def span (b : Bracketed) (s : ScanState) (kind : FragmentKind) (first last : Nat) :
    Option Cut := do
  window b kind first last (← context b s first)

def declarationCuts (b : Bracketed) (s : ScanState) (start stop : Nat) : Option (List Cut) :=
  if start < stop then do
    let stop ← withoutTry b 0 stop
    if start < stop then
      let declaration ← span b s .declaration start (stop - 1)
      if ← namesOperator b start stop then
        return [declaration, ← span b s .operatorDefinition start (stop - 1)]
      else return [declaration]
    else return []
  else return []

/-! ## Semicolons and brackets -/

def forwardName (b : Bracketed) (start stop : Nat) : Option (Option String) := do
  return match b.between (← headFront b start stop).bodyStart stop with
    | [key, name] => if classKeys.contains key.text && name.isName then some name.text else none
    | _ => none

def noteForward (b : Bracketed) (s : ScanState) (start stop : Nat) : Option ScanState := do
  match ← forwardName b start stop with
  | some name =>
    if s.completed.contains name || s.recordIsOpen name || s.forward.contains name then return s
    else return { s with forward := name :: s.forward }
  | none => return s

/-- What the whole head announces decides where its body starts. -/
def statementCuts (b : Bracketed) (s : ScanState) (i : Nat) : Option (List Cut) := do
  let body := (← head b s.scope s.head i).bodyStart
  if i ≤ body then return []
  if ← ask b body (·.isWordIn ["static_assert", "using"]) then return []
  if ← pure (s.scope.kind == .union) <&&> declaresDataMember b body i then
    return [← span b s .unionMember s.head (i - 1)]
  declarationCuts b s s.head i

def endStatement (b : Bracketed) (s : ScanState) (i : Nat) : Option (ScanState × List Cut) :=
  if s.scope.kind.holdsDeclarations && decide (s.head < i) then do
    let s ← noteForward b s s.head i
    return ({ s with head := i + 1 }, ← statementCuts b s i)
  else return ({ s with head := i + 1 }, [])

def openBrace (b : Bracketed) (s : ScanState) (i : Nat) : Option (ScanState × List Cut) :=
  if (b.pairs.partner? i).isNone then return (s, [])
  else
    match s.lambdaBodies.find? (·.opener = i) with
    | some body => return (s.enterLambda body, [])
    | none =>
      if !s.atTop then return (s.openGroup b i false, [])
      else do
        let head ← head b s.scope s.head i
        match head.kind with
        | none => return (s.openGroup b i (← declaresConstantVariable b s.head i false), [])
        | some kind =>
          return (s.enterScope i kind head,
            ← if kind == .function && s.scope.kind.holdsDeclarations then
                declarationCuts b s s.head i
              else pure [])

def bindsStructure (b : Bracketed) : Nat → Option Bool
  | 0 => some false
  | k + 1 => do
    let t ← b.at? k
    if t.isPunctIn ["&", "&&"] || t.isWordIn ["const", "volatile"] then bindsStructure b k
    else return t.isWord "auto"

def introducesLambda (b : Bracketed) (i : Nat) : Option Bool :=
  if decide (0 < i) && (b.pairs.partner? i).isSome then do
    let t ← b.at? (i - 1)
    match t.kind with
    | .word => return wordsBeforeLambda.contains t.text
    | .punctuator =>
      pure (!([")", "]", "[", ">"].contains t.text)) <&&>
        not <$> (pure (["&", "&&"].contains t.text) <&&> bindsStructure b i)
    | _ => return false
  else return false

def noteLambda (b : Bracketed) (s : ScanState) (i : Nat) : Option (ScanState × List Cut) := do
  if ← introducesLambda b i then
    let _ ← b.pairs.partner? i
    let ahead := b.lambdaAhead s.scope i
    let s := { s with lambdaParameters := ahead.parameters.toList ++ s.lambdaParameters }
    match ahead.body with
    | some body =>
      return ({ s with lambdaBodies := body :: s.lambdaBodies },
        [← span b s .captureList i (body.opener - 1)])
    | none => return (s, [])
  else return (s, [])

def opensArrayBound (b : Bracketed) (s : ScanState) (i : Nat) : Option Bool :=
  pure (s.atTop && s.scope.kind.holdsDeclarations && decide (0 < i)) <&&>
    ask b (i - 1) fun t => t.isName || t.isPunct "]"

/-! ## Words -/

/-- The partner of the token at index `i`, if it is this bracket and has one. -/
def operandEnd (b : Bracketed) (i : Nat) (ss : List String) : Option (Option Nat) :=
  if b.punctInAt i ss && (b.pairs.partner? i).isSome then do return some (← b.pairs.partner? i)
  else return none

def sizeQueryCut (b : Bracketed) (s : ScanState) (i close : Nat) : Option Cut := do
  window b .sizeQuery i close
    { (← context b s i) with
      constantContext := ← inConstantContext b s i
      incompleteTypes := s.incompleteTypes }

def tryCut (b : Bracketed) (s : ScanState) (i : Nat) : Option Cut := do
  window b .tryBlock i (i + 1)
    { (← context b s i) with inConstantFunction := ← tryIsConstant b s i }

def callCut (b : Bracketed) (s : ScanState) (i close : Nat) : Option Cut := do
  window b .call i close
    { (← context b s i) with
      placeholderType := ← followsArrow b i 0 <||> startsParameter b s i }

def wordCuts (b : Bracketed) (s : ScanState) (i : Nat) (text : String) :
    Option (ScanState × List Cut) := do
  let announce (opener : Nat) : ScanState :=
    { s with constantOpeners := opener :: s.constantOpeners }
  if text == "static_assert" then
    match ← operandEnd b (i + 1) ["("] with
    | some close => return (announce (i + 1), [← span b s .staticAssertion i close])
    | none => return (s, [])
  else if sizeQueries.contains text then
    match ← operandEnd b (i + 1) ["("] with
    | some close => return (s, [← sizeQueryCut b s i close])
    | none => return (s, [])
  else if text == "alignas" then
    return if b.punctAt (i + 1) "(" then (announce (i + 1), []) else (s, [])
  else if text == "if" then
    let (last, constant?) := ScanState.branchEnd b i
    return (match constant? with
      | some opener => announce opener
      | none => s,
      [← span b s .branch i last])
  else if text == "try" then
    if b.punctAt (i + 1) "\x7b" then return (s, [← tryCut b s i]) else return (s, [])
  else if text == "auto" then
    match ← operandEnd b (i + 1) ["(", "\x7b"] with
    | some close => return (s, [← callCut b s i close])
    | none => return (s, [])
  else return (s, [])

def wordStep (b : Bracketed) (s : ScanState) (i : Nat) (text : String) : Option (Move i) :=
  if s.startsStatement i && s.scope.kind.isClass && accessSpecifiers.contains text
      && b.punctAt (i + 1) ":" then
    return .behind (i + 1) (Nat.lt_succ_self i) { s with head := i + 2 } []
  else
    match h : s.labelEnd? b i with
    | some colon => do
      return .behind colon (ScanState.lt_of_labelEnd? h) { s with head := colon + 1 }
        [← span b s .label i colon]
    | none => do
      let (s, cuts) ← wordCuts b s i text
      return .one s cuts

def squareStep (b : Bracketed) (s : ScanState) (i : Nat) : Option (Move i) :=
  match h : b.attributeEnd? i with
  | some close => do
    return .behind close (Bracketed.lt_of_attributeEnd? h) s [← span b s .attributeGroup i close]
  | none => do
    let (s, cuts) ← noteLambda b s i
    return .one (s.openGroup b i (← opensArrayBound b s i)) cuts

def punctuatorStep (b : Bracketed) (s : ScanState) (i : Nat) (text : String) :
    Option (ScanState × List Cut) :=
  if text == "\x7b" then openBrace b s i
  else if text == ";" && s.atTop then endStatement b s i
  else return s.punctuatorStep b i text

/-! ## The step -/

def step (b : Bracketed) (s : ScanState) (i : Nat) : Option (Move i) := do
  let t ← b.at? i
  match t.kind with
  | .number => return .one s [← span b s .literal i i]
  | .word => wordStep b s i t.text
  | .punctuator =>
    if t.text == "[" then squareStep b s i
    else
      let (s, cuts) ← punctuatorStep b s i t.text
      return .one s cuts
  | .string | .character | .directive => return .one s []

/-! ## Matchers -/

def examineBranch (v : View) : Option Verdict := do
  let last ← v.lexemes.back?
  return if last.isWord "consteval" then .found none else .absent

def examinePlaceholder (v : View) : Option Verdict :=
  if v.previous.any fun t => beforeType.contains t.text then return .absent
  else if v.context.placeholderType then return .absent
  else do
    let opener ← v.bracketed.at? 1
    return if opener.isPunct "\x7b" then .found none
      else if !mayStartDeclaration v then .found none
      else if v.next.any (·.isPunctIn declaratorFollowers) then .absent
      else if v.next.any (·.isPunctIn expressionFollowers) then .found none
      else
        .ambiguous none "auto(...) at statement start may begin a declaration"
          ["copy-initialized-deduced-parameter"]

end Checked

end CxxFloor
