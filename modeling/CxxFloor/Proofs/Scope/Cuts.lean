/-
# What a step cuts

The fragments that one step of the walk can cut, one constructor for each: with
what the step knew of the tokens and of the state, and with all that the
fragment is told (`ScanState.Emits`), or with their ends alone (`StepCut`).
Everything that is said of all fragments of a file is a case distinction over
one of these lists and never a look into the step itself.
-/
import CxxFloor.Proofs.Scope.Boundary

namespace CxxFloor

/-- A step from index `i`, the statement in progress starting at `head`, may cut a fragment of
this kind with its first and last token at these indices. -/
inductive StepCut (b : Bracketed) (head i : Nat) : FragmentKind → Nat → Nat → Prop
  | literal {t : Lexeme} (ht : b.at? i = some t) (h : t.kind = .number) :
      StepCut b head i .literal i i
  | label {colon : Nat} (h : b.labelEnd? i = some colon) : StepCut b head i .label i colon
  | attributes {close : Nat} (h : b.attributeEnd? i = some close) :
      StepCut b head i .attributeGroup i close
  | lambda {close body : Nat} (hopen : b.punctAt i "[" = true)
      (hclose : b.pairs.partner? i = some close) (hbody : close < body)
      (h : (b.closer? body).isSome) : StepCut b head i .captureList i (body - 1)
  | assertion {close : Nat} (h : b.roundEnd? (i + 1) = some close) :
      StepCut b head i .staticAssertion i close
  | sizeQuery {close : Nat} (h : b.roundEnd? (i + 1) = some close) :
      StepCut b head i .sizeQuery i close
  | call {close : Nat} (h : b.closer? (i + 1) = some close) : StepCut b head i .call i close
  | branch (h : b.nameAt i = true) : StepCut b head i .branch i (ScanState.branchEnd b i).1
  | tryBlock (h : b.punctAt (i + 1) "\x7b" = true) : StepCut b head i .tryBlock i (i + 1)
  | declaration {stop : Nat} (h : head < stop) (hstop : stop ≤ i) :
      StepCut b head i .declaration head (stop - 1)
  | operator {stop : Nat} (h : head < stop) (hstop : stop ≤ i) :
      StepCut b head i .operatorDefinition head (stop - 1)
  | member (h : head < i) : StepCut b head i .unionMember head (i - 1)

/-- All cuts of a list are among those of a step. -/
def CutsOf (b : Bracketed) (head i : Nat) (cuts : List Cut) : Prop :=
  ∀ cut ∈ cuts, ∃ kind first last context,
    cut = .span kind first last context ∧ StepCut b head i kind first last

/-- With the step that makes the move the statement up to `last` ends, and another one starts. -/
structure ScanState.EndsStatement (b : Bracketed) (s : ScanState) {i : Nat} (m : Move i)
    (last : Nat) : Prop where
  head_le : s.head ≤ last
  last_eq : last + 1 = i ∨ last + 2 = i ∧ b.wordAt (last + 1) "try" = true
  head : m.state.head = m.next
  scopes : m.state.scopes = s.scopes ∨
    ∃ scope, scope.resume = none ∧ m.state.scopes = scope :: s.scopes

theorem ScanState.EndsStatement.last_lt {b : Bracketed} {s : ScanState} {i last : Nat} {m : Move i}
    (h : s.EndsStatement b m last) : last < i := by
  rcases h.last_eq with heq | ⟨heq, -⟩ <;> omega

/-- The move from index `i` at the token `t` cuts this fragment, which is told this context. -/
inductive ScanState.Emits (b : Bracketed) (s : ScanState) {i : Nat} (t : Lexeme) (m : Move i) :
    Cut → Prop
  | literal (hkind : t.kind = .number) : Emits b s t m (.span .literal i i (s.context b i))
  | label {colon : Nat} (hkind : t.kind = .word) (hlabel : s.labelEnd? b i = some colon)
      (hnext : m.next = colon + 1) : Emits b s t m (.span .label i colon (s.context b i))
  | assertion {close : Nat} (hkind : t.kind = .word) (hclose : b.roundEnd? (i + 1) = some close) :
      Emits b s t m (.span .staticAssertion i close (s.context b i))
  | sizeQuery {close : Nat} (hkind : t.kind = .word) (hclose : b.roundEnd? (i + 1) = some close) :
      Emits b s t m (s.sizeQueryCut b i close)
  | branch (hkind : t.kind = .word) :
      Emits b s t m (.span .branch i (branchEnd b i).1 (s.context b i))
  | tryBlock (hkind : t.kind = .word) (hbrace : b.punctAt (i + 1) "\x7b" = true) :
      Emits b s t m (s.tryCut b i)
  | call {close : Nat} (hkind : t.kind = .word) (hclose : b.closer? (i + 1) = some close) :
      Emits b s t m (s.callCut b i close)
  | attributes {close : Nat} (hopen : t.isPunct "[" = true) (hclose : b.attributeEnd? i = some close)
      (hnext : m.next = close + 1) :
      Emits b s t m (.span .attributeGroup i close (s.context b i))
  | lambda {body : Scope} (hopen : t.isPunct "[" = true) (hbare : b.attributeEnd? i = none)
      (hintroduces : b.introducesLambda i = true)
      (hbody : (b.lambdaAhead s.scope i).body = some body) :
      Emits b s t m (.span .captureList i (body.opener - 1) (s.context b i))
  | declaration {last : Nat} (htop : s.groups = []) (hholds : s.scope.kind.holdsDeclarations = true)
      (hends : s.EndsStatement b m last) :
      Emits b s t m (.span .declaration s.head last (s.context b s.head))
  | operator {last : Nat} (htop : s.groups = []) (hholds : s.scope.kind.holdsDeclarations = true)
      (hends : s.EndsStatement b m last) :
      Emits b s t m (.span .operatorDefinition s.head last (s.context b s.head))
  | member (htop : s.groups = []) (hholds : s.scope.kind.holdsDeclarations = true)
      (hends : s.EndsStatement b m (i - 1)) :
      Emits b s t m (.span .unionMember s.head (i - 1) (s.context b s.head))

/-! ## Lambdas -/

namespace CutsOf

variable {b : Bracketed} {i : Nat}

theorem le_of_lambdaBody? {steps j : Nat} {arrow constant : Bool} {r : Nat × Bool}
    (h : b.lambdaBody? steps j arrow constant = some r) : j ≤ r.1 := by
  induction steps generalizing j arrow constant with
  | zero => cases h
  | succ steps ih =>
      unfold Bracketed.lambdaBody? at h
      split at h
      · cases h
      split at h
      · cases h
        exact Nat.le_refl j
      split at h
      · split at h
        next c hc =>
          have := ih h
          have := Bracketed.lt_of_operandEnd? hc
          omega
        next =>
          split at h
          · exact Nat.le_of_succ_le (ih h)
          split at h
          · cases h
          split at h
          · cases h
          · exact Nat.le_of_succ_le (ih h)
      split at h
      · exact Nat.le_of_succ_le (ih h)
      · cases h

theorem le_nextPunctIn (j : Nat) (ss : List String) : j ≤ b.nextPunctIn j ss := by
  unfold Bracketed.nextPunctIn
  cases h : (List.range' j (b.size - j)).find? fun k => b.punctInAt k ss with
  | none => exact Nat.le_max_left j b.size
  | some k =>
      have := List.mem_range'_1.1 (List.mem_of_find?_eq_some h)
      exact this.1

theorem le_of_lambdaTemplate? {j k : Nat} {names? : Option (List String)}
    (h : b.lambdaTemplate? j = some (k, names?)) : j ≤ k := by
  unfold Bracketed.lambdaTemplate? at h
  split at h
  · split at h
    · cases h
    next c hc =>
      cases h
      have hle := Bracketed.le_of_angleEnd? hc
      split
      · have := le_nextPunctIn (b := b) (c + 1) ["(", "\x7b"]
        omega
      · omega
  · cases h
    exact Nat.le_refl j

theorem lambdaAhead_finish {enclosing : Scope} {j : Nat} {template : Bool}
    {names? : Option (List String)} {body : Scope}
    (h : Bracketed.lambdaAhead.finish b enclosing j template names? = some body) :
    j ≤ body.opener ∧ (b.closer? body.opener).isSome := by
  unfold Bracketed.lambdaAhead.finish at h
  split at h
  next k constant hk =>
    split at h
    next hclosed =>
      cases h
      exact ⟨le_of_lambdaBody? hk, hclosed⟩
    next => cases h
  next => cases h

/-- The body of a lambda opens behind its introducer and is closed. -/
theorem lambdaAhead_body {enclosing body : Scope}
    (h : (b.lambdaAhead enclosing i).body = some body) :
    ∃ close, b.pairs.partner? i = some close ∧ close < body.opener ∧
      (b.closer? body.opener).isSome := by
  unfold Bracketed.lambdaAhead at h
  split at h
  · cases h
  next close hclose =>
    refine ⟨close, hclose, ?_⟩
    split at h
    · cases h
    next j names? hj =>
      have hle := le_of_lambdaTemplate? hj
      split at h
      · split at h
        · cases h
        next c hc =>
          obtain ⟨hbody, hclosed⟩ := lambdaAhead_finish h
          have := Pairing.lt_of_closer? hc
          exact ⟨by omega, hclosed⟩
      · obtain ⟨hbody, hclosed⟩ := lambdaAhead_finish h
        exact ⟨by omega, hclosed⟩

end CutsOf

/-! ## The step -/

namespace ScanState

variable {b : Bracketed} {s : ScanState} {i : Nat}

theorem noteForward_eq (start stop : Nat) :
    ∃ forward, s.noteForward b start stop = { s with forward := forward } := by
  unfold noteForward
  split
  · split
    · exact ⟨s.forward, rfl⟩
    · exact ⟨_, rfl⟩
  · exact ⟨s.forward, rfl⟩

theorem head_noteForward (start stop : Nat) : (s.noteForward b start stop).head = s.head := by
  obtain ⟨forward, hforward⟩ := noteForward_eq (b := b) (s := s) start stop
  rw [hforward]

namespace Emits

variable {t : Lexeme} {m : Move i}

theorem nil : ∀ cut ∈ [], s.Emits b t m cut := by
  intro cut hcut
  exact absurd hcut List.not_mem_nil

theorem single {cut : Cut} (h : s.Emits b t m cut) : ∀ cut' ∈ [cut], s.Emits b t m cut' := by
  intro cut' hcut
  exact List.mem_singleton.1 hcut ▸ h

/-! ## Statements -/

/-- A declaration ends before its semicolon or brace, or before the `try` in front. -/
theorem declarationCuts {s' : ScanState} (hsame : s'.context b s.head = s.context b s.head)
    (htop : s.groups = []) (hholds : s.scope.kind.holdsDeclarations = true)
    (hhead : m.state.head = m.next)
    (hscopes : m.state.scopes = s.scopes ∨
      ∃ scope, scope.resume = none ∧ m.state.scopes = scope :: s.scopes) :
    ∀ cut ∈ s'.declarationCuts b s.head i, s.Emits b t m cut := by
  simp only [ScanState.declarationCuts, span, hsame]
  split
  · split
    next hlt =>
      have hlast : b.withoutTry 0 i - 1 + 1 = i ∨
          b.withoutTry 0 i - 1 + 2 = i ∧ b.wordAt (b.withoutTry 0 i - 1 + 1) "try" = true := by
        rw [Nat.sub_add_cancel (Nat.zero_lt_of_lt hlt)]
        unfold Bracketed.withoutTry at hlt ⊢
        split
        next htry =>
          simp only [Bool.and_eq_true, decide_eq_true_eq] at htry
          rw [if_pos (by simpa using htry)] at hlt
          exact .inr ⟨by omega, htry.2⟩
        next => exact .inl rfl
      have hends : s.EndsStatement b m (b.withoutTry 0 i - 1) :=
        ⟨Nat.le_sub_one_of_lt hlt, hlast, hhead, hscopes⟩
      intro cut hcut
      rcases List.mem_cons.1 hcut with rfl | hcut
      · exact .declaration htop hholds hends
      · split at hcut
        · exact List.mem_singleton.1 hcut ▸ .operator htop hholds hends
        · exact absurd hcut List.not_mem_nil
    next => exact nil
  · exact nil

theorem endStatement (htop : s.groups = []) (hnext : m.next = i + 1)
    (hstate : m.state = (s.endStatement b i).1) :
    ∀ cut ∈ (s.endStatement b i).2, s.Emits b t m cut := by
  obtain ⟨forward, hforward⟩ := noteForward_eq (b := b) (s := s) s.head i
  revert hstate
  unfold ScanState.endStatement
  split
  next hdeclares =>
    intro hstate
    simp only [Bool.and_eq_true, decide_eq_true_eq] at hdeclares
    obtain ⟨hholds, hlt⟩ := hdeclares
    rw [hforward] at hstate
    have hhead : m.state.head = m.next := by rw [hstate, hnext]
    have hscopes : m.state.scopes = s.scopes := by rw [hstate]
    simp only [statementCuts, hforward]
    split
    · exact nil
    split
    · exact nil
    split
    · exact single (.member htop hholds ⟨by omega, .inl (by omega), hhead, .inl hscopes⟩)
    · exact declarationCuts rfl htop hholds hhead (.inl hscopes)
  next => exact fun _ => nil

theorem openBrace (hnext : m.next = i + 1) (hstate : m.state = (s.openBrace b i).1) :
    ∀ cut ∈ (s.openBrace b i).2, s.Emits b t m cut := by
  revert hstate
  unfold ScanState.openBrace
  split
  · exact fun _ => nil
  split
  · exact fun _ => nil
  split
  · exact fun _ => nil
  next htop =>
  dsimp only
  split
  · exact fun _ => nil
  next kind hkind =>
  intro hstate
  split
  next hfunction =>
    simp only [Bool.and_eq_true] at hfunction
    refine declarationCuts rfl (by simpa [atTop] using htop) hfunction.2 (by rw [hstate, hnext]; rfl)
      (.inr ?_)
    rw [hstate]
    exact ⟨_, rfl, rfl⟩
  next => exact nil

theorem punctuatorStep {text : String} (hnext : m.next = i + 1)
    (hstate : m.state = (s.punctuatorStep b i text).1) :
    ∀ cut ∈ (s.punctuatorStep b i text).2, s.Emits b t m cut := by
  revert hstate
  unfold ScanState.punctuatorStep
  split
  · exact fun _ => nil
  split
  · exact fun _ => nil
  split
  · exact openBrace hnext
  split
  · exact fun _ => nil
  split
  next hend =>
    simp only [Bool.and_eq_true, atTop, List.isEmpty_iff] at hend
    exact endStatement hend.2 hnext
  · exact fun _ => nil

/-! ## Square brackets and words -/

theorem squareStep (hopen : t.isPunct "[" = true) (hnext : m.next = (s.squareStep b i).next) :
    ∀ cut ∈ (s.squareStep b i).cuts, s.Emits b t m cut := by
  revert hnext
  unfold ScanState.squareStep
  split
  next close hclose => exact fun hnext => single (.attributes hopen hclose hnext)
  next hbare =>
    intro _
    simp only [noteLambda]
    split
    next hintroduces =>
      split
      next body hbody => exact single (.lambda hopen hbare hintroduces hbody)
      next => exact nil
    next => exact nil

theorem wordCuts (hkind : t.kind = .word) (text : String) :
    ∀ cut ∈ (s.wordCuts b i text).2, s.Emits b t m cut := by
  unfold ScanState.wordCuts
  dsimp only
  split
  · split
    next close hclose => exact single (.assertion hkind hclose)
    next => exact nil
  split
  · split
    next close hclose => exact single (.sizeQuery hkind hclose)
    next => exact nil
  split
  · split <;> exact nil
  split
  · exact single (.branch hkind)
  split
  · split
    next hbrace => exact single (.tryBlock hkind hbrace)
    next => exact nil
  split
  · split
    next close hclose => exact single (.call hkind hclose)
    next => exact nil
  · exact nil

theorem wordStep {text : String} (hkind : t.kind = .word)
    (hnext : m.next = (s.wordStep b i text).next) :
    ∀ cut ∈ (s.wordStep b i text).cuts, s.Emits b t m cut := by
  revert hnext
  unfold ScanState.wordStep
  split
  · exact fun _ => nil
  split
  next colon hlabel => exact fun hnext => single (.label hkind hlabel hnext)
  next => exact fun _ => wordCuts hkind text

end Emits

theorem emits_of_cut {t : Lexeme} {cut : Cut} (hcut : cut ∈ (s.step b i t).cuts) :
    s.Emits b t (s.step b i t) cut := by
  generalize hm : s.step b i t = m at hcut ⊢
  unfold step at hm
  split at hm
  next hkind =>
    subst hm
    exact Emits.single (.literal hkind) cut hcut
  next hkind =>
    subst hm
    exact Emits.wordStep hkind rfl cut hcut
  next hkind =>
    split at hm
    next htext =>
      subst hm
      exact Emits.squareStep (by simpa [Lexeme.isPunct, hkind] using htext) rfl cut hcut
    next =>
      subst hm
      exact Emits.punctuatorStep rfl rfl cut hcut
  all_goals
    subst hm
    exact absurd hcut List.not_mem_nil

end ScanState

theorem CutsOf.step {b : Bracketed} {s : ScanState} {i : Nat} {t : Lexeme} (ht : b.at? i = some t) :
    CutsOf b s.head i (s.step b i t).cuts := by
  have hopens : t.isPunct "[" = true → b.punctAt i "[" = true := by
    intro hopen
    rw [Bracketed.punctAt, ht]
    exact hopen
  intro cut hcut
  cases ScanState.emits_of_cut hcut with
  | literal hkind => exact ⟨_, _, _, _, rfl, .literal ht hkind⟩
  | label _ hlabel =>
      unfold ScanState.labelEnd? at hlabel
      split at hlabel
      · exact ⟨_, _, _, _, rfl, .label hlabel⟩
      · cases hlabel
  | assertion _ hclose => exact ⟨_, _, _, _, rfl, .assertion hclose⟩
  | sizeQuery _ hclose => exact ⟨_, _, _, _, rfl, .sizeQuery hclose⟩
  | branch hkind =>
      refine ⟨_, _, _, _, rfl, .branch ?_⟩
      rw [Bracketed.nameAt, ht]
      simpa [Lexeme.isName] using hkind
  | tryBlock _ hbrace => exact ⟨_, _, _, _, rfl, .tryBlock hbrace⟩
  | call _ hclose => exact ⟨_, _, _, _, rfl, .call hclose⟩
  | attributes _ hclose => exact ⟨_, _, _, _, rfl, .attributes hclose⟩
  | lambda hopen _ _ hbody =>
      obtain ⟨close, hclose, hlt, hclosed⟩ := lambdaAhead_body hbody
      exact ⟨_, _, _, _, rfl, .lambda (hopens hopen) hclose hlt hclosed⟩
  | declaration _ _ hends =>
      exact ⟨_, _, _, _, rfl, .declaration (Nat.lt_succ_of_le hends.head_le) hends.last_lt⟩
  | operator _ _ hends =>
      exact ⟨_, _, _, _, rfl, .operator (Nat.lt_succ_of_le hends.head_le) hends.last_lt⟩
  | member _ _ hends =>
      exact ⟨_, _, _, _, rfl, .member (Nat.lt_of_le_of_lt hends.head_le hends.last_lt)⟩

theorem stepCut_of_mem_stepsFrom {b : Bracketed} {e : Nat × List Cut}
    (he : e ∈ stepsFrom b 0 {}) : ∃ (s : ScanState), e.1 < b.size ∧ Boundary b e.1 s ∧
      CutsOf b s.head e.1 e.2 := by
  obtain ⟨s, hi, hs, hcuts⟩ := Boundary.start.of_mem_stepsFrom e he
  exact ⟨s, hi, hs, hcuts ▸ CutsOf.step (Array.getElem?_eq_getElem hi)⟩

end CxxFloor
