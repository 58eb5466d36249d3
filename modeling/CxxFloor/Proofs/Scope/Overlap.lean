/-
# How the fragments of a walk lie to each other

The tokens of one statement may belong to several fragments, but the fragments
of one kind never start at one token, and those of a statement never cross: a
declaration that is cut later starts behind the earlier one, or holds it in
braces, those of a lambda's body.  Attribute groups do not even touch.

What makes it so is followed along the walk (`Passed`).  Where a statement was
cut out, every statement that starts from then on starts behind it.  The only
head that lies before it again is one that a lambda's body hands back, and by
then the body is closed.
-/
import CxxFloor.Proofs.Agreement
import CxxFloor.Proofs.Scope.Heads

namespace CxxFloor

/-! ## Statements that are cut out -/

namespace ScanState

variable {b : Bracketed} {s : ScanState} {i first last : Nat} {kind : FragmentKind}
  {context : Context}

theorem endsStatement_of_cut {t : Lexeme} (hkind : kind.ofStatement = true)
    (h : .span kind first last context ∈ (s.step b i t).cuts) :
    first = s.head ∧ s.EndsStatement b (s.step b i t) last := by
  cases emits_of_cut h with
  | declaration _ _ hends | operator _ _ hends | member _ _ hends => exact ⟨rfl, hends⟩
  | _ => cases hkind

/-- A bracket between the statement and the step that ends it has no partner: there stands a `try`
or nothing. -/
theorem EndsStatement.le_last {m : Move i} (h : s.EndsStatement b m last) (hb : b.Nested) {k l : Nat}
    (hkl : b.pairs.partner? k = some l) (hl : l < i) : l ≤ last := by
  rcases h.last_eq with heq | ⟨heq, hword⟩
  · omega
  · have hne : l ≠ last + 1 := by
      rintro rfl
      have hnone := hb.partner?_of_name (Bracketed.nameAt_of_wordAt hword)
      rw [hb.partner_symm hkl] at hnone
      cases hnone
    omega

end ScanState

/-! ## What comes after a statement -/

/-- The token at index `k` stands in braces that the run from `first` to `last` holds. -/
def Bracketed.InBraces (b : Bracketed) (first last k : Nat) : Prop :=
  ∃ p q, b.pairs.partner? p = some q ∧ b.opensAt p .curly ∧ first ≤ p ∧ p < k ∧ k < q ∧ q ≤ last

/-- The run from `first'` to `last'` holds the body of a lambda, and between the braces of the body
stands the run from `first` to `last`. -/
def Bracketed.InLambda (b : Bracketed) (first' last' first last : Nat) : Prop :=
  ∃ scope c, b.Opens scope ∧ scope.kind = .lambda ∧ b.pairs.partner? scope.opener = some c ∧
    first' ≤ scope.opener ∧ scope.opener < first ∧ last < c ∧ c ≤ last'

theorem Bracketed.InLambda.inBraces {b : Bracketed} {first last first' last' k : Nat}
    (h : b.InLambda first' last' first last) (hk : first ≤ k) (hk' : k ≤ last) :
    b.InBraces first' last' k := by
  obtain ⟨scope, c, hopens, -, hc, hle, hlt, hlt', hle'⟩ := h
  obtain ⟨-, -, hbrace, -⟩ := hopens
  exact ⟨scope.opener, c, hc, opensAt_of_punctAt (k := .curly) hbrace, hle, by omega, by omega, hle'⟩

/-- A statement that starts at `head` starts behind the one from `first` to before index `i`, or
holds it in the body of a lambda that is closed before index `j`. -/
def Bracketed.Clears (b : Bracketed) (first i j head : Nat) : Prop :=
  i < head ∨ ∃ scope c, b.Opens scope ∧ scope.kind = .lambda ∧
    b.pairs.partner? scope.opener = some c ∧ head ≤ scope.opener ∧ scope.opener < first ∧
    i < c ∧ c < j

/-- What every later state knows of the statement from `first` to before index `i`: the statement
in progress clears it, and so do the suspended ones, but for those whose scope was open before. -/
structure Passed (b : Bracketed) (first i j : Nat) (t : ScanState) : Prop where
  head : b.Clears first i j t.head
  suspended : AllSuspended (fun head scope _ =>
    b.Clears first i j head ∨ head ≤ scope.opener ∧ scope.opener < first) t.scopes

theorem Bracketed.Clears.mono {b : Bracketed} {first i j j' head : Nat}
    (h : b.Clears first i j head) (hj : j ≤ j') : b.Clears first i j' head := by
  rcases h with h | ⟨scope, c, hopens, hkind, hc, hhead, hfirst, hi, hlt⟩
  · exact .inl h
  · exact .inr ⟨scope, c, hopens, hkind, hc, hhead, hfirst, hi, Nat.lt_of_lt_of_le hlt hj⟩

theorem Passed.mono {b : Bracketed} {first i j j' : Nat} {t : ScanState} (h : Passed b first i j t)
    (hj : j ≤ j') : Passed b first i j' t where
  head := h.head.mono hj
  suspended := h.suspended.imp fun _ _ _ _ hclears => hclears.imp_left fun h => h.mono hj

theorem HeadStep.passed {b : Bracketed} (hb : b.Nested) {first i j next : Nat} {t t' : ScanState}
    (h : HeadStep b j next t t') (ht : Boundary b j t) (hpassed : Passed b first i j t)
    (hij : i < j) (hnext : j < next) : Passed b first i next t' := by
  have hlater := hpassed.mono (Nat.le_of_lt hnext)
  have hbehind : b.Clears first i next next := .inl (Nat.lt_trans hij hnext)
  cases h with
  | keeps hscopes hhead => exact ⟨hhead ▸ hlater.head, hscopes ▸ hlater.suspended⟩
  | starts hscopes hhead => exact ⟨hhead ▸ hbehind, hscopes ▸ hlater.suspended⟩
  | opens hscopes hopener hresume hhead =>
      refine ⟨hhead ▸ hbehind, ?_⟩
      rw [hscopes]
      refine ⟨fun resume hr => ?_, hlater.suspended⟩
      rw [hresume resume hr]
      exact .inl hlater.head
  | closes hinner hscopes hhead =>
      refine ⟨hhead ▸ hbehind, ?_⟩
      have hsuspended := hlater.suspended
      rw [hinner] at hsuspended
      exact hscopes ▸ hsuspended.2
  | @resumes scope outer resume hinner hresume hpartner hbrace hscopes hhead =>
      have hsuspended := hlater.suspended
      rw [hinner] at hsuspended
      refine ⟨?_, hscopes ▸ hsuspended.2⟩
      rw [hhead]
      rcases hsuspended.1 _ hresume with hclears | ⟨hle, hlt⟩
      · exact hclears
      · -- the body that suspended the statement was open before, and is closed now
        have hmem : scope ∈ t.scopes := hinner ▸ List.mem_cons_self
        have hsome : scope.resume ≠ none := Option.ne_none_iff_exists'.2 ⟨resume, hresume⟩
        obtain ⟨hopens, hkind⟩ := ht.lambda_of_resume hb hmem hsome
        exact .inr ⟨scope, j, hopens, hkind, hb.partner_symm hpartner, hle, hlt, hij, hnext⟩

namespace Boundary

variable {b : Bracketed} {i j : Nat} {s t : ScanState} {kind kind' : FragmentKind}
  {first last first' last' : Nat} {context context' : Context}

/-- Behind a statement that was cut out every state knows of it. -/
theorem passed (hb : b.Nested) (h : Boundary b i s) (hi : i < b.lexemes.size)
    (hkind : kind.ofStatement = true)
    (hcut : .span kind first last context ∈ (s.step b i b.lexemes[i]).cuts)
    (h' : Boundary b j t) (hij : i < j) : Passed b first i j t := by
  obtain ⟨rfl, hends⟩ := ScanState.endsStatement_of_cut hkind hcut
  refine h.of_later hi ?_ ?_ h' hij
  · have hsuspended : AllSuspended (fun head scope _ =>
        b.Clears s.head i (s.step b i b.lexemes[i]).next head ∨
          head ≤ scope.opener ∧ scope.opener < s.head) s.scopes := by
      refine (h.headsOpen hb).suspended.imp fun head scope hscope outer hopen => ?_
      exact .inr ⟨hopen.1, h.opener_lt_head hb hscope⟩
    refine ⟨?_, ?_⟩
    · rw [hends.head]
      exact .inl (s.step b i b.lexemes[i]).later
    · rcases hends.scopes with hsame | ⟨scope, hnone, hcons⟩
      · exact hsame ▸ hsuspended
      · rw [hcons]
        exact ⟨fun resume hresume => by simp [hnone] at hresume, hsuspended⟩
  · intro k u hk hku hik hpassed
    exact (hku.headStep hb hk).passed hb hku hpassed hik (u.step b k b.lexemes[k]).later

end Boundary

/-! ## Fragments of one kind -/

/-- How a fragment lies to one of the same kind that is cut later: they start at two tokens,
attribute groups do not touch, and a statement that does not start behind the earlier one holds it
in braces. -/
structure Bracketed.Apart (b : Bracketed) (kind : FragmentKind) (first last first' last' : Nat) :
    Prop where
  starts : first ≠ first'
  attributes : kind = .attributeGroup → last < first'
  statements : kind.ofStatement = true → last < first' ∨
    ∀ k, first ≤ k → k ≤ last → b.InBraces first' last' k

theorem StepCut.first_eq {b : Bracketed} {head i first last : Nat} {kind : FragmentKind}
    (h : StepCut b head i kind first last) (hkind : kind.ofStatement = false) : first = i := by
  cases h <;> first | rfl | cases hkind

namespace Boundary

variable {b : Bracketed} {i j : Nat} {s t : ScanState} {kind kind' : FragmentKind}
  {first last first' last' : Nat} {context context' : Context}

/-- Of two statements that are cut out, the later one starts behind the earlier one, or holds it in
the body of a lambda. -/
theorem apart_statements (hb : b.Nested) (h : Boundary b i s) (hi : i < b.lexemes.size)
    (hkind : kind.ofStatement = true)
    (hcut : .span kind first last context ∈ (s.step b i b.lexemes[i]).cuts)
    (h' : Boundary b j t) (hj : j < b.lexemes.size) (hkind' : kind'.ofStatement = true)
    (hcut' : .span kind' first' last' context' ∈ (t.step b j b.lexemes[j]).cuts) (hij : i < j) :
    last < first' ∨ first' < first ∧ b.InLambda first' last' first last := by
  have hpassed := h.passed hb hi hkind hcut h' hij
  obtain ⟨rfl, hends⟩ := ScanState.endsStatement_of_cut hkind hcut
  obtain ⟨rfl, hends'⟩ := ScanState.endsStatement_of_cut hkind' hcut'
  have hlast := hends.last_lt
  rcases hpassed.head with hbehind | ⟨scope, c, hopens, hlambda, hc, hle, hlt, hic, hcj⟩
  · exact .inl (by omega)
  · have hclose := hends'.le_last hb hc hcj
    exact .inr ⟨by omega, scope, c, hopens, hlambda, hc, hle, hlt, by omega, hclose⟩

/-- Of two fragments of one kind that are cut by two steps. -/
theorem apart (hb : b.Nested) (h : Boundary b i s) (hi : i < b.lexemes.size)
    (hcut : .span kind first last context ∈ (s.step b i b.lexemes[i]).cuts)
    (hstep : StepCut b s.head i kind first last)
    (h' : Boundary b j t) (hj : j < b.lexemes.size)
    (hcut' : .span kind first' last' context' ∈ (t.step b j b.lexemes[j]).cuts)
    (hstep' : StepCut b t.head j kind first' last') (hij : i < j) :
    b.Apart kind first last first' last' := by
  cases hkind : kind.ofStatement with
  | true =>
      have hle := (hstep.range hb hi).1
      have hcase := h.apart_statements hb hi hkind hcut h' hj hkind hcut' hij
      refine ⟨?_, ?_, fun _ => hcase.imp_right fun hlambda _ => hlambda.2.inBraces⟩
      · rcases hcase with hbehind | ⟨hbefore, -⟩ <;> omega
      · rintro rfl
        cases hkind
  | false =>
      have hfirst := hstep.first_eq hkind
      have hfirst' := hstep'.first_eq hkind
      refine ⟨by omega, ?_, fun hno => by simp [hkind] at hno⟩
      rintro rfl
      have hnext := (ScanState.span_of_isPassed rfl hcut).2
      have := h.next_le h' hij hi
      omega

end Boundary

/-! ## All fragments of a file -/

/-- The fragments that a statement is cut out as, the operators among the declarations once
more. -/
def FragmentKind.declares : FragmentKind → Bool
  | declaration | unionMember => true
  | call | captureList | operatorDefinition | staticAssertion | tryBlock | branch | sizeQuery
  | literal | directive | attributeGroup | label => false

theorem FragmentKind.ofStatement_of_declares {kind : FragmentKind} (h : kind.declares = true) :
    kind.ofStatement = true := by
  cases kind <;> first | rfl | cases h

/-- Two cuts are of two kinds, and do not both cut out a statement. -/
def Cut.Distinct (c c' : Cut) : Prop :=
  c.kind ≠ c'.kind ∧ (c.kind.declares && c'.kind.declares) = false

theorem ScanState.distinct_declarationCuts {b : Bracketed} {s : ScanState} {start stop : Nat} :
    (s.declarationCuts b start stop).Pairwise Cut.Distinct := by
  simp only [declarationCuts]
  repeat' split
  all_goals simp [span, Cut.Distinct, Cut.kind, FragmentKind.declares]

theorem ScanState.distinct_punctuatorStep {b : Bracketed} {s : ScanState} {i : Nat}
    (text : String) : (s.punctuatorStep b i text).2.Pairwise Cut.Distinct := by
  have hbrace : (s.openBrace b i).2.Pairwise Cut.Distinct := by
    unfold openBrace
    dsimp only
    repeat' split
    all_goals first
      | exact List.Pairwise.nil
      | exact distinct_declarationCuts
  have hend : (s.endStatement b i).2.Pairwise Cut.Distinct := by
    unfold endStatement
    split
    · unfold statementCuts
      dsimp only
      repeat' split
      all_goals first
        | exact List.Pairwise.nil
        | exact List.pairwise_singleton _ _
        | exact distinct_declarationCuts
    · exact List.Pairwise.nil
  unfold punctuatorStep
  repeat' split
  all_goals first
    | exact List.Pairwise.nil
    | exact hbrace
    | exact hend

theorem ScanState.distinct_wordStep {b : Bracketed} {s : ScanState} {i : Nat} (text : String) :
    (s.wordStep b i text).cuts.Pairwise Cut.Distinct := by
  simp only [wordStep, wordCuts]
  repeat' split
  all_goals first
    | exact List.Pairwise.nil
    | exact List.pairwise_singleton _ _

theorem ScanState.distinct_squareStep {b : Bracketed} {s : ScanState} {i : Nat} :
    (s.squareStep b i).cuts.Pairwise Cut.Distinct := by
  simp only [squareStep, noteLambda]
  repeat' split
  all_goals first
    | exact List.Pairwise.nil
    | exact List.pairwise_singleton _ _

theorem ScanState.distinct_step {b : Bracketed} {s : ScanState} {i : Nat} {t : Lexeme} :
    (s.step b i t).cuts.Pairwise Cut.Distinct := by
  unfold step
  split
  · exact List.pairwise_singleton _ _
  · exact distinct_wordStep t.text
  · split
    · exact distinct_squareStep
    · exact distinct_punctuatorStep t.text
  all_goals exact List.Pairwise.nil

/-- How a cut lies to a later one. -/
inductive Cut.Apart (b : Bracketed) : Cut → Cut → Prop
  | kinds {cut cut' : Cut} (h : cut.kind ≠ cut'.kind) : Apart b cut cut'
  | directives {n n' : Nat} (h : n < n') : Apart b (.directive n) (.directive n')
  | spans {kind : FragmentKind} {first last first' last' : Nat} {context context' : Context}
      (h : b.Apart kind first last first' last') :
      Apart b (.span kind first last context) (.span kind first' last' context')

/-- Two steps that are recorded start at boundaries, the later one behind the earlier one. -/
theorem Boundary.pairwise_stepsFrom {b : Bracketed} {i : Nat} {s : ScanState} (h : Boundary b i s) :
    (stepsFrom b i s).Pairwise fun e e' => e.1 < e'.1 := by
  have hle : ∀ {i : Nat} {s : ScanState}, ∀ e ∈ stepsFrom b i s, i ≤ e.1 := by
    intro i s
    fun_induction stepsFrom b i s with
    | case1 i s hi move ih =>
        intro e he
        rcases List.mem_cons.1 he with rfl | he
        · exact Nat.le_refl _
        · exact Nat.le_trans (Nat.le_of_lt move.later) (ih e he)
    | case2 => simp
  fun_induction stepsFrom b i s with
  | case1 i s hi move ih =>
      refine List.pairwise_cons.2 ⟨fun e he => ?_, ih (h.step hi)⟩
      exact Nat.lt_of_lt_of_le move.later (hle e he)
  | case2 => exact List.Pairwise.nil

/-- What holds between the cuts of the steps, between preprocessor lines, and between both, holds
between all cuts of a file. -/
theorem pairwise_interleave {R : Cut → Cut → Prop} (hlines : ∀ m n, m < n → R (.directive m) (.directive n))
    {number : Nat} {directives : List Nat} {steps : List (Nat × List Cut)}
    (hsteps : (steps.flatMap (·.2)).Pairwise R)
    (hmixed : ∀ n, ∀ cut ∈ steps.flatMap (·.2), R (.directive n) cut ∧ R cut (.directive n)) :
    (interleave number directives steps).Pairwise R := by
  fun_induction interleave number directives steps with
  | case1 => exact hsteps
  | case2 number directives =>
      refine List.pairwise_map.2 (List.Pairwise.imp (fun hlt => hlines _ _ hlt) ?_)
      exact List.pairwise_lt_range'
  | case3 number before directives i cuts steps hle ih =>
      refine List.pairwise_cons.2 ⟨fun cut hcut => ?_, ih hsteps hmixed⟩
      rcases mem_interleave hcut with ⟨k, hk, -, rfl⟩ | ⟨e, he, hmem⟩
      · exact hlines _ _ hk
      · exact (hmixed number cut (List.mem_flatMap.2 ⟨e, he, hmem⟩)).1
  | case4 number before directives i cuts steps hle ih =>
      rw [List.flatMap_cons] at hsteps hmixed
      obtain ⟨hcuts, hsteps, hacross⟩ := List.pairwise_append.1 hsteps
      refine List.pairwise_append.2 ⟨hcuts, ih hsteps fun n cut hcut => ?_, fun cut hcut cut' hcut' => ?_⟩
      · exact hmixed n cut (List.mem_append_right _ hcut)
      · rcases mem_interleave hcut' with ⟨k, -, -, rfl⟩ | ⟨e, he, hmem⟩
        · exact (hmixed k cut (List.mem_append_left _ hcut)).2
        · exact hacross cut hcut cut' (List.mem_flatMap.2 ⟨e, he, hmem⟩)

/-- What holds between two cuts of one step, and from the cuts of a step to those of a later one,
holds between all cuts of a text; preprocessor lines are cut in their order, in between. -/
theorem pairwise_cuts_of_steps {text : String} {R : Cut → Cut → Prop}
    (hlines : ∀ m n, m < n → R (.directive m) (.directive n))
    (hmixed : ∀ n (cut : Cut), cut.kind ≠ .directive → R (.directive n) cut ∧ R cut (.directive n))
    (hstep : ∀ c c' : Cut, c.Distinct c' → R c c')
    (hsteps : ∀ {i j : Nat} {s t : ScanState} (hi : i < (Bracketed.ofText text).lexemes.size)
      (hj : j < (Bracketed.ofText text).lexemes.size), Boundary (.ofText text) i s →
      Boundary (.ofText text) j t → i < j →
      ∀ cut ∈ (s.step (.ofText text) i (Bracketed.ofText text).lexemes[i]).cuts,
      ∀ cut' ∈ (t.step (.ofText text) j (Bracketed.ofText text).lexemes[j]).cuts, R cut cut') :
    (cutsOfText text).Pairwise R := by
  have hmade : ∀ e ∈ stepsFrom (.ofText text) 0 {}, ∃ (s : ScanState)
      (hi : e.1 < (Bracketed.ofText text).lexemes.size), Boundary (.ofText text) e.1 s ∧
        e.2 = (s.step (.ofText text) e.1 (Bracketed.ofText text).lexemes[e.1]).cuts :=
    Boundary.start.of_mem_stepsFrom
  refine pairwise_interleave hlines (List.pairwise_flatMap.2 ⟨fun e he => ?_, ?_⟩)
    fun n cut hcut => hmixed n cut ?_
  · obtain ⟨s, hi, -, hcuts⟩ := hmade e he
    rw [hcuts]
    exact ScanState.distinct_step.imp (hstep _ _)
  · refine Boundary.start.pairwise_stepsFrom.imp_of_mem fun he he' hlt cut hcut cut' hcut' => ?_
    obtain ⟨s, hi, hs, hcuts⟩ := hmade _ he
    obtain ⟨t, hj, ht, hcuts'⟩ := hmade _ he'
    rw [hcuts] at hcut
    rw [hcuts'] at hcut'
    exact hsteps hi hj hs ht hlt cut hcut cut' hcut'
  · obtain ⟨e, he, hmem⟩ := List.mem_flatMap.1 hcut
    obtain ⟨s, hi, -, hcuts⟩ := hmade e he
    rw [hcuts] at hmem
    obtain ⟨kind, first, last, context, rfl, hmade⟩ :=
      CutsOf.step (Array.getElem?_eq_getElem hi) _ hmem
    rintro (rfl : kind = .directive)
    cases hmade

theorem pairwise_cutsOfText (text : String) :
    (cutsOfText text).Pairwise (Cut.Apart (.ofText text)) := by
  have hb : (Bracketed.ofText text).Nested := Bracketed.nested_ofLexemes _
  refine pairwise_cuts_of_steps (fun m n hlt => .directives hlt)
    (fun n cut hcut => ⟨.kinds hcut.symm, .kinds hcut⟩) (fun c c' hdistinct => .kinds hdistinct.1) ?_
  intro i j s t hi hj hs ht hij cut hcut cut' hcut'
  obtain ⟨kind, first, last, context, rfl, hstep⟩ :=
    CutsOf.step (Array.getElem?_eq_getElem hi) _ hcut
  obtain ⟨kind', first', last', context', rfl, hstep'⟩ :=
    CutsOf.step (Array.getElem?_eq_getElem hj) _ hcut'
  by_cases hkind : kind = kind'
  · subst hkind
    exact .spans (hs.apart hb hi hcut hstep ht hj hcut' hstep' hij)
  · exact .kinds hkind

/-- How a fragment lies to a later one of its kind.  Preprocessor lines stand one behind the
other. -/
structure Fragment.Apart (source : Source) (b : Bracketed) (f g : Fragment) : Prop where
  lines : f.kind = .directive → f.start.offset < g.start.offset
  runs : f.kind ≠ .directive → ∃ first last first' last',
    source.Window f first last ∧ source.Window g first' last' ∧
      b.Apart f.kind first last first' last'

theorem Source.directives_ordered {name text : String} {m n : Nat} {t u : Token} (hmn : m < n)
    (ht : (Source.ofText name text).directives[m]? = some t)
    (hu : (Source.ofText name text).directives[n]? = some u) : t.start.offset < u.start.offset := by
  have hsorted : (Source.ofText name text).directives.toList.Pairwise
      fun t u => t.stop ≤ u.start.offset := by
    rw [directives_toList]
    exact (tokens_sorted _).filter _
  have htmem : t ∈ (Source.ofText name text).directives.toList :=
    Array.mem_def.1 (Array.mem_of_getElem? ht)
  rw [directives_toList] at htmem
  have hlt := start_lt_stop (List.mem_filter.1 htmem).1
  rw [← Array.getElem?_toList] at ht hu
  obtain ⟨hm, rfl⟩ := List.getElem?_eq_some_iff.1 ht
  obtain ⟨hn, rfl⟩ := List.getElem?_eq_some_iff.1 hu
  have hbefore := List.pairwise_iff_getElem.1 hsorted m n hm hn hmn
  omega

/-- A run that is cut becomes its window. -/
theorem Source.window_of_mem_cuts {name text : String} {kind : FragmentKind} {first last : Nat}
    {context : Context} {f : Fragment} (hcut : .span kind first last context ∈ cutsOfText text)
    (hf : (Source.ofText name text).fragment? (.span kind first last context) = some f) :
    f.kind = kind ∧ f.kind ≠ .directive ∧ (Source.ofText name text).Window f first last := by
  obtain ⟨f', hf', hcase⟩ := fragment?_of_mem_cuts name hcut
  obtain rfl : f' = f := Option.some.inj (hf'.symm.trans hf)
  rcases hcase with ⟨_, _, hdirective, -⟩ | ⟨_, _, _, _, hspan, hcuts, hwindow, hkind, -⟩
  · cases hdirective
  · cases hspan
    refine ⟨hkind, ?_, hwindow⟩
    obtain ⟨_, _, -, -, hstep⟩ := hcuts
    rintro hno
    rw [← hkind, hno] at hstep
    cases hstep

/-- A fragment that is no preprocessor line is the window of a run that is cut. -/
theorem Source.exists_span {name text : String} {cut : Cut} {f : Fragment}
    (hcut : cut ∈ cutsOfText text) (hf : (Source.ofText name text).fragment? cut = some f)
    (hkind : f.kind ≠ .directive) :
    ∃ first last context, cut = .span f.kind first last context ∧
      (Source.ofText name text).Window f first last := by
  have hsame := kind_of_fragment? hf
  cases cut with
  | directive n => exact absurd hsame hkind
  | span kind first last context =>
      obtain ⟨rfl, -, hwindow⟩ := window_of_mem_cuts hcut hf
      exact ⟨first, last, context, rfl, hwindow⟩

theorem pairwise_fragments (name text : String) :
    (scan name text).fragments.Pairwise fun f g =>
      f.kind = g.kind → f.Apart (.ofText name text) (.ofText text) g := by
  have hcuts := (pairwise_cutsOfText text).imp_of_mem
    (S := fun c c' => c ∈ cutsOfText text ∧ c' ∈ cutsOfText text ∧ c.Apart (.ofText text) c')
    fun hc hc' hapart => ⟨hc, hc', hapart⟩
  refine List.Pairwise.filterMap _ (R := _) ?_ hcuts
  rintro c c' ⟨hc, hc', hapart⟩ f hf g hg hkind
  cases hapart with
  | kinds h =>
      rw [← Source.kind_of_fragment? hf, ← Source.kind_of_fragment? hg] at h
      exact absurd hkind h
  | directives hlt =>
      obtain ⟨t, ht, rfl⟩ := Option.map_eq_some_iff.1 hf
      obtain ⟨u, hu, rfl⟩ := Option.map_eq_some_iff.1 hg
      exact ⟨fun _ => Source.directives_ordered hlt ht hu, fun h => absurd rfl h⟩
  | spans h =>
      obtain ⟨hkind, hdirective, hwindow⟩ := Source.window_of_mem_cuts hc hf
      obtain ⟨-, -, hwindow'⟩ := Source.window_of_mem_cuts hc' hg
      refine ⟨fun hno => absurd hno hdirective, fun _ => ⟨_, _, _, _, hwindow, hwindow', ?_⟩⟩
      exact hkind ▸ h

end CxxFloor
