/-
# The state behind a fragment

Every fragment that is no preprocessor line is the window of a cut that a step
made from a boundary (`Source.exists_step`).  What the cut tells of the state
the step started from and of where the walk goes on is read off the list of
`ScanState.Emits`: a declaration, an operator or a member of a union is cut
between the statements of a scope of declarations, and a label or an attribute
group is passed over whole, as nothing else but the colon of an access specifier
is (`ScanState.passed_of_lt_next`).
-/
import CxxFloor.Proofs.Fragment.Window

namespace CxxFloor

/-- The fragments that are cut out of the statements of a scope of declarations. -/
def FragmentKind.ofStatement : FragmentKind → Bool
  | declaration | operatorDefinition | unionMember => true
  | call | captureList | staticAssertion | tryBlock | branch | sizeQuery | literal | directive
  | attributeGroup | label => false

/-- The fragments whose tokens the walk does not stop at. -/
def FragmentKind.isPassed : FragmentKind → Bool
  | label | attributeGroup => true
  | call | declaration | operatorDefinition | captureList | unionMember | staticAssertion | tryBlock
  | branch | sizeQuery | literal | directive => false

/-- What is cut out of the statements of a scope is cut outside all groups, in a scope of
declarations. -/
theorem ScanState.top_of_statement {b : Bracketed} {s : ScanState} {i : Nat} {t : Lexeme} {cut : Cut}
    (hcut : cut ∈ (s.step b i t).cuts) (hkind : cut.kind.ofStatement = true) :
    s.groups = [] ∧ s.scope.kind.holdsDeclarations = true := by
  cases emits_of_cut hcut with
  | declaration htop hholds | operator htop hholds | member htop hholds => exact ⟨htop, hholds⟩
  | _ => cases hkind

theorem ScanState.step_eq_squareStep {b : Bracketed} {s : ScanState} {i : Nat} {t : Lexeme}
    (ht : b.at? i = some t) (hopen : b.punctAt i "[" = true) : s.step b i t = s.squareStep b i := by
  have hsquare : t.isPunct "[" = true := by simpa [Bracketed.punctAt, ht] using hopen
  simp only [Lexeme.isPunct, Bool.and_eq_true, beq_iff_eq] at hsquare
  simp only [step, hsquare.1, hsquare.2, beq_self_eq_true, if_true]

/-- The step at a word that starts no label. -/
theorem ScanState.step_of_word {b : Bracketed} {s : ScanState} {i : Nat} {t : Lexeme}
    (ht : b.at? i = some t) (hword : t.kind = .word) (hcase : t.text ≠ "case")
    (hcolon : b.punctAt (i + 1) ":" = false) :
    s.step b i t = .one (s.wordCuts b i t.text).1 (s.wordCuts b i t.text).2 := by
  have hlabel : s.labelEnd? b i = none := by
    simp [labelEnd?, Bracketed.labelEnd?, Bracketed.wordAt, ht, Lexeme.isWord, hcase, hcolon]
  simp only [step, hword, wordStep, hcolon, Bool.and_false, Bool.false_eq_true, if_false]
  split
  next colon hsome => simp [hlabel] at hsome
  next => rfl

/-- A label or an attribute group is cut by the step that passes over it. -/
theorem ScanState.span_of_isPassed {b : Bracketed} {s : ScanState} {i first last : Nat} {t : Lexeme}
    {kind : FragmentKind} {context : Context} (hkind : kind.isPassed = true)
    (h : .span kind first last context ∈ (s.step b i t).cuts) :
    first = i ∧ last + 1 = (s.step b i t).next := by
  cases emits_of_cut h with
  | label _ _ hnext | attributes _ _ hnext => exact ⟨rfl, hnext.symm⟩
  | _ => cases hkind

/-- What a step passes over is cut by it, or is the colon of an access specifier. -/
theorem ScanState.passed_of_lt_next {b : Bracketed} {s : ScanState} {i k : Nat} {t : Lexeme}
    (hik : i < k) (hk : k < (s.step b i t).next) :
    b.punctAt k ":" = true ∨ ∃ kind last context, kind.isPassed = true ∧
      last + 1 = (s.step b i t).next ∧ .span kind i last context ∈ (s.step b i t).cuts := by
  have hone : ∀ {state : ScanState} {cuts : List Cut},
      ¬ k < (Move.one (i := i) state cuts).next := by
    intro state cuts hlt
    simp only [Move.one] at hlt
    omega
  simp only [ScanState.step] at hk ⊢
  split at hk
  · exact absurd hk hone
  · simp only [ScanState.wordStep] at hk ⊢
    split at hk
    next haccess =>
      simp only [Bool.and_eq_true] at haccess
      simp only [Move.behind] at hk
      obtain rfl : k = i + 1 := by omega
      exact .inl haccess.2
    next haccess =>
      rw [if_neg haccess]
      split at hk
      next colon hcolon =>
        exact .inr ⟨.label, colon, _, rfl, rfl, List.mem_singleton_self _⟩
      next => exact absurd hk hone
  · split at hk
    next hsquare =>
      rw [if_pos hsquare]
      simp only [ScanState.squareStep] at hk ⊢
      split at hk
      next close hclose =>
        exact .inr ⟨.attributeGroup, close, _, rfl, rfl, List.mem_singleton_self _⟩
      next => exact absurd hk hone
    next => exact absurd hk hone
  all_goals exact absurd hk hone

/-! ## Fragments -/

/-- A fragment is that of a preprocessor line, or the window of a cut that a step made. -/
theorem Source.exists_step {name text : String} {f : Fragment}
    (h : f ∈ (scan name text).fragments) (hkind : f.kind ≠ .directive) :
    ∃ (i : Nat) (s : ScanState) (hi : i < (Bracketed.ofText text).lexemes.size) (first last : Nat),
      Boundary (.ofText text) i s ∧
      .span f.kind first last f.context ∈
        (s.step (.ofText text) i (Bracketed.ofText text).lexemes[i]).cuts ∧
      StepCut (.ofText text) s.head i f.kind first last ∧
      (Source.ofText name text).Window f first last := by
  obtain ⟨cut, hcut, hf⟩ := List.mem_filterMap.1 h
  rcases mem_interleave hcut with ⟨k, -, -, rfl⟩ | ⟨e, he, hmem⟩
  · obtain ⟨t, -, rfl⟩ := Option.map_eq_some_iff.1 hf
    exact absurd rfl hkind
  obtain ⟨s, hi, hs, hcuts⟩ := Boundary.start.of_mem_stepsFrom e he
  rw [hcuts] at hmem
  obtain ⟨kind, first, last, context, rfl, hstep⟩ :=
    CutsOf.step (Array.getElem?_eq_getElem hi) _ hmem
  obtain ⟨hle, hlt⟩ := hstep.range (Bracketed.nested_ofLexemes _) hi
  have hlt : last < (Source.ofText name text).words.size :=
    Nat.lt_of_lt_of_eq hlt (size_words name text).symm
  obtain ⟨f', hf', hwindow, rfl, rfl, -⟩ := fragment?_span hle hlt kind context
  obtain rfl : f' = f := Option.some.inj (hf'.symm.trans hf)
  exact ⟨e.1, s, hi, first, last, hs, hmem, hstep, hwindow⟩

/-- What a step cuts becomes a fragment, which is told the context of the cut. -/
theorem Source.exists_fragment_in_context {text : String} (name : String) {i : Nat} {s : ScanState}
    (h : Boundary (.ofText text) i s) (hi : i < (Bracketed.ofText text).lexemes.size)
    {kind : FragmentKind} {first last : Nat} {context : Context}
    (hcut : .span kind first last context ∈
      (s.step (.ofText text) i (Bracketed.ofText text).lexemes[i]).cuts) :
    ∃ f ∈ (scan name text).fragments, f.kind = kind ∧ f.context = context ∧
      (Source.ofText name text).Window f first last := by
  have hmem : .span kind first last context ∈ cutsOfText text := by
    have hsteps : .span kind first last context ∈
        (stepsFrom (.ofText text) 0 {}).flatMap (·.2) :=
      List.mem_flatMap.2 ⟨_, h.mem_stepsFrom hi, hcut⟩
    have hfiltered := List.mem_filter (p := (· = Cut.span kind first last context)).2
      ⟨hsteps, decide_eq_true rfl⟩
    rw [← filter_interleave fun _ => rfl] at hfiltered
    exact (List.mem_filter.1 hfiltered).1
  obtain ⟨f, hf, hcase⟩ := fragment?_of_mem_cuts name hmem
  refine ⟨f, List.mem_filterMap.2 ⟨_, hmem, hf⟩, ?_⟩
  rcases hcase with ⟨_, _, hdirective, -⟩ | ⟨_, _, _, _, hspan, -, hwindow, hkind, hcontext, -⟩
  · cases hdirective
  · cases hspan
    exact ⟨hkind, hcontext, hwindow⟩

/-- What a step cuts becomes a fragment. -/
theorem Source.exists_fragment {text : String} (name : String) {i : Nat} {s : ScanState}
    (h : Boundary (.ofText text) i s) (hi : i < (Bracketed.ofText text).lexemes.size)
    {kind : FragmentKind} {first last : Nat} {context : Context}
    (hcut : .span kind first last context ∈
      (s.step (.ofText text) i (Bracketed.ofText text).lexemes[i]).cuts) :
    ∃ f ∈ (scan name text).fragments, f.kind = kind ∧
      (Source.ofText name text).Window f first last := by
  obtain ⟨f, hf, hkind, -, hwindow⟩ := exists_fragment_in_context name h hi hcut
  exact ⟨f, hf, hkind, hwindow⟩

end CxxFloor
