/-
# Where verdicts point

A matcher chooses the tokens it points at in its own way: from a specifier to
an operator's name, the declared part of a parameter, a single capture, the
head of a deduction guide.  Each choice is a span of the view that is not empty
(`span_in_of_mem_standardMatchers`), whatever the tokens are.  For a part of a
list that is because parts stand where they say; for what is found in brackets,
because the brackets of a view are nested.
-/
import CxxFloor.Feature.Dispatch
import CxxFloor.Proofs.Bracket.Split
import CxxFloor.Proofs.Embedding.Head

namespace CxxFloor

def Span.In (b : Bracketed) (s : Span) : Prop := s.first ≤ s.last ∧ s.last < b.size

/-- The span that a verdict points at. -/
def Verdict.span? : Verdict → Option Span
  | .absent => none
  | .found span => span
  | .ambiguous span _ _ => span

theorem Part.StandsIn.span_in {b : Bracketed} {p : Part} (h : p.StandsIn b)
    (hne : p.lexemes ≠ []) : p.span.In b := by
  have hpos := List.length_pos_iff.2 hne
  have hlt := h.lt_size (Nat.sub_one_lt_of_lt hpos)
  unfold Part.span Span.In
  dsimp only
  omega

/-! ## Declarators -/

namespace Bracketed

variable {b : Bracketed}

/-- The name of an operator is followed by its symbol and one token more, and follows its
specifiers. -/
theorem operatorSignature?_range {s : OperatorSignature} (h : b.operatorSignature? = some s) :
    s.name + 3 < b.size ∧ ∀ k ∈ s.specifiers, k < s.name := by
  unfold operatorSignature? at h
  dsimp only at h
  split at h
  · cases h
  next k symbol hnamed =>
    obtain ⟨j, -, hsymbol⟩ := List.exists_of_findSome?_eq_some hnamed
    obtain ⟨bracket, hbracket, heq⟩ := Option.map_eq_some_iff.1 hsymbol
    obtain ⟨rfl, rfl⟩ := Prod.mk.inj heq
    have hsize : j + 3 < b.size := by
      unfold operatorSymbol? at hbracket
      split at hbracket
      next hroom => exact of_decide_eq_true (Bool.and_eq_true_iff.1 hroom).2
      next => cases hbracket
    split at h
    · cases h
    · split at h
      · cases h
      · obtain rfl := Option.some.inj h
        exact ⟨hsize, fun k hk => (mem_topLevel hk).2⟩

theorem functionDeclarator?_standsIn {d : FunctionDeclarator}
    (h : b.functionDeclarator? = some d) : ∀ p ∈ d.params, p.StandsIn b := by
  unfold functionDeclarator? at h
  dsimp only at h
  split at h
  · cases h
  next o c hlist =>
    obtain rfl := Option.some.inj h
    exact fun p hp => Part.standsIn_of_mem_split hp

end Bracketed

/-- The parts of a lambda stand where they say. -/
structure LambdaDeclarator.StandsIn (b : Bracketed) (d : LambdaDeclarator) : Prop where
  captures : ∀ p ∈ d.captures, p.StandsIn b
  params : ∀ params, d.params = some params → ∀ p ∈ params, p.StandsIn b
  specifiers : d.specifiers.StandsIn b

theorem Bracketed.lambdaDeclarator?_standsIn {b : Bracketed} {d : LambdaDeclarator}
    (h : b.lambdaDeclarator? = some d) : d.StandsIn b := by
  unfold lambdaDeclarator? at h
  split at h
  · split at h
    · cases h
    · split at h
      · cases h
      · dsimp only at h
        split at h
        next c hc =>
          obtain rfl := Option.some.inj h
          refine ⟨fun p hp => Part.standsIn_of_mem_split hp, ?_, fun k t ht => at?_of_between ht⟩
          rintro params hparams p hp
          obtain rfl := Option.some.inj hparams
          exact Part.standsIn_of_mem_split hp
        next =>
          obtain rfl := Option.some.inj h
          refine ⟨fun p hp => Part.standsIn_of_mem_split hp, ?_, fun k t ht => at?_of_between ht⟩
          intro params hnone
          cases hnone
  · cases h

/-! ## One matcher after the other -/

section Matchers

variable {b : Bracketed} {v : View} {s : Span}

theorem staticOperator?_in {symbol : Bracket} (h : staticOperator? b symbol = some s) :
    s.In b := by
  unfold staticOperator? at h
  obtain ⟨signature, hsignature, h⟩ := Option.bind_eq_some_iff.1 h
  obtain ⟨hsize, hbefore⟩ := Bracketed.operatorSignature?_range hsignature
  dsimp only at h
  split at h
  · cases h
  · obtain ⟨first, hfirst, h⟩ := Option.bind_eq_some_iff.1 h
    obtain rfl := Option.some.inj h
    have := hbefore first (List.mem_of_find?_eq_some hfirst)
    constructor <;> dsimp only <;> omega

theorem staticLambda?_in (h : staticLambda? b = some s) : s.In b := by
  unfold staticLambda? at h
  obtain ⟨d, hd, h⟩ := Option.bind_eq_some_iff.1 h
  obtain ⟨k, hk, h⟩ := Option.bind_eq_some_iff.1 h
  obtain rfl := Option.some.inj h
  have hwords := (Bracketed.lambdaDeclarator?_standsIn hd).specifiers.of_prefix
    (List.takeWhile_prefix fun t => !t.isPunct "->")
  obtain ⟨hlt, -⟩ := List.findIdx?_eq_some_iff_getElem.1 hk
  exact ⟨Nat.le_refl _, hwords.lt_size hlt⟩

theorem examineStaticCall_in (h : (examineStaticCall v).span? = some s) : s.In v.bracketed := by
  unfold examineStaticCall at h
  dsimp only at h
  split at h
  next span hspan =>
    obtain rfl := Option.some.inj h
    split at hspan
    · exact staticLambda?_in hspan
    · exact staticOperator?_in hspan
  next => cases h

theorem examineStaticSubscript_in (h : (examineStaticSubscript v).span? = some s) :
    s.In v.bracketed := by
  unfold examineStaticSubscript at h
  split at h
  next span hspan =>
    obtain rfl := Option.some.inj h
    exact staticOperator?_in hspan
  next => cases h

theorem nameSpan_in {signature : OperatorSignature} (h : subscript? v = some signature) :
    signature.nameSpan.In v.bracketed := by
  obtain ⟨hsize, -⟩ := Bracketed.operatorSignature?_range (Option.filter_eq_some_iff.1 h).1
  constructor
  · exact Nat.le_add_right _ _
  · exact Nat.lt_trans (Nat.lt_succ_self _) hsize

theorem examineManyIndices_in (h : (examineManyIndices v).span? = some s) :
    s.In v.bracketed := by
  unfold examineManyIndices at h
  split at h
  next => cases h
  next signature hsignature =>
    have hname := nameSpan_in hsignature
    dsimp only at h
    repeat' split at h
    · exact Option.some.inj h ▸ hname
    · exact Option.some.inj h ▸ hname
    · exact Option.some.inj h ▸ hname
    · cases h

theorem examineNoIndex_in (h : (examineNoIndex v).span? = some s) : s.In v.bracketed := by
  unfold examineNoIndex at h
  split at h
  next signature hsignature =>
    split at h
    · exact Option.some.inj h ▸ nameSpan_in hsignature
    · cases h
  next => cases h

/-- An object parameter without its default, found among parameters that stand in the view. -/
theorem objectParameterOf?_in {o : ObjectParameter} {names : List String}
    (h : objectParameterOf? v = some (o, names)) : o.declared.span.In v.bracketed := by
  have hfound : ∃ params, objectParameter? params = some o ∧
      ∀ p ∈ params, p.StandsIn v.bracketed := by
    unfold objectParameterOf? at h
    split at h
    · obtain ⟨d, hd, h⟩ := Option.bind_eq_some_iff.1 h
      obtain ⟨params, hparams, h⟩ := Option.bind_eq_some_iff.1 h
      obtain ⟨o', ho, h⟩ := Option.bind_eq_some_iff.1 h
      obtain ⟨rfl, -⟩ := Prod.mk.inj (Option.some.inj h)
      exact ⟨params, ho, (Bracketed.lambdaDeclarator?_standsIn hd).params params hparams⟩
    · obtain ⟨d, hd, h⟩ := Option.bind_eq_some_iff.1 h
      obtain ⟨o', ho, h⟩ := Option.bind_eq_some_iff.1 h
      obtain ⟨rfl, -⟩ := Prod.mk.inj (Option.some.inj h)
      exact ⟨d.params, ho, Bracketed.functionDeclarator?_standsIn hd⟩
  obtain ⟨params, ho, hparams⟩ := hfound
  obtain ⟨hstands, hne⟩ := objectParameter?_standsIn hparams ho
  exact hstands.span_in hne

theorem examineObjectParameter_in {deduced : Bool}
    (h : (examineObjectParameter deduced v).span? = some s) : s.In v.bracketed := by
  unfold examineObjectParameter at h
  split at h
  next o names ho =>
    split at h
    · exact Option.some.inj h ▸ objectParameterOf?_in ho
    · cases h
  next => cases h

theorem examineCapture_in (h : (examineCapture v).span? = some s) : s.In v.bracketed := by
  unfold examineCapture at h
  split at h
  next d hd =>
    split at h
    · split at h
      next part hpart =>
        have hstands := (Bracketed.lambdaDeclarator?_standsIn hd).captures part
          (List.mem_of_find?_eq_some hpart)
        have hobject := List.find?_some hpart
        have hne : part.lexemes ≠ [] := by
          intro hnil
          simp [hnil, capturesObject] at hobject
        exact Option.some.inj h ▸ hstands.span_in hne
      next => cases h
    · cases h
  next => cases h

theorem examineAttributes_in (h : (examineAttributes v).span? = some s) : s.In v.bracketed := by
  unfold examineAttributes at h
  split at h
  · cases h
  · split at h
    next part hpart =>
      have hstands : part.StandsIn v.bracketed :=
        Part.standsIn_of_mem_split (List.mem_of_find?_eq_some hpart)
      have hassumes := List.find?_some hpart
      have hne : part.lexemes ≠ [] := by
        intro hnil
        simp [hnil, isAssumption] at hassumes
      exact Option.some.inj h ▸ hstands.span_in hne
    next => cases h

theorem examineTry_in (hv : 0 < v.lexemes.size) (h : (examineTry v).span? = some s) :
    s.In v.bracketed := by
  unfold examineTry at h
  split at h
  · obtain rfl := Option.some.inj h
    exact ⟨Nat.le_refl 0, hv⟩
  · cases h

theorem explicitSpecifier?_range {k : Nat} {close? : Option Nat}
    (h : v.bracketed.explicitSpecifier? = some (k, close?)) :
    ∀ close, close? = some close → k + 1 < close ∧ close < v.bracketed.size := by
  unfold Bracketed.explicitSpecifier? at h
  split at h
  next j hj =>
    obtain ⟨rfl, rfl⟩ := Prod.mk.inj (Option.some.inj h)
    intro close hclose
    have hcloser := Bracketed.closer?_of_roundEnd? hclose
    exact ⟨Pairing.lt_of_closer? hcloser,
      (Bracketed.nested_ofLexemes v.lexemes).closer?_lt_size hcloser⟩
  next => cases h

theorem examineCondition_in (h : (examineCondition v).span? = some s) : s.In v.bracketed := by
  unfold examineCondition at h
  dsimp only at h
  split at h
  next k close hspecifier =>
    obtain ⟨hlt, hsize⟩ := explicitSpecifier?_range hspecifier close rfl
    have hin : Span.In v.bracketed ⟨k, close⟩ := ⟨by dsimp only; omega, hsize⟩
    repeat' split at h
    · exact Option.some.inj h ▸ hin
    · cases h
    · exact Option.some.inj h ▸ hin
    · cases h
  next => cases h

theorem guideTargetEnd?_range {name stop : Nat} (h : b.guideTargetEnd? name = some stop) :
    name < stop ∧ stop < b.size := by
  unfold Bracketed.guideTargetEnd? at h
  dsimp only at h
  split at h
  · cases h
  · obtain ⟨close, hclose, h⟩ := Option.bind_eq_some_iff.1 h
    have hlt := Pairing.lt_of_closer? (Bracketed.closer?_of_roundEnd? hclose)
    split at h
    · cases h
    · split at h
      · cases h
      next htarget =>
        obtain ⟨-, hopen⟩ : ¬ (b.qualifiedName (close + 2)).2 = close + 2 ∧
            b.punctAt (b.qualifiedName (close + 2)).2 "<" = true := by
          simpa using htarget
        split at h
        · obtain rfl := Option.some.inj h
          refine ⟨?_, Bracketed.lt_size_of_any hopen⟩
          unfold Bracketed.qualifiedName
          dsimp only
          omega
        · cases h

theorem examineGuide_in (h : (examineGuide v).span? = some s) : s.In v.bracketed := by
  unfold examineGuide at h
  dsimp only at h
  split at h
  · cases h
  next k close? hspecifier =>
    split at h
    · cases h
    next stop hstop =>
      obtain ⟨hname, hsize⟩ := guideTargetEnd?_range hstop
      have hk : k ≤ close?.getD k := by
        cases hclose : close? with
        | none => exact Nat.le_refl k
        | some close =>
            have := (explicitSpecifier?_range hspecifier close hclose).1
            show k ≤ close
            omega
      split at h
      · obtain rfl := Option.some.inj h
        constructor <;> dsimp only <;> omega
      · cases h

end Matchers

/-! ## All matchers -/

/-- The matchers whose verdicts are about the whole of a view. -/
def wholeMatchers : List Matcher :=
  [compileTimeBranch, placeholderCopy, incompleteSizeQuery, unionMemberInitializer,
   messagelessAssertion, sizeSuffix, extendedFloatSuffix, elifdefDirective, warningDirective,
   parameterlessSpecifiers, trailingLabel]

theorem span?_of_mem_wholeMatchers {m : Matcher} (hm : m ∈ wholeMatchers) (v : View) :
    (m.examine v).span? = none := by
  simp only [wholeMatchers, List.mem_cons, List.not_mem_nil, or_false] at hm
  rcases hm with rfl | rfl | rfl | rfl | rfl | rfl | rfl | rfl | rfl | rfl | rfl
  all_goals
    simp only [compileTimeBranch, placeholderCopy, incompleteSizeQuery, unionMemberInitializer,
      messagelessAssertion, sizeSuffix, extendedFloatSuffix, elifdefDirective, warningDirective,
      parameterlessSpecifiers, trailingLabel, examineBranch, examinePlaceholder, examineSizeQuery,
      examineMember, examineAssertion, examineSizeSuffix, examineFloatSuffix, examineDirective,
      examineLambdaSpecifiers, examineLabel]
    repeat' split
    all_goals rfl

/-- The matchers that may point at a part of a view. -/
def pointingMatchers : List Matcher :=
  [conditionalExplicit, staticCall, manyIndices, deducedObjectParameter, restrictedGuide,
   objectCapture, constantTry, staticSubscript, noIndex, fixedObjectParameter, assumeAttribute]

theorem span_in_of_mem_standardMatchers {m : Matcher} (hm : m ∈ standardMatchers) {v : View}
    (hv : 0 < v.lexemes.size) {s : Span} (h : (m.examine v).span? = some s) :
    s.In v.bracketed := by
  have hcase : m ∈ wholeMatchers ∨ m ∈ pointingMatchers := by
    simp only [standardMatchers, wholeMatchers, pointingMatchers, List.mem_cons, List.not_mem_nil,
      or_false] at hm ⊢
    tauto
  rcases hcase with hwhole | hpoints
  · rw [span?_of_mem_wholeMatchers hwhole] at h
    cases h
  · simp only [pointingMatchers, List.mem_cons, List.not_mem_nil, or_false] at hpoints
    rcases hpoints with rfl | rfl | rfl | rfl | rfl | rfl | rfl | rfl | rfl | rfl | rfl
    · exact examineCondition_in h
    · exact examineStaticCall_in h
    · exact examineManyIndices_in h
    · exact examineObjectParameter_in h
    · exact examineGuide_in h
    · exact examineCapture_in h
    · exact examineTry_in hv h
    · exact examineStaticSubscript_in h
    · exact examineNoIndex_in h
    · exact examineObjectParameter_in h
    · exact examineAttributes_in h

end CxxFloor
