/-
# Where a match starts

Two matches of one feature, or of rivals, repeat each other if they start at one
token of the file.  Where a match starts is told here for every matcher, in the
view that it is shown.  Most point at the first token of a fragment of one kind
(`headMatchers`).  Those that read a signature point at its top level, outside
all braces (`signatureMatchers`); only a lambda's `static` is found at any
level.  An object parameter is pointed at as a whole (`parameterMatchers`), and
so is a capture, which stands where no bracket of its list is open.
-/
import CxxFloor.Proofs.Feature.ObjectParameter
import CxxFloor.Proofs.Feature.Slots
import CxxFloor.Proofs.Feature.Spans

namespace CxxFloor

/-- The index in a view of the first lexeme that a verdict points at. -/
def placeOf (span : Option Span) : Nat := (span.map (·.first)).getD 0

/-! ## Families of matchers -/

def headMatchers : List Matcher := constantTry :: wholeMatchers

def signatureMatchers : List Matcher :=
  [conditionalExplicit, staticCall, manyIndices, staticSubscript, noIndex]

def parameterMatchers : List Matcher := [deducedObjectParameter, fixedObjectParameter]

section Families

variable {m m' : Matcher}

theorem families (hm : m ∈ standardMatchers) :
    m ∈ headMatchers ∨ m ∈ signatureMatchers ∨ m ∈ parameterMatchers ∨
      m = assumeAttribute ∨ m = objectCapture ∨ m = restrictedGuide := by
  simp only [standardMatchers, headMatchers, wholeMatchers, signatureMatchers, parameterMatchers,
    List.mem_cons, List.not_mem_nil, or_false] at hm ⊢
  tauto

theorem exists_kind_of_headMatchers (hm : m ∈ headMatchers) : ∃ kind, m.kinds = [kind] := by
  simp only [headMatchers, wholeMatchers, List.mem_cons, List.not_mem_nil, or_false] at hm
  rcases hm with rfl | rfl | rfl | rfl | rfl | rfl | rfl | rfl | rfl | rfl | rfl | rfl
  all_goals exact ⟨_, rfl⟩

theorem kinds_of_signatureMatchers (hm : m ∈ signatureMatchers) :
    m.kinds = [.declaration] ∧ m = conditionalExplicit ∨ m.kinds = [.operatorDefinition] ∨
      m = staticCall := by
  simp only [signatureMatchers, List.mem_cons, List.not_mem_nil, or_false] at hm
  rcases hm with rfl | rfl | rfl | rfl | rfl
  · exact .inl ⟨rfl, rfl⟩
  · exact .inr (.inr rfl)
  all_goals exact .inr (.inl rfl)

end Families

/-! ## Places -/

section Places

variable {m : Matcher} {v : View} {span : Option Span}

theorem place_of_headMatchers (hm : m ∈ headMatchers) (h : m.examine v = .found span) :
    placeOf span = 0 := by
  rcases List.mem_cons.1 hm with rfl | hm
  · simp only [constantTry, examineTry] at h
    split at h
    · cases h
      rfl
    · cases h
  · have hwhole := span?_of_mem_wholeMatchers hm v
    rw [h] at hwhole
    obtain rfl : span = none := hwhole
    rfl

theorem not_found_restrictedGuide : examineGuide v ≠ .found span := by
  intro h
  simp only [examineGuide] at h
  repeat' split at h
  all_goals cases h

namespace Bracketed.Nested

variable {b : Bracketed} {k stop : Nat}

theorem outsideBraces_of_topLevel (hb : b.Nested) (hk : k ∈ b.topLevel (b.skipHeaders 0) stop) :
    b.OutsideBraces k := by
  intro p q hp hpq
  exact hb.topLevel_outside hp hpq (hb.skipHeaders_outside hp hpq (.inl (Nat.zero_le p))) hk

theorem outside_of_operatorSignature? (hb : b.Nested) {s : OperatorSignature}
    (h : b.operatorSignature? = some s) :
    b.OutsideBraces s.name ∧ ∀ k ∈ s.specifiers, b.OutsideBraces k := by
  unfold operatorSignature? at h
  dsimp only at h
  split at h
  · cases h
  next k symbol hnamed =>
    obtain ⟨j, hj, hsymbol⟩ := List.exists_of_findSome?_eq_some hnamed
    obtain ⟨_, -, heq⟩ := Option.map_eq_some_iff.1 hsymbol
    obtain ⟨rfl, -⟩ := Prod.mk.inj heq
    split at h
    · cases h
    split at h
    · cases h
    obtain rfl := Option.some.inj h
    exact ⟨hb.outsideBraces_of_topLevel hj, fun k hk => hb.outsideBraces_of_topLevel hk⟩

theorem outside_of_staticOperator? (hb : b.Nested) {symbol : Bracket} {s : Span}
    (h : staticOperator? b symbol = some s) : b.OutsideBraces s.first := by
  obtain ⟨signature, hsignature, h⟩ := Option.bind_eq_some_iff.1 h
  dsimp only at h
  split at h
  · cases h
  · obtain ⟨first, hfirst, h⟩ := Option.bind_eq_some_iff.1 h
    obtain rfl := Option.some.inj h
    exact (hb.outside_of_operatorSignature? hsignature).2 first (List.mem_of_find?_eq_some hfirst)

end Bracketed.Nested

theorem outside_of_subscript? (hv : v.bracketed.Nested) {s : OperatorSignature}
    (h : subscript? v = some s) : v.bracketed.OutsideBraces (placeOf (some s.nameSpan)) :=
  (hv.outside_of_operatorSignature? (Option.filter_eq_some_iff.1 h).1).1

theorem place_of_signatureMatchers (hv : v.bracketed.Nested) (hm : m ∈ signatureMatchers)
    (hkind : v.kind ≠ .captureList) (h : m.examine v = .found span) :
    v.bracketed.OutsideBraces (placeOf span) := by
  simp only [signatureMatchers, List.mem_cons, List.not_mem_nil, or_false] at hm
  rcases hm with rfl | rfl | rfl | rfl | rfl
  · have hspecifier : ∀ {k : Nat} {close? : Option Nat},
        v.bracketed.explicitSpecifier? = some (k, close?) → v.bracketed.OutsideBraces k := by
      intro k close? hspecifier
      simp only [Bracketed.explicitSpecifier?] at hspecifier
      split at hspecifier
      next j hj =>
        obtain ⟨rfl, -⟩ := Prod.mk.inj (Option.some.inj hspecifier)
        exact hv.outsideBraces_of_topLevel (List.mem_of_find?_eq_some hj)
      next => cases hspecifier
    simp only [conditionalExplicit, examineCondition] at h
    split at h
    next k close hk =>
      repeat' split at h
      all_goals cases h
      exact hspecifier hk
    next => cases h
  · simp only [staticCall, examineStaticCall, beq_iff_eq, if_neg hkind] at h
    split at h
    next s hs =>
      cases h
      exact hv.outside_of_staticOperator? hs
    next => cases h
  · obtain ⟨signature, hsignature, -⟩ := indexParameters_of_examineManyIndices h
    simp only [manyIndices, examineManyIndices, hsignature] at h
    repeat' split at h
    all_goals cases h
    all_goals exact outside_of_subscript? hv hsignature
  · simp only [staticSubscript, examineStaticSubscript] at h
    split at h
    next s hs =>
      cases h
      exact hv.outside_of_staticOperator? hs
    next => cases h
  · obtain ⟨signature, hsignature, -⟩ := indexParameters_of_examineNoIndex h
    simp only [noIndex, examineNoIndex, hsignature] at h
    split at h
    · cases h
      exact outside_of_subscript? hv hsignature
    · cases h

theorem place_of_parameterMatchers (hm : m ∈ parameterMatchers) (h : m.examine v = .found span) :
    ∃ p names, objectParameterOf? v = some (p, names) ∧ placeOf span = p.part.start := by
  have hplace : ∀ {deduced : Bool}, examineObjectParameter deduced v = .found span →
      ∃ p names, objectParameterOf? v = some (p, names) ∧ placeOf span = p.part.start := by
    intro deduced h
    simp only [examineObjectParameter] at h
    split at h
    next p names hp =>
      split at h
      · cases h
        exact ⟨p, names, hp, rfl⟩
      · cases h
    next => cases h
  simp only [parameterMatchers, List.mem_cons, List.not_mem_nil, or_false] at hm
  rcases hm with rfl | rfl
  · exact hplace h
  · exact hplace h

theorem captures_of_lambdaDeclarator? {b : Bracketed} {d : LambdaDeclarator}
    (h : b.lambdaDeclarator? = some d) : ∃ close, b.punctAt 0 "[" = true ∧
      b.closer? 0 = some close ∧ d.captures = splitTopLevel "," false 1 (b.between 1 close) := by
  simp only [Bracketed.lambdaDeclarator?] at h
  split at h
  next hopen =>
    split at h
    · cases h
    next close hclose =>
      refine ⟨close, hopen, hclose, ?_⟩
      split at h
      · cases h
      split at h
      · obtain rfl := Option.some.inj h
        rfl
      · obtain rfl := Option.some.inj h
        rfl
  next => cases h

/-- A capture starts inside the introducer, where no bracket is open that is counted from its
front. -/
theorem place_of_objectCapture (h : examineCapture v = .found span) :
    ∃ close, v.bracketed.punctAt 0 "[" = true ∧ v.bracketed.closer? 0 = some close ∧
      0 < placeOf span ∧ placeOf span ≤ close ∧
      depthOf Lexeme.weight (v.bracketed.between 1 (placeOf span)) = 0 := by
  simp only [examineCapture] at h
  split at h
  next d hd =>
    obtain ⟨close, hopen, hclose, hcaptures⟩ := captures_of_lambdaDeclarator? hd
    split at h
    · split at h
      next part hpart =>
        cases h
        have hmem := List.mem_of_find?_eq_some hpart
        rw [hcaptures] at hmem
        obtain ⟨n, hn, hstart, hdepth⟩ := depth_of_mem_split hmem
        have hpos := Pairing.lt_of_closer? hclose
        have hsize : close < v.bracketed.size :=
          (Bracketed.nested_ofLexemes v.lexemes).closer?_lt_size hclose
        rw [Bracketed.length_between (Nat.le_of_lt hsize)] at hn
        rw [Bracketed.take_between (by omega)] at hdepth
        have hplace : placeOf (some part.span) = 1 + n := hstart
        refine ⟨close, hopen, hclose, by omega, by omega, ?_⟩
        rw [hplace]
        exact hdepth
      next => cases h
    · cases h
  next => cases h

end Places

end CxxFloor
