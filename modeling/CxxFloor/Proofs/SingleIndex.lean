/-
# A subscript operator with one index

How many indices a subscript operator has is read off its parameter list in two
ways, and one thing counts whatever they say: a parameter with a `...` in it is
taken for a pack.  Nobody asks where the `...` stands.  So a single index is
reported as several exactly if a `...` stands between the start of the parameter
and the closing parenthesis, be it in a template argument list or in the
parentheses of another function (`ellipsis_makes_pack`).  Without one a single
index is never reported, and leaves at most a note behind.
-/
import CxxFloor.Proofs.Bracket.Depth
import CxxFloor.Proofs.Feature.Slots
import CxxFloor.Proofs.Fragment.Window

namespace CxxFloor

/-! ## The last part of a split -/

namespace Part

/-- The last part of a split runs to the end of the list. -/
theorem end_splitFrom {separator : String} {trackAngles : Bool} {ts : List Lexeme} :
    ∀ {i : Nat} {s : SplitState}, ∀ p ∈ ((splitFrom separator trackAngles i s ts).1 ::
      (splitFrom separator trackAngles i s ts).2).getLast?,
      p.start + p.lexemes.length = i + ts.length := by
  induction ts with
  | nil =>
      intro i s p hp
      obtain rfl := Option.some.inj hp
      rfl
  | cons t ts ih =>
      intro i s p hp
      have hend := ih (i := i + 1) (s := s.next trackAngles t)
      have hstart := start_splitFrom separator trackAngles (i + 1) (s.next trackAngles t) ts
      rw [splitFrom] at hp
      generalize splitFrom separator trackAngles (i + 1) (s.next trackAngles t) ts = parts
        at hp hend hstart
      obtain ⟨part, later⟩ := parts
      rw [List.length_cons]
      dsimp only at hp hend hstart
      split at hp
      · -- the part in progress ends here, so the last one is that of the rest
        have := hend p (by simpa using hp)
        omega
      · cases later with
        | nil =>
            obtain rfl := Option.some.inj hp
            have := hend part rfl
            show i + (part.lexemes.length + 1) = _
            omega
        | cons q later =>
            have := hend p (by simpa using hp)
            omega

end Part

theorem end_parameters {start : Nat} {ts : List Lexeme} {p : Part}
    (h : (parameters start ts).getLast? = some p) :
    p.start + p.lexemes.length = start + ts.length := by
  unfold parameters splitTopLevel at h
  split at h
  · cases h
  · exact Part.end_splitFrom p h

theorem getLast?_of_withoutObject {params : List Part} {p : Part}
    (h : withoutObject params = [p]) : params.getLast? = some p := by
  unfold withoutObject at h
  split at h
  · cases params with
    | nil => cases h
    | cons q params =>
        obtain rfl : params = [p] := h
        rfl
  · rw [h]
    rfl

/-! ## The parameters of an operator -/

namespace Bracketed

variable {b : Bracketed} {sig : OperatorSignature} {p : Part} {close : Nat}

/-- The parameters of an operator are what stands in the parentheses behind its symbol. -/
theorem parameters_of_operatorSignature? (h : b.operatorSignature? = some sig) :
    ∃ close, b.roundEnd? sig.opener = some close ∧
      sig.params = parameters (sig.opener + 1) (b.between (sig.opener + 1) close) := by
  simp only [operatorSignature?] at h
  split at h
  · cases h
  split at h
  · cases h
  split at h
  · cases h
  next close hclose =>
    obtain rfl := Option.some.inj h
    exact ⟨close, hclose, rfl⟩

theorem Nested.end_of_index (hb : b.Nested) (hclose : b.roundEnd? sig.opener = some close)
    (hparams : sig.params = parameters (sig.opener + 1) (b.between (sig.opener + 1) close))
    (hone : withoutObject sig.params = [p]) : p.start + p.lexemes.length = close := by
  have hcloser := closer?_of_roundEnd? hclose
  have hlt := Pairing.lt_of_closer? hcloser
  have hend := end_parameters (hparams ▸ getLast?_of_withoutObject hone)
  rw [length_between (Nat.le_of_lt (hb.closer?_lt_size hcloser))] at hend
  omega

end Bracketed

theorem Part.StandsIn.any_iff {b : Bracketed} {p : Part} (h : p.StandsIn b) {q : Lexeme → Bool} :
    p.lexemes.any q = true ↔
      ∃ k, p.start ≤ k ∧ k < p.start + p.lexemes.length ∧ (b.at? k).any q = true := by
  simp only [List.any_eq_true]
  constructor
  · rintro ⟨t, ht, hq⟩
    obtain ⟨k, hk, rfl⟩ := List.mem_iff_getElem.1 ht
    refine ⟨p.start + k, Nat.le_add_right _ _, by omega, ?_⟩
    rw [h k _ (List.getElem?_eq_getElem hk)]
    exact hq
  · rintro ⟨k, hle, hlt, hq⟩
    obtain ⟨k, rfl⟩ := Nat.exists_eq_add_of_le hle
    have hk : k < p.lexemes.length := by omega
    rw [h k _ (List.getElem?_eq_getElem hk)] at hq
    exact ⟨_, List.getElem_mem hk, hq⟩

/-! ## The verdict -/

section Verdict

variable {v : View} {sig : OperatorSignature} {p : Part}

def OperatorSignature.plainIndices (s : OperatorSignature) : List Part :=
  withoutObject (splitTopLevel "," false (s.opener + 1) s.paramLexemes)

/-- The note on a subscript operator whose parameters can be counted in two ways. -/
def OperatorSignature.undecided (s : OperatorSignature) : Verdict :=
  .ambiguous (some s.nameSpan)
    "default argument with '<' or '>' makes the parameter count undecidable"
    ["multi-argument-subscript-operator"]

/-- A single index is found as several if it is taken for a pack.  If not, it is silent unless the
other reading has two. -/
theorem examineManyIndices_of_one (hsub : subscript? v = some sig)
    (hone : withoutObject sig.params = [p]) :
    examineManyIndices v =
      if isPack p then .found (some sig.nameSpan)
      else if 2 ≤ sig.plainIndices.length && angleInDefault false sig.paramLexemes then
        sig.undecided
      else .absent := by
  have hvoid : isVoidList [p] = true → isPack p = false := by
    obtain ⟨start, lexemes⟩ := p
    intro h
    match lexemes, h with
    | [t], h =>
      simp only [isVoidList, Lexeme.isWord, Bool.and_eq_true, beq_iff_eq] at h
      simp [isPack, Lexeme.isPunct, h.1]
  have hdisagree : ∀ n < 2, readingsDisagree sig.plainIndices.length n =
      decide (2 ≤ sig.plainIndices.length) := by
    intro n hn
    rw [readingsDisagree, ← Bool.decide_and]
    exact decide_eq_decide.2 (by omega)
  simp only [examineManyIndices, hsub, indexParameters, hone]
  rw [← OperatorSignature.plainIndices]
  cases hlist : isVoidList [p] with
  | true => simp [hvoid hlist, hdisagree, OperatorSignature.undecided]
  | false => simp [hdisagree, OperatorSignature.undecided]

end Verdict

/-- In every text, a subscript operator with one index is reported to have several exactly if a
`...` stands anywhere between the start of the index and the closing parenthesis.  Without one it is
not reported, and if the reading without angles counts less than two indices or no default holds a
`<` or `>`, there is no note either. -/
theorem ellipsis_makes_pack {disabled : List String}
    (known : ∀ id ∈ disabled, standardCatalog.contains id = true)
    (henabled : manyIndices.id ∉ disabled) (name text : String) (floor : Int) {f : Fragment}
    {sig : OperatorSignature} {p : Part} (hf : f ∈ (scan name text).fragments)
    (hkind : f.kind = .operatorDefinition) (hsub : subscript? f.view = some sig)
    (hone : withoutObject sig.params = [p]) :
    ∃ report close, classifyText name text standardCatalog floor disabled = .ok report ∧
      f.view.bracketed.roundEnd? sig.opener = some close ∧
      p.start + p.lexemes.length = close ∧
      ((∃ k, p.start ≤ k ∧ k < close ∧ f.view.bracketed.punctAt k "..." = true) →
        manyIndices.examine f.view = .found (some sig.nameSpan) ∧
        { f.spot (some sig.nameSpan) with feature := manyIndices.id, file := f.file } ∈
          report.classification.findings) ∧
      ((∀ k, p.start ≤ k → k < close → f.view.bracketed.punctAt k "..." = false) →
        manyIndices.examine f.view =
          if 2 ≤ sig.plainIndices.length && angleInDefault false sig.paramLexemes then
            sig.undecided
          else .absent) := by
  have hb : f.view.bracketed.Nested := Bracketed.nested_ofLexemes _
  have hsignature : f.view.bracketed.operatorSignature? = some sig :=
    (Option.filter_eq_some_iff.1 hsub).1
  obtain ⟨close, hclose, hparams⟩ := Bracketed.parameters_of_operatorSignature? hsignature
  have hend := hb.end_of_index hclose hparams hone
  have hmem : p ∈ sig.params := List.mem_of_getLast? (getLast?_of_withoutObject hone)
  have hstands : p.StandsIn f.view.bracketed := by
    rw [hparams] at hmem
    exact Part.standsIn_of_mem_split hmem
  have hpack : isPack p = true ↔
      ∃ k, p.start ≤ k ∧ k < close ∧ f.view.bracketed.punctAt k "..." = true := by
    rw [isPack, hstands.any_iff, hend]
    rfl
  have hverdict := examineManyIndices_of_one hsub hone
  refine ⟨_, close, classifyText_standard known name text floor, hclose, hend, ?_, ?_⟩
  · intro hellipsis
    rw [if_pos (hpack.2 hellipsis)] at hverdict
    refine ⟨hverdict, ?_⟩
    have hstandard : manyIndices ∈ standardMatchers := by simp [standardMatchers]
    have hmatch : Dispatcher.match? (manyIndices.outcome f) =
        some { f.spot (some sig.nameSpan) with feature := manyIndices.id, file := f.file } := by
      rw [Matcher.outcome, show manyIndices.examine f.view = _ from hverdict]
      rfl
    exact ((Dispatcher.mem_findings_iff hstandard henabled).2
      ⟨f, hf, by simp [manyIndices, hkind], hmatch⟩).1
  · intro hnone
    have hno : ¬ isPack p = true := by
      rw [hpack]
      rintro ⟨k, hle, hlt, hk⟩
      rw [hnone k hle hlt] at hk
      cases hk
    rw [if_neg hno] at hverdict
    exact hverdict

/-- The index of a function pointer with variable arguments. -/
theorem ellipsis_makes_pack_pointer :
    ∃ (text : String) (f : Fragment) (sig : OperatorSignature) (p : Part) (report : FileReport),
      text = "struct S \x7b int operator[](int (*f)(...)); \x7d;" ∧
      (∀ id ∈ ["static-call-operator"], standardCatalog.contains id = true) ∧
      manyIndices.id ∉ ["static-call-operator"] ∧ f ∈ (scan "a.cpp" text).fragments ∧
      f.kind = .operatorDefinition ∧ subscript? f.view = some sig ∧
      withoutObject sig.params = [p] ∧
      classifyText "a.cpp" text standardCatalog 20 ["static-call-operator"] = .ok report ∧
      ∃ a ∈ report.classification.findings, a.feature = manyIndices.id := by
  have known : ∀ id ∈ ["static-call-operator"], standardCatalog.contains id = true := by
    decide +kernel
  obtain ⟨f, hf, hkind, sig, hsub, p, -, hone, k, hk, hle, hdots⟩ :
      ∃ f ∈ (scan "a.cpp" "struct S \x7b int operator[](int (*f)(...)); \x7d;").fragments,
        f.kind = .operatorDefinition ∧ ∃ sig ∈ subscript? f.view, ∃ p ∈ sig.params,
          withoutObject sig.params = [p] ∧ ∃ k < p.start + p.lexemes.length, p.start ≤ k ∧
            f.view.bracketed.punctAt k "..." = true := by
    rw [scan_fragments_eq (by decide +kernel)]
    decide +kernel
  obtain ⟨report, close, hreport, -, hend, hfound, -⟩ :=
    ellipsis_makes_pack known (by decide) "a.cpp" _ 20 hf hkind hsub hone
  exact ⟨_, f, sig, p, report, rfl, known, by decide, hf, hkind, hsub, hone, hreport, _,
    (hfound ⟨k, hle, hend ▸ hk, hdots⟩).2, rfl⟩

/-- Every `...` of the lexemes stands inside a bracket or a template argument list, as a split with
angles reads them from the state on. -/
def nestsEllipses (s : SplitState) : List Lexeme → Bool
  | [] => true
  | t :: ts =>
    !(t.isPunct "..." && s.depth == 0 && s.angles == 0) && nestsEllipses (s.next true t) ts

/-- An index whose type takes a pack as arguments, and one that is a pointer to a function with
variable arguments, are each found to be several. -/
theorem nested_ellipses_found :
    (∃ f ∈ (scan "a.cpp"
        "template <class... Ts> struct S \x7b int operator[](std::tuple<Ts...> i); \x7d;").fragments,
      f.kind = .operatorDefinition ∧ ∃ sig ∈ subscript? f.view, ∃ p ∈ sig.params,
        withoutObject sig.params = [p] ∧ nestsEllipses {} p.lexemes = true ∧
        manyIndices.examine f.view = .found (some sig.nameSpan)) ∧
    ∃ f ∈ (scan "a.cpp" "struct S \x7b int operator[](int (*f)(...)); \x7d;").fragments,
      f.kind = .operatorDefinition ∧ ∃ sig ∈ subscript? f.view, ∃ p ∈ sig.params,
        withoutObject sig.params = [p] ∧ nestsEllipses {} p.lexemes = true ∧
        manyIndices.examine f.view = .found (some sig.nameSpan) := by
  refine ⟨?_, ?_⟩
  all_goals
    rw [scan_fragments_eq (by decide +kernel)]
    decide +kernel

end CxxFloor
