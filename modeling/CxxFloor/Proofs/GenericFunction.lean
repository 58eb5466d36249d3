/-
# Functions with placeholder parameters

A parameter that is declared with `auto` makes a lambda generic, and it makes a
function generic.  The two are not read in one place: the look ahead from the
introducer of a lambda asks for an `auto` among the parameters, the head of a
function is asked for template headers only.

Main statement: a function is a template exactly if its head has a template
header or the scope around it is a template, whatever its parameters are; a
lambda is one exactly if it has template parameters or an `auto` among its
parameters, or the scope around it is a template.  So a fragment in the body of
a function is told that it stands in a template by the header, by a scope
around the function, by a scope that opens inside the body, or by the front of
its own statement, and by nothing else (`placeholders_mark_lambdas_only`).  An
assertion of `false` in a function with an `auto` parameter is therefore not
found, and the same in a lambda is (`generic_function_hides_assertion`).
-/
import CxxFloor.Proofs.TemplateScope
import CxxFloor.Proofs.Feature.Slots

namespace CxxFloor

/-- What is open between the braces of a scope is open around it, or is the scope, or opens
inside. -/
theorem Bracketed.Opens.hasOpen_iff {b : Bracketed} (hb : b.Nested) {scope other : Scope}
    (hopens : b.Opens scope) {c i : Nat} (hc : b.pairs.partner? scope.opener = some c)
    (hlt : scope.opener < i) (hle : i ≤ c) :
    b.HasOpen i other ↔ b.HasOpen scope.opener other ∨ other = scope ∨
      b.HasOpen i other ∧ scope.opener < other.opener := by
  constructor
  · intro hopen
    obtain ⟨hother, c', hc', hle'⟩ := Pairing.mem_openAt.1 hopen.2
    rcases Nat.lt_trichotomy other.opener scope.opener with hout | heq | hin
    · exact .inl (hopen.1.hasOpen hc' hout (by omega))
    · exact .inr (.inl (hopen.1.unique hopens heq))
    · exact .inr (.inr ⟨hopen, hin⟩)
  · rintro (hout | rfl | ⟨hopen, -⟩)
    · obtain ⟨hother, c', hc', hle'⟩ := Pairing.mem_openAt.1 hout.2
      have hne : scope.opener ≠ c' := by
        rintro rfl
        rw [hb.partner_symm hc'] at hc
        cases hc
        omega
      have := hb.inside hc' hc hother (by omega)
      exact hout.1.hasOpen hc' (by omega) (by omega)
    · exact hopens.hasOpen hc hlt hle
    · exact hopen

/-- The innermost scope is open, unless it is the file. -/
theorem Boundary.hasOpen_scope {b : Bracketed} (hb : b.Nested) {i : Nat} {s : ScanState}
    (h : Boundary b i s) (htemplate : s.scope.template = true) : b.HasOpen i s.scope := by
  rw [← h.mem_scopes_iff hb]
  unfold ScanState.scope at htemplate ⊢
  cases hscopes : s.scopes with
  | nil =>
      rw [hscopes] at htemplate
      cases htemplate
  | cons scope outer => exact List.mem_cons_self

/-- A function is a template by its header or by the scope around it. -/
theorem Bracketed.Opens.template_of_function {b : Bracketed} {scope : Scope} {s : ScanState}
    (hopens : b.Opens scope) (hkind : scope.kind = .function) (hs : Boundary b scope.opener s) :
    scope.template = true ↔
      (b.headFront s.head scope.opener).template = true ∨ s.scope.template = true := by
  rw [(hopens.template_of_takesHeader (hkind ▸ rfl) hs).1, Bool.or_eq_true]

/-- What makes a template of the place of a fragment that stands in a function. -/
theorem Source.template_iff_in_function {name text : String} {f : Fragment}
    (hf : f ∈ (scan name text).fragments) (hkind : f.kind ≠ .directive) {first last : Nat}
    (hwindow : (Source.ofText name text).Window f first last) :
    ∃ t, Boundary (.ofText text) first t ∧
      ∀ (scope : Scope) (s : ScanState) (c : Nat), (Bracketed.ofText text).Opens scope →
        scope.kind = .function → Boundary (.ofText text) scope.opener s →
        (Bracketed.ofText text).pairs.partner? scope.opener = some c →
        scope.opener < first → first < c →
        (f.context.inTemplate = true ↔
          ((Bracketed.ofText text).headFront s.head scope.opener).template = true ∨
          (∃ outer, (Bracketed.ofText text).HasOpen scope.opener outer ∧ outer.template = true) ∨
          (∃ inner, (Bracketed.ofText text).HasOpen first inner ∧
            scope.opener < inner.opener ∧ inner.template = true) ∨
          ((Bracketed.ofText text).headFront t.head (Bracketed.ofText text).size).template
            = true) := by
  have hb : (Bracketed.ofText text).Nested := Bracketed.nested_ofLexemes _
  obtain ⟨t, ht, htold, -⟩ := template_iff hf hkind hwindow
  refine ⟨t, ht, fun scope s c hopens hfunction hs hc hlt hlt' => ?_⟩
  have hopen_iff : ∀ other, (Bracketed.ofText text).HasOpen first other ↔ _ := fun _ =>
    hopens.hasOpen_iff hb hc hlt (Nat.le_of_lt hlt')
  have hmark := hopens.template_of_function hfunction hs
  rw [htold]
  constructor
  · rintro (hfront | ⟨other, hopen, htemplate⟩)
    · exact .inr (.inr (.inr hfront))
    rcases (hopen_iff other).1 hopen with hout | rfl | ⟨-, hin⟩
    · exact .inr (.inl ⟨other, hout, htemplate⟩)
    · rcases hmark.1 htemplate with hheader | haround
      · exact .inl hheader
      · exact .inr (.inl ⟨s.scope, hs.hasOpen_scope hb haround, haround⟩)
    · exact .inr (.inr (.inl ⟨other, hopen, hin, htemplate⟩))
  · rintro (hheader | ⟨outer, hout, htemplate⟩ | ⟨inner, hopen, -, htemplate⟩ | hfront)
    · exact .inr ⟨scope, (hopen_iff scope).2 (.inr (.inl rfl)), hmark.2 (.inl hheader)⟩
    · exact .inr ⟨outer, (hopen_iff outer).2 (.inl hout), htemplate⟩
    · exact .inr ⟨inner, hopen, htemplate⟩
    · exact .inl hfront

/-- In every text, an `auto` among the parameters makes a template of a lambda and not of a
function; and a fragment in the body of a function stands in a template only through a header of
the function, through a scope around it or inside it, or through a header of its own statement. -/
theorem placeholders_mark_lambdas_only (name text : String) :
    (∀ (scope : Scope) (s : ScanState), (Bracketed.ofText text).Opens scope →
      scope.kind = .function → Boundary (.ofText text) scope.opener s →
      (scope.template = true ↔
        ((Bracketed.ofText text).headFront s.head scope.opener).template = true ∨
          s.scope.template = true)) ∧
    (∀ scope, (Bracketed.ofText text).Opens scope → scope.kind = .lambda →
      ∃ i s close j names?, Boundary (.ofText text) i s ∧
        (Bracketed.ofText text).Announces s.scope i { scope with resume := none } ∧
        (Bracketed.ofText text).pairs.partner? i = some close ∧
        (Bracketed.ofText text).lambdaTemplate? (close + 1) = some (j, names?) ∧
        (scope.template = true ↔ names?.isSome = true ∨
          (Bracketed.ofText text).takesAuto j = true ∨ s.scope.template = true)) ∧
    ∀ f ∈ (scan name text).fragments, f.kind ≠ .directive →
      ∃ first last t, (Source.ofText name text).Window f first last ∧
        Boundary (.ofText text) first t ∧
        ∀ (scope : Scope) (s : ScanState) (c : Nat), (Bracketed.ofText text).Opens scope →
          scope.kind = .function → Boundary (.ofText text) scope.opener s →
          (Bracketed.ofText text).pairs.partner? scope.opener = some c →
          scope.opener < first → first < c →
          (f.context.inTemplate = true ↔
            ((Bracketed.ofText text).headFront s.head scope.opener).template = true ∨
            (∃ outer, (Bracketed.ofText text).HasOpen scope.opener outer ∧
              outer.template = true) ∨
            (∃ inner, (Bracketed.ofText text).HasOpen first inner ∧
              scope.opener < inner.opener ∧ inner.template = true) ∨
            ((Bracketed.ofText text).headFront t.head (Bracketed.ofText text).size).template
              = true) := by
  refine ⟨fun scope s hopens hkind hs => hopens.template_of_function hkind hs,
    fun scope hopens hkind => ?_, fun f hf hkind => ?_⟩
  · obtain ⟨i, s, hs, hannounces⟩ := hopens.exists_introducer hkind
    obtain ⟨close, j, names?, hclose, hlist, htemplate, -⟩ :=
      Bracketed.template_of_lambdaAhead hannounces.ahead
    refine ⟨i, s, close, j, names?, hs, hannounces, hclose, hlist, ?_⟩
    have htemplate : scope.template = _ := htemplate
    rw [htemplate, Bool.or_eq_true, Bool.or_eq_true, or_assoc]
  · obtain ⟨-, -, -, first, last, -, -, -, hwindow⟩ := Source.exists_step hf hkind
    obtain ⟨t, ht, htemplate⟩ := Source.template_iff_in_function hf hkind hwindow
    exact ⟨first, last, t, hwindow, ht, htemplate⟩

/-- An assertion in a function with an `auto` parameter, outside of all templates. -/
theorem placeholders_mark_lambdas_only_assertion :
    ∃ (text : String) (scope : Scope) (s : ScanState),
      text = "void f(auto x) \x7b static_assert(false); \x7d" ∧
      (Bracketed.ofText text).Opens scope ∧ scope.kind = .function ∧ scope.opener = 6 ∧
      Boundary (.ofText text) 6 s ∧ scope.template = false ∧
      (Bracketed.ofText text).pairs.partner? 6 = some 12 ∧
      ∃ f ∈ (scan "a.cpp" text).fragments, f.kind = .staticAssertion ∧
        (Source.ofText "a.cpp" text).Window f 7 10 ∧ f.context.inTemplate = false := by
  generalize htext : "void f(auto x) \x7b static_assert(false); \x7d" = text
  let scope : Scope := { kind := .function, opener := 6 }
  obtain ⟨hindex, hindex', hsize, hbrace, hscopes, hscopes', hpartner, hplain, hplain'⟩ :
      ((Bracketed.ofText text).after 6).1 = 6 ∧ ((Bracketed.ofText text).after 7).1 = 7 ∧
      7 < (Bracketed.ofText text).lexemes.size ∧ (Bracketed.ofText text).punctAt 6 "\x7b" = true ∧
      (((Bracketed.ofText text).after 6).2.openBrace (.ofText text) 6).1.scopes =
        scope :: ((Bracketed.ofText text).after 6).2.scopes ∧
      ((Bracketed.ofText text).after 7).2.scopes = [scope] ∧
      (Bracketed.ofText text).pairs.partner? 6 = some 12 ∧
      ((Bracketed.ofText text).headFront
        ((Bracketed.ofText text).after 6).2.head 6).template = false ∧
      ((Bracketed.ofText text).headFront ((Bracketed.ofText text).after 7).2.head
        (Bracketed.ofText text).size).template = false := by
    rw [← htext]
    decide +kernel
  have hcut : ∀ hi : 7 < (Bracketed.ofText text).lexemes.size, .span .staticAssertion 7 10
      (((Bracketed.ofText text).after 7).2.context (.ofText text) 7) ∈
      (((Bracketed.ofText text).after 7).2.step (.ofText text) 7
        (Bracketed.ofText text).lexemes[7]).cuts := by
    rw [← htext]
    decide +kernel
  have hs : Boundary (.ofText text) 6 ((Bracketed.ofText text).after 6).2 := .of_after hindex
  have ht : Boundary (.ofText text) 7 ((Bracketed.ofText text).after 7).2 := .of_after hindex'
  have hopens : (Bracketed.ofText text).Opens scope := ⟨_, hs, hbrace, hscopes⟩
  obtain ⟨f, hf, hkind, hwindow⟩ := Source.exists_fragment "a.cpp" ht hsize (hcut hsize)
  obtain ⟨first, last, t, hwindow', ht', htemplate⟩ :=
    (placeholders_mark_lambdas_only "a.cpp" text).2.2 f hf (by rw [hkind]; decide)
  obtain ⟨rfl, rfl⟩ := hwindow.unique hwindow'
  obtain rfl := ht.unique ht'
  refine ⟨text, scope, _, rfl, hopens, rfl, rfl, hs, rfl, hpartner, f, hf, hkind, hwindow, ?_⟩
  have hb : (Bracketed.ofText text).Nested := Bracketed.nested_ofLexemes _
  have hnone : ∀ other, (Bracketed.ofText text).HasOpen 7 other → other = scope := by
    intro other hopen
    simpa [hscopes'] using (ht.mem_scopes_iff hb).2 hopen
  rw [← Bool.not_eq_true, htemplate scope _ 12 hopens rfl hs hpartner (by decide) (by decide),
    hplain, hplain']
  rintro (h | ⟨outer, hout, -⟩ | ⟨inner, hopen, hlt, -⟩ | h)
  · cases h
  · have := hnone outer ((hopens.hasOpen_iff hb hpartner (by decide) (by decide)).2 (.inl hout))
    subst this
    exact absurd (Pairing.mem_openAt.1 hout.2).1 (Nat.lt_irrefl _)
  · rw [hnone inner hopen] at hlt
    exact absurd hlt (Nat.lt_irrefl _)
  · cases h

/-- An assertion of `false` is found in a lambda with an `auto` parameter, and in a function with
a template header.  In a function with an `auto` parameter, at file scope or as a member, it is not,
and the fragments there are told that they stand in no template. -/
theorem generic_function_hides_assertion :
    (∃ report, classifyText "a.cpp" "auto g = [](auto x) \x7b static_assert(false); \x7d;"
        standardCatalog 20 [] = .ok report ∧
      ∃ a ∈ report.classification.findings, a.feature = messagelessAssertion.id) ∧
    (∃ report, classifyText "a.cpp" "template <class T> void f(T x) \x7b static_assert(false); \x7d"
        standardCatalog 20 [] = .ok report ∧
      ∃ a ∈ report.classification.findings, a.feature = messagelessAssertion.id) ∧
    (∃ report, classifyText "a.cpp" "void f(auto x) \x7b static_assert(false); \x7d"
        standardCatalog 20 [] = .ok report ∧
      ∀ a ∈ report.classification.findings, a.feature ≠ messagelessAssertion.id) ∧
    (∃ report, classifyText "a.cpp"
        "struct S \x7b void f(auto x) \x7b static_assert(false); \x7d \x7d;"
        standardCatalog 20 [] = .ok report ∧
      ∀ a ∈ report.classification.findings, a.feature ≠ messagelessAssertion.id) ∧
    ∀ f ∈ (scan "a.cpp" "void f(auto x) \x7b static_assert(false); \x7d").fragments,
      f.context.inTemplate = false := by
  have hstandard : messagelessAssertion ∈ standardMatchers := by simp [standardMatchers]
  refine ⟨⟨_, classifyText_standard (by simp) _ _ _, ?_⟩,
    ⟨_, classifyText_standard (by simp) _ _ _, ?_⟩, ⟨_, classifyText_standard (by simp) _ _ _, ?_⟩,
    ⟨_, classifyText_standard (by simp) _ _ _, ?_⟩, ?_⟩
  iterate 2
    refine (Dispatcher.exists_finding_iff hstandard (by simp)).2 ?_
    rw [scan_fragments_eq (by decide +kernel)]
    decide +kernel
  iterate 2
    intro a ha hfeature
    have hfound := (Dispatcher.exists_finding_iff hstandard (by simp)).1 ⟨a, ha, hfeature⟩
    rw [scan_fragments_eq (by decide +kernel)] at hfound
    revert hfound
    decide +kernel
  rw [scan_fragments_eq (by decide +kernel)]
  decide +kernel

end CxxFloor
