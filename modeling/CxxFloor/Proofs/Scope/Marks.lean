/-
# What makes a scope a template

A scope is a template through its own template header, through the scope around
it, or as the body of a generic lambda (`Bracketed.Marks`), and through nothing
else (`Bracketed.Opens.template_iff`).  A function and a lambda come to their
mark on two ways: what a head says does not depend on the parameters behind the
name (`Boundary.template_of_head`), while the look ahead of a lambda asks for an
`auto` among them (`Bracketed.template_of_lambdaAhead`).

Each mark comes with the names of the parameters that it stands for, and the
scope hands them on to all that is inside.
-/
import CxxFloor.Proofs.Scope.Expected

namespace CxxFloor

/-- A template header in front of a scope of this kind belongs to the scope. -/
def ScopeKind.takesHeader : ScopeKind → Bool
  | namespaceScope | lambda => false
  | file | record | union | enumeration | function | block => true

namespace Bracketed

variable {b : Bracketed}

/-! ## Heads -/

/-- A head that announces no namespace hands on what its template headers and the scope around
say. -/
theorem head_template {scope : Scope} {start stop : Nat} {kind : ScopeKind}
    (h : (b.head scope start stop).kind = some kind) (hkind : kind ≠ .namespaceScope) :
    (b.head scope start stop).template =
        ((b.headFront start stop).template || scope.template) ∧
      (b.head scope start stop).templateNames =
        (b.headFront start stop).templateNames ++ scope.templateNames := by
  generalize hhead : b.head scope start stop = head at h ⊢
  unfold Bracketed.head at hhead
  dsimp only at hhead
  -- an initialiser has no kind, and a namespace has another one
  repeat' split at hhead
  all_goals
    subst hhead
    first
    | exact ⟨rfl, rfl⟩
    | cases h
  exact absurd rfl hkind

theorem head_template_of_namespace {scope : Scope} {start stop : Nat}
    (h : (b.head scope start stop).kind = some .namespaceScope) :
    (b.head scope start stop).template = false := by
  have hclass : ∀ key, classScope key ≠ .namespaceScope := by
    intro key
    unfold classScope
    split <;> simp
  generalize hhead : b.head scope start stop = head at h ⊢
  unfold Bracketed.head at hhead
  dsimp only at hhead
  repeat' split at hhead
  all_goals
    subst hhead
    first
    | rfl
    | exact absurd (Option.some.inj h) (hclass _)
    | cases h

end Bracketed

/-- A scope that is no lambda is told of templates what its head says. -/
theorem Boundary.template_of_head {b : Bracketed} {s : ScanState} {scope : Scope}
    (h : Boundary b scope.opener s) (hopens : b.Opens scope) (hkind : scope.kind ≠ .lambda) :
    (b.head s.scope s.head scope.opener).kind = some scope.kind ∧
      scope.template = (b.head s.scope s.head scope.opener).template ∧
      scope.templateNames = (b.head s.scope s.head scope.opener).templateNames := by
  obtain ⟨hhead, hscopes⟩ := h.enterScope_of_opens hopens hkind
  have hscope := (List.cons.inj hscopes).1
  exact ⟨hhead, (congrArg Scope.template hscope).symm, (congrArg Scope.templateNames hscope).symm⟩

/-! ## Marks -/

namespace Bracketed

variable {b : Bracketed}

/-- What marks a scope as a template, with the names of the parameters that are known by it.  The
scope is read with a head at its brace, or it is the body of the lambda that is introduced at
index `i`. -/
inductive Marks (b : Bracketed) (scope : Scope) : List String → Prop
  | header {s : ScanState} (hkind : scope.kind.takesHeader = true) (hs : Boundary b scope.opener s)
      (htemplate : (b.headFront s.head scope.opener).template = true) :
      Marks b scope (b.headFront s.head scope.opener).templateNames
  | around {s : ScanState} (hkind : scope.kind.takesHeader = true) (hs : Boundary b scope.opener s)
      (htemplate : s.scope.template = true) : Marks b scope s.scope.templateNames
  | parameters {i close j : Nat} {s : ScanState} {names : List String} (hkind : scope.kind = .lambda)
      (hs : Boundary b i s) (hannounces : b.Announces s.scope i { scope with resume := none })
      (hclose : b.pairs.partner? i = some close)
      (hlist : b.lambdaTemplate? (close + 1) = some (j, some names)) : Marks b scope names
  | placeholder {i close j : Nat} {s : ScanState} {names? : Option (List String)}
      (hkind : scope.kind = .lambda) (hs : Boundary b i s)
      (hannounces : b.Announces s.scope i { scope with resume := none })
      (hclose : b.pairs.partner? i = some close)
      (hlist : b.lambdaTemplate? (close + 1) = some (j, names?)) (hauto : b.takesAuto j = true) :
      Marks b scope []
  | aroundLambda {i : Nat} {s : ScanState} (hkind : scope.kind = .lambda) (hs : Boundary b i s)
      (hannounces : b.Announces s.scope i { scope with resume := none })
      (htemplate : s.scope.template = true) : Marks b scope s.scope.templateNames

/-- The body of a lambda is told of templates what its introducer finds ahead. -/
theorem Announces.template_eq {enclosing body : Scope} {i close j : Nat}
    {names? : Option (List String)} (h : b.Announces enclosing i body)
    (hclose : b.pairs.partner? i = some close)
    (hlist : b.lambdaTemplate? (close + 1) = some (j, names?)) :
    body.template = (names?.isSome || b.takesAuto j || enclosing.template) ∧
      body.templateNames = names?.getD [] ++ enclosing.templateNames := by
  obtain ⟨close', j', names', hclose', hlist', htemplate, hnames, -⟩ :=
    template_of_lambdaAhead h.ahead
  obtain rfl := Option.some.inj (hclose'.symm.trans hclose)
  cases hlist'.symm.trans hlist
  exact ⟨htemplate, hnames⟩

/-- A scope that is read with its head is a template by its header or by the scope around it. -/
theorem Opens.template_of_takesHeader {scope : Scope} (hopens : b.Opens scope)
    (hkind : scope.kind.takesHeader = true) {s : ScanState} (hs : Boundary b scope.opener s) :
    scope.template = ((b.headFront s.head scope.opener).template || s.scope.template) ∧
      scope.templateNames =
        (b.headFront s.head scope.opener).templateNames ++ s.scope.templateNames := by
  have hne : ∀ kind : ScopeKind, kind.takesHeader = false → scope.kind ≠ kind := by
    rintro kind hno rfl
    rw [hkind] at hno
    cases hno
  obtain ⟨hsome, htemplate, hnames⟩ := hs.template_of_head hopens (hne .lambda rfl)
  rw [htemplate, hnames]
  exact head_template hsome (hne .namespaceScope rfl)

theorem Marks.template {scope : Scope} {names : List String} (h : b.Marks scope names)
    (hopens : b.Opens scope) : scope.template = true ∧ names ⊆ scope.templateNames := by
  cases h with
  | header hkind hs htemplate =>
      obtain ⟨hmark, hnames⟩ := hopens.template_of_takesHeader hkind hs
      rw [hmark, hnames, htemplate]
      exact ⟨rfl, List.subset_append_left _ _⟩
  | around hkind hs htemplate =>
      obtain ⟨hmark, hnames⟩ := hopens.template_of_takesHeader hkind hs
      rw [hmark, hnames, htemplate, Bool.or_true]
      exact ⟨rfl, List.subset_append_right _ _⟩
  | parameters _ _ hannounces hclose hlist =>
      obtain ⟨hmark, hnames⟩ := hannounces.template_eq hclose hlist
      exact ⟨by simpa using hmark, hnames ▸ List.subset_append_left _ _⟩
  | placeholder _ _ hannounces hclose hlist hauto =>
      obtain ⟨hmark, -⟩ := hannounces.template_eq hclose hlist
      exact ⟨by simpa [hauto] using hmark, List.nil_subset _⟩
  | aroundLambda _ _ hannounces htemplate =>
      obtain ⟨_, _, _, -, -, hmark, hnames, -⟩ := template_of_lambdaAhead hannounces.ahead
      exact ⟨by simpa [htemplate] using hmark, hnames ▸ List.subset_append_right _ _⟩

theorem Opens.template_iff {scope : Scope} (hopens : b.Opens scope) :
    scope.template = true ↔ ∃ names, b.Marks scope names := by
  refine ⟨fun htemplate => ?_, fun ⟨_, h⟩ => (h.template hopens).1⟩
  by_cases hlambda : scope.kind = .lambda
  · obtain ⟨i, s, hs, hannounces⟩ := hopens.exists_introducer hlambda
    obtain ⟨close, j, names?, hclose, hlist, hmark, -⟩ := template_of_lambdaAhead hannounces.ahead
    have hmark : scope.template = _ := hmark
    rw [htemplate] at hmark
    cases names? with
    | some names => exact ⟨names, .parameters hlambda hs hannounces hclose hlist⟩
    | none =>
        simp only [Option.isSome_none, Bool.false_or] at hmark
        rcases Bool.or_eq_true_iff.1 hmark.symm with hauto | haround
        · exact ⟨[], .placeholder hlambda hs hannounces hclose hlist hauto⟩
        · exact ⟨_, .aroundLambda hlambda hs hannounces haround⟩
  · obtain ⟨s, hs, -⟩ := id hopens
    obtain ⟨hsome, hmark, -⟩ := hs.template_of_head hopens hlambda
    by_cases hnamespace : scope.kind = .namespaceScope
    · rw [head_template_of_namespace (hsome.trans (congrArg some hnamespace)), htemplate] at hmark
      cases hmark
    have hkind : scope.kind.takesHeader = true := by
      cases h : scope.kind <;> first | rfl | contradiction
    rw [(hopens.template_of_takesHeader hkind hs).1] at htemplate
    rcases Bool.or_eq_true_iff.1 htemplate with hheader | haround
    · exact ⟨_, .header hkind hs hheader⟩
    · exact ⟨_, .around hkind hs haround⟩

end Bracketed

end CxxFloor
