/-
# Inside a template

Main statement: a scope is a template exactly if its own template header, the
scope around it or the introducer of a generic lambda says so, and whatever is
cut out between its braces is told that it stands in a template and knows the
parameters (`template_reaches_fragments`), at any depth and however wrong the
brackets are.

A fragment is cut behind its first token, for a declaration many steps behind.
What it is told holds at its first token all the same
(`CxxFloor.Proofs.Scope.Told`), and there all braces are open that the fragment
stands in.
-/
import CxxFloor.Proofs.Scope.Marks
import CxxFloor.Proofs.Scope.Told

namespace CxxFloor

theorem Bracketed.Opens.hasOpen {b : Bracketed} {scope : Scope} (h : b.Opens scope) {c i : Nat}
    (hc : b.pairs.partner? scope.opener = some c) (hlt : scope.opener < i) (hle : i ≤ c) :
    b.HasOpen i scope :=
  ⟨h, Pairing.mem_openAt.2 ⟨hlt, c, hc, hle⟩⟩

/-- In every text, a scope is a template exactly if something marks it as one; and every fragment
with its first token between the braces of a marked scope, the preprocessor lines apart, stands in a
template and knows the names of the mark. -/
theorem template_reaches_fragments (name text : String) :
    (∀ scope, (Bracketed.ofText text).Opens scope →
      (scope.template = true ↔ ∃ names, (Bracketed.ofText text).Marks scope names)) ∧
    ∀ f ∈ (scan name text).fragments, f.kind ≠ .directive →
      ∃ first last, (Source.ofText name text).Window f first last ∧
        ∀ (scope : Scope) (c : Nat) (names : List String), (Bracketed.ofText text).Opens scope →
          (Bracketed.ofText text).pairs.partner? scope.opener = some c →
          (Bracketed.ofText text).Marks scope names → scope.opener < first → first < c →
          f.context.inTemplate = true ∧ names ⊆ f.context.templateNames := by
  refine ⟨fun scope hopens => hopens.template_iff, fun f hf hkind => ?_⟩
  obtain ⟨-, -, -, first, last, -, -, -, hwindow⟩ := Source.exists_step hf hkind
  refine ⟨first, last, hwindow, fun scope c names hopens hc hmarks hlt hlt' => ?_⟩
  obtain ⟨t, -, htemplate, hnames⟩ := Source.template_iff hf hkind hwindow
  have hopen := hopens.hasOpen hc hlt (Nat.le_of_lt hlt')
  obtain ⟨hmark, hsubset⟩ := hmarks.template hopens
  refine ⟨htemplate.2 (.inr ⟨scope, hopen, hmark⟩), fun p hp => ?_⟩
  exact (hnames p).2 (.inr ⟨scope, hopen, hsubset hp⟩)

/-- The member of a record in a lambda in a function template. -/
theorem template_reaches_fragments_member :
    ∃ (text : String) (scope : Scope),
      text = "template <class T> void f() \x7b g([](T x) \x7b struct L \x7b int a; \x7d; \x7d); \x7d" ∧
      (Bracketed.ofText text).Opens scope ∧ scope.kind = .function ∧
      (Bracketed.ofText text).pairs.partner? scope.opener = some 30 ∧
      (Bracketed.ofText text).Marks scope ["T"] ∧ scope.opener < 22 ∧
      ∃ f ∈ (scan "a.cpp" text).fragments, f.kind = .declaration ∧
        (Source.ofText "a.cpp" text).Window f 22 23 ∧
        f.context.inTemplate = true ∧ "T" ∈ f.context.templateNames := by
  generalize htext :
    "template <class T> void f() \x7b g([](T x) \x7b struct L \x7b int a; \x7d; \x7d); \x7d" = text
  let scope : Scope :=
    { kind := .function, opener := 9, template := true, templateNames := ["T"] }
  obtain ⟨hindex, hindex', hsize, hbrace, hscopes, hpartner, hheader, hnames⟩ :
      ((Bracketed.ofText text).after 9).1 = 9 ∧ ((Bracketed.ofText text).after 24).1 = 24 ∧
      24 < (Bracketed.ofText text).lexemes.size ∧ (Bracketed.ofText text).punctAt 9 "\x7b" = true ∧
      (((Bracketed.ofText text).after 9).2.openBrace (.ofText text) 9).1.scopes =
        scope :: ((Bracketed.ofText text).after 9).2.scopes ∧
      (Bracketed.ofText text).pairs.partner? 9 = some 30 ∧
      ((Bracketed.ofText text).headFront ((Bracketed.ofText text).after 9).2.head 9).template = true ∧
      ((Bracketed.ofText text).headFront
        ((Bracketed.ofText text).after 9).2.head 9).templateNames = ["T"] := by
    rw [← htext]
    decide +kernel
  have hcut : ∀ hi : 24 < (Bracketed.ofText text).lexemes.size, .span .declaration 22 23
      (((Bracketed.ofText text).after 24).2.context (.ofText text) 22) ∈
      (((Bracketed.ofText text).after 24).2.step (.ofText text) 24
        (Bracketed.ofText text).lexemes[24]).cuts := by
    rw [← htext]
    decide +kernel
  have hopens : (Bracketed.ofText text).Opens scope :=
    ⟨_, .of_after hindex, hbrace, hscopes⟩
  have hmarks : (Bracketed.ofText text).Marks scope ["T"] := by
    rw [← hnames]
    exact .header rfl (.of_after hindex) hheader
  obtain ⟨f, hf, hkind, hwindow⟩ :=
    Source.exists_fragment "a.cpp" (.of_after hindex') hsize (hcut hsize)
  obtain ⟨first, last, hwindow', hreaches⟩ :=
    (template_reaches_fragments "a.cpp" text).2 f hf (by rw [hkind]; decide)
  obtain ⟨rfl, rfl⟩ := hwindow.unique hwindow'
  obtain ⟨htemplate, hsubset⟩ :=
    hreaches scope 30 ["T"] hopens hpartner hmarks (by decide) (by decide)
  exact ⟨text, scope, rfl, hopens, rfl, hpartner, hmarks, by decide, f, hf, hkind, hwindow, htemplate,
    hsubset (List.mem_singleton_self _)⟩

end CxxFloor
