/-
# Nothing can go wrong

Whatever the text, with known disabled ids it gets a report
(`classification_never_fails`).  The reasons are kept apart: what a step reads
and looks up without asking is there (`Boundary.lt_size_of_reads`,
`Boundary.isSome_of_looks`), so the step that stops where something is missing
does not stop (`Boundary.checked_step`); every cut names tokens of the file
(`Source.fragment?_of_mem_cuts`), a fragment has the tokens that the matchers
of its kind rely on (`Source.Window.lt_size_of_reads`,
`Checked.examineBranch_eq`, `Checked.examinePlaceholder_eq`), and the features
of what is found are in the catalog (`classifyText_standard`).
-/
import CxxFloor.Proofs.Checked
import CxxFloor.Proofs.Feature.Standard
import CxxFloor.Proofs.Fragment.Window

namespace CxxFloor

/-- The indices at which the matchers of a fragment take it that there is a token. -/
inductive Fragment.Reads (f : Fragment) : Nat → Prop
  -- what opens the operand of an `auto`
  | opener (h : f.kind = .call) : Reads f 1
  -- the last token of a branch
  | last (h : f.kind = .branch) : Reads f (f.tokens.size - 1)

theorem Checked.examineBranch_eq {f : Fragment} (h : f.tokens.size - 1 < f.tokens.size) :
    Checked.examineBranch f.view = some (CxxFloor.examineBranch f.view) := by
  have hlast : f.view.lexemes.back? = some f.tokens[f.tokens.size - 1].toLexeme := by
    simp [Fragment.view, Array.back?, h]
  rw [Checked.examineBranch, CxxFloor.examineBranch, hlast]
  rfl

theorem Checked.examinePlaceholder_eq {f : Fragment} (h : 1 < f.tokens.size) :
    Checked.examinePlaceholder f.view = some (CxxFloor.examinePlaceholder f.view) := by
  have hopener : f.view.bracketed.at? 1 = some f.tokens[1].toLexeme := by
    simp [Fragment.view, View.bracketed, Bracketed.ofLexemes, Bracketed.at?, h]
  unfold Checked.examinePlaceholder CxxFloor.examinePlaceholder
  rw [apply_ite some]
  refine ite_congr rfl (fun _ => rfl) fun _ => ?_
  rw [apply_ite some]
  refine ite_congr rfl (fun _ => rfl) fun _ => (Checked.bind_eq hopener _).trans ?_
  rw [Bracketed.punctAt, hopener, Option.any_some]
  rfl

namespace Source

variable {name text : String} {f : Fragment} {first last : Nat}

theorem Window.lt_size_of_reads (h : (Source.ofText name text).Window f first last)
    (hcut : Cuts text f.kind first last) {k : Nat} (hk : f.Reads k) : k < f.tokens.size := by
  rw [h.size_tokens]
  have hle := h.first_le
  cases hk with
  | opener hkind =>
      obtain ⟨i, s, -, -, hstep⟩ := hcut
      rw [hkind] at hstep
      cases hstep with
      | call hclose =>
          have := Pairing.lt_of_closer? hclose
          omega
  | last hkind =>
      rw [h.size_tokens]
      omega

theorem kind_ne_directive {kind : FragmentKind} (h : Cuts text kind first last) :
    kind ≠ .directive := by
  obtain ⟨i, s, -, -, hstep⟩ := h
  intro hkind
  rw [hkind] at hstep
  cases hstep

end Source

/-- What a fragment of a scan is: a preprocessor line of the source, or the window of some of its
other tokens, and enough of them. -/
theorem fragment_wellFormed {name text : String} {f : Fragment}
    (hf : f ∈ (scan name text).fragments) :
    (f.kind = .directive → ∃ t ∈ (Source.ofText name text).directives,
      f = (Source.ofText name text).directiveFragment t) ∧
    (f.kind ≠ .directive → ∃ first last, (Source.ofText name text).Window f first last ∧
      ∀ k, f.Reads k → k < f.tokens.size) := by
  obtain ⟨cut, hcut, hfragment⟩ := List.mem_filterMap.1 hf
  obtain ⟨g, hg, hcase⟩ := Source.fragment?_of_mem_cuts name hcut
  obtain rfl : g = f := Option.some.inj (hg.symm.trans hfragment)
  rcases hcase with ⟨k, t, -, ht, rfl⟩ | ⟨kind, first, last, -, -, hspan, hwindow, hkind, -⟩
  · exact ⟨fun _ => ⟨t, Array.mem_of_getElem? ht, rfl⟩, fun h => absurd rfl h⟩
  · refine ⟨fun h => absurd (hkind.symm.trans h) (Source.kind_ne_directive hspan), fun _ => ?_⟩
    exact ⟨first, last, hwindow, fun k hk => hwindow.lt_size_of_reads (hkind ▸ hspan) hk⟩

/-- Every text is classified, whatever is in it.  No step of the walk reads a token that is not
there or looks up a partner that is missing, so that the checked step comes through; no cut is
empty or reaches out of the file, so each becomes a fragment; and every fragment is a preprocessor
line or a window of the file that has the tokens its matchers rely on, so that these come through
as well. -/
theorem classification_never_fails {disabled : List String}
    (hdisabled : ∀ id ∈ disabled, standardCatalog.contains id = true) (name text : String)
    (floor : Int) :
    (∃ r, classifyText name text standardCatalog floor disabled = .ok r) ∧
    (∀ (i : Nat) (s : ScanState), Boundary (.ofText text) i s →
      s.head ≤ i ∧ i ≤ (Bracketed.ofText text).size ∧
      (i < (Bracketed.ofText text).size →
        ∀ k, s.Reads (.ofText text) i k → k < (Bracketed.ofText text).size) ∧
      (∀ k, s.Looks (.ofText text) i k →
        ((Bracketed.ofText text).pairs.partner? k).isSome = true) ∧
      ∀ hi : i < (Bracketed.ofText text).lexemes.size,
        Checked.step (.ofText text) s i =
          some (s.step (.ofText text) i (Bracketed.ofText text).lexemes[i])) ∧
    (∀ cut ∈ cutsOfText text, ((Source.ofText name text).fragment? cut).isSome = true) ∧
    ∀ f ∈ (scan name text).fragments,
      (f.kind = .directive → ∃ t ∈ (Source.ofText name text).directives,
        f = (Source.ofText name text).directiveFragment t) ∧
      (f.kind ≠ .directive → ∃ first last, (Source.ofText name text).Window f first last ∧
        ∀ k, f.Reads k → k < f.tokens.size) ∧
      (f.kind = .branch → Checked.examineBranch f.view = some (examineBranch f.view)) ∧
      (f.kind = .call → Checked.examinePlaceholder f.view = some (examinePlaceholder f.view)) := by
  have hb : (Bracketed.ofText text).Nested := Bracketed.nested_ofLexemes _
  refine ⟨⟨_, classifyText_standard hdisabled name text floor⟩, ?_, ?_, ?_⟩
  · intro i s h
    exact ⟨h.headLe.1, (h.aligned hb).le_size, fun hi k hk => h.lt_size_of_reads hb hi hk,
      fun k hk => h.isSome_of_looks hb hk, fun hi => h.checked_step hb hi⟩
  · intro cut hcut
    obtain ⟨f, hf, -⟩ := Source.fragment?_of_mem_cuts name hcut
    rw [hf]
    rfl
  · intro f hf
    obtain ⟨hdirective, hwindow⟩ := fragment_wellFormed hf
    refine ⟨hdirective, hwindow, fun hkind => ?_, fun hkind => ?_⟩
    · obtain ⟨-, -, -, hreads⟩ := hwindow (by rw [hkind]; exact nofun)
      exact Checked.examineBranch_eq (hreads _ (.last hkind))
    · obtain ⟨-, -, -, hreads⟩ := hwindow (by rw [hkind]; exact nofun)
      exact Checked.examinePlaceholder_eq (hreads _ (.opener hkind))

/-- Brackets that cross, and an operand that is never closed. -/
theorem classification_never_fails_crossing :
    (∀ id ∈ ["elifdef-directive"], standardCatalog.contains id = true) ∧
      ∃ r, classifyText "a" "f(\x7b[)]; auto(" standardCatalog 20 ["elifdef-directive"] = .ok r := by
  have hdisabled : ∀ id ∈ ["elifdef-directive"], standardCatalog.contains id = true := by
    decide +kernel
  exact ⟨hdisabled, (classification_never_fails hdisabled "a" "f(\x7b[)]; auto(" 20).1⟩

end CxxFloor
