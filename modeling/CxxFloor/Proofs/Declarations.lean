/-
# The declarations of a file

Main statement: no token is counted as part of two declarations, but where one
of them stands in the body of a lambda that the other one holds
(`declarations_lie_apart`).  A member of a union counts as a declaration here.
No bracket pair has one end in a declaration and the other one outside, however
wrong the brackets of the file are.

A declaration runs from the head to the token before its semicolon or brace, or
to the one before a `try` in front of that.  How heads move is followed in
`CxxFloor.Proofs.Scope.Overlap`.  That no pair is cut comes from the brackets
that are open at both ends: those of the scopes around the statement, and no
others.
-/
import CxxFloor.Proofs.Scope.Overlap
import CxxFloor.Proofs.Scope.Passing

namespace CxxFloor

namespace Bracketed

variable {b : Bracketed} {i j : Nat}

/-- The run holds both ends of a pair or none. -/
def Whole (b : Bracketed) (first last : Nat) : Prop :=
  ∀ k l, b.pairs.partner? k = some l → (first ≤ k ∧ k ≤ last ↔ first ≤ l ∧ l ≤ last)

/-- Where the same brackets are open at both ends, every bracket has its partner in between. -/
theorem Nested.stretch_of_openAt (hb : b.Nested) (h : b.pairs.openAt j = b.pairs.openAt i)
    {k l : Nat} (hkl : b.pairs.partner? k = some l) (hik : i ≤ k) (hkj : k < j) :
    i ≤ l ∧ l < j := by
  constructor
  · by_contra hlt
    -- an opener from before the stretch is open at its start, so at its end
    have hopen : l ∈ b.pairs.openAt i :=
      Pairing.mem_openAt.2 ⟨by omega, k, hb.partner_symm hkl, hik⟩
    rw [← h] at hopen
    obtain ⟨-, c, hc, hle⟩ := Pairing.mem_openAt.1 hopen
    rw [hb.partner_symm hkl] at hc
    cases hc
    omega
  · by_contra hge
    -- an opener in the stretch that is open at its end would be open at its start
    have hopen : k ∈ b.pairs.openAt j := Pairing.mem_openAt.2 ⟨hkj, l, hkl, by omega⟩
    rw [h] at hopen
    have := (Pairing.mem_openAt.1 hopen).1
    omega

theorem Nested.whole (hb : b.Nested) {first last : Nat}
    (h : ∀ k l, b.pairs.partner? k = some l → first ≤ k → k ≤ last → first ≤ l ∧ l ≤ last) :
    b.Whole first last := by
  intro k l hkl
  constructor
  · rintro ⟨hk, hk'⟩
    exact h k l hkl hk hk'
  · rintro ⟨hl, hl'⟩
    exact h l k (hb.partner_symm hkl) hl hl'

end Bracketed

namespace Boundary

variable {b : Bracketed} {i : Nat} {s : ScanState} {kind : FragmentKind} {first last : Nat}
  {context : Context}

/-- A statement that is cut out holds both ends of a pair or none. -/
theorem whole_of_cut (hb : b.Nested) (h : Boundary b i s) (hi : i < b.lexemes.size)
    (hkind : kind.ofStatement = true)
    (hcut : .span kind first last context ∈ (s.step b i b.lexemes[i]).cuts) :
    b.Whole first last := by
  have htop : s.groups = [] := (ScanState.top_of_statement hcut hkind).1
  obtain ⟨rfl, hends⟩ := ScanState.endsStatement_of_cut hkind hcut
  have hsame : b.pairs.openAt i = b.pairs.openAt s.head := by
    rw [openersOf_of_top (h.aligned hb) htop, (h.headsOpen hb).head]
  refine hb.whole fun k l hkl hk hk' => ?_
  obtain ⟨hl, hlt⟩ := hb.stretch_of_openAt hsame hkl hk (Nat.lt_of_le_of_lt hk' hends.last_lt)
  exact ⟨hl, hends.le_last hb hkl hlt⟩

end Boundary

/-- How a cut lies to a later one, where both cut out statements: in front of it, or in a lambda
that it holds. -/
def Cut.StatementsApart (b : Bracketed) (c c' : Cut) : Prop :=
  ∀ ⦃kind kind' : FragmentKind⦄ ⦃first last first' last' : Nat⦄ ⦃context context' : Context⦄,
    c = .span kind first last context → c' = .span kind' first' last' context' →
    kind.declares = true → kind'.declares = true →
    last < first' ∨ first' < first ∧ b.InLambda first' last' first last

theorem statementsApart_cutsOfText (text : String) :
    (cutsOfText text).Pairwise (Cut.StatementsApart (.ofText text)) := by
  refine pairwise_cuts_of_steps ?_ ?_ ?_ ?_
  · rintro m n - _ _ _ _ _ _ _ _ hspan
    cases hspan
  · refine fun n cut _ => ⟨?_, ?_⟩
    · rintro _ _ _ _ _ _ _ _ hspan
      cases hspan
    · rintro _ _ _ _ _ _ _ _ - hspan
      cases hspan
  · rintro c c' ⟨-, hdistinct⟩ kind kind' _ _ _ _ _ _ rfl rfl hkind hkind'
    rw [Cut.kind, Cut.kind, hkind, hkind'] at hdistinct
    cases hdistinct
  · rintro i j s t hi hj hs ht hij _ hcut _ hcut' kind kind' _ _ _ _ _ _ rfl rfl hkind hkind'
    exact hs.apart_statements (Bracketed.nested_ofLexemes _) hi
      (FragmentKind.ofStatement_of_declares hkind) hcut ht hj
      (FragmentKind.ofStatement_of_declares hkind') hcut' hij

/-- In every text, of two declarations the one that is cut out first ends in front of the other, or
stands between the braces of a lambda's body in it, so no two are of the same tokens; and every
declaration holds both ends of a bracket pair or none. -/
theorem declarations_lie_apart (name text : String) :
    ((scan name text).fragments.Pairwise fun f g =>
      f.kind.declares = true → g.kind.declares = true →
        ∃ first last first' last', (Source.ofText name text).Window f first last ∧
          (Source.ofText name text).Window g first' last' ∧ (first, last) ≠ (first', last') ∧
          (last < first' ∨ (Bracketed.ofText text).InLambda first' last' first last)) ∧
    ∀ f ∈ (scan name text).fragments, f.kind.declares = true →
      ∃ first last, (Source.ofText name text).Window f first last ∧ first ≤ last ∧
        (Bracketed.ofText text).Whole first last := by
  have hb : (Bracketed.ofText text).Nested := Bracketed.nested_ofLexemes _
  have hline : ∀ {kind : FragmentKind}, kind.declares = true → kind ≠ .directive := by
    rintro _ hkind rfl
    cases hkind
  refine ⟨?_, fun f hf hkind => ?_⟩
  · have hcuts := (statementsApart_cutsOfText text).imp_of_mem
      (S := fun c c' => c ∈ cutsOfText text ∧ c' ∈ cutsOfText text ∧
        c.StatementsApart (.ofText text) c') fun hc hc' hapart => ⟨hc, hc', hapart⟩
    refine List.Pairwise.filterMap _ (R := _) ?_ hcuts
    rintro c c' ⟨hc, hc', hapart⟩ f hf g hg hkind hkind'
    obtain ⟨first, last, _, rfl, hwindow⟩ := Source.exists_span hc hf (hline hkind)
    obtain ⟨first', last', _, rfl, hwindow'⟩ := Source.exists_span hc' hg (hline hkind')
    have hcase := hapart rfl rfl hkind hkind'
    refine ⟨first, last, first', last', hwindow, hwindow', ?_, hcase.imp_right (·.2)⟩
    rintro heq
    cases heq
    have := hwindow.first_le
    omega
  · obtain ⟨i, s, hi, first, last, hs, hcut, hstep, hwindow⟩ := Source.exists_step hf (hline hkind)
    exact ⟨first, last, hwindow, (hstep.range hb hi).1,
      hs.whole_of_cut hb hi (FragmentKind.ofStatement_of_declares hkind) hcut⟩

/-- A member of a record that is defined in the lambda of an initialiser. -/
theorem declarations_lie_apart_member :
    ∃ text, text = "int n = [] \x7b struct S \x7b int b; \x7d; return 1; \x7d();" ∧
      ∃ f ∈ (scan "a.cpp" text).fragments, ∃ g ∈ (scan "a.cpp" text).fragments,
        f.kind = .declaration ∧ g.kind = .declaration ∧
        (Source.ofText "a.cpp" text).Window f 9 10 ∧ (Source.ofText "a.cpp" text).Window g 0 19 ∧
        (Bracketed.ofText text).InLambda 0 19 9 10 ∧ (Bracketed.ofText text).Whole 0 19 := by
  generalize htext : "int n = [] \x7b struct S \x7b int b; \x7d; return 1; \x7d();" = text
  obtain ⟨hindex, hindex', hsize⟩ : ((Bracketed.ofText text).after 11).1 = 11 ∧
      ((Bracketed.ofText text).after 20).1 = 20 ∧ 20 < (Bracketed.ofText text).lexemes.size := by
    rw [← htext]
    decide +kernel
  have hcut : ∀ hi : 11 < (Bracketed.ofText text).lexemes.size, .span .declaration 9 10
      (((Bracketed.ofText text).after 11).2.context (.ofText text) 9) ∈
      (((Bracketed.ofText text).after 11).2.step (.ofText text) 11
        (Bracketed.ofText text).lexemes[11]).cuts := by
    rw [← htext]
    decide +kernel
  have hcut' : ∀ hi : 20 < (Bracketed.ofText text).lexemes.size, .span .declaration 0 19
      (((Bracketed.ofText text).after 20).2.context (.ofText text) 0) ∈
      (((Bracketed.ofText text).after 20).2.step (.ofText text) 20
        (Bracketed.ofText text).lexemes[20]).cuts := by
    rw [← htext]
    decide +kernel
  obtain ⟨f, hf, hkind, hwindow⟩ :=
    Source.exists_fragment "a.cpp" (.of_after hindex) (by omega) (hcut (by omega))
  obtain ⟨g, hg, hkind', hwindow'⟩ :=
    Source.exists_fragment "a.cpp" (.of_after hindex') hsize (hcut' hsize)
  obtain ⟨hpairwise, hwhole⟩ := declarations_lie_apart "a.cpp" text
  refine ⟨text, rfl, f, hf, g, hg, hkind, hkind', hwindow, hwindow', ?_, ?_⟩
  · obtain ⟨m, hm, rfl⟩ := List.mem_iff_getElem.1 hf
    obtain ⟨n, hn, rfl⟩ := List.mem_iff_getElem.1 hg
    have hapart := List.pairwise_iff_getElem.1 hpairwise
    rcases Nat.lt_trichotomy m n with hlt | rfl | hgt
    · obtain ⟨_, _, _, _, h, h', -, hcase⟩ :=
        hapart m n hm hn hlt (by rw [hkind]; rfl) (by rw [hkind']; rfl)
      obtain ⟨rfl, rfl⟩ := hwindow.unique h
      obtain ⟨rfl, rfl⟩ := hwindow'.unique h'
      exact hcase.resolve_left (by decide)
    · exact absurd (hwindow.unique hwindow').1 (by decide)
    · -- what holds the member is not cut out first
      obtain ⟨_, _, _, _, h', h, -, hcase⟩ :=
        hapart n m hn hm hgt (by rw [hkind']; rfl) (by rw [hkind]; rfl)
      obtain ⟨rfl, rfl⟩ := hwindow.unique h
      obtain ⟨rfl, rfl⟩ := hwindow'.unique h'
      obtain hlt | ⟨scope, c, -, -, -, hle, hlt, -⟩ := hcase <;> omega
  · obtain ⟨_, _, h', -, hpairs⟩ := hwhole g hg (by rw [hkind']; rfl)
    obtain ⟨rfl, rfl⟩ := hwindow'.unique h'
    exact hpairs

end CxxFloor
