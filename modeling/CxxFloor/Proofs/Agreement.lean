/-
# One bracket structure

A file's brackets are paired twice: once by the walk, over all its lexemes, and
once more by every matcher, over the lexemes of the fragment it is shown.  The
second pairing knows nothing of what stands around the fragment, and where a
file's brackets are wrong it might pair what the first one gave up.

It does not.  No fragment but a lambda's closes a bracket from before it: a
group is whole, the words and numbers are no brackets, a label is read past
with the same brackets open, and a statement starts where only its scopes are
open (`Boundary.keepsOpen_cut`).  So both pairings agree on every fragment
(`fragments_share_brackets`).  The reading ahead of a lambda with a constraint
may pass over a closer of a bracket from before it; there both agree if the file
leaves no orphan.
-/
import CxxFloor.Proofs.Scope.Statements

namespace CxxFloor

variable {b : Bracketed} {s : ScanState} {i : Nat}

/-! ## Which tokens cut what -/

namespace ScanState

/-- Attributes, lambdas and statements apart, a cut starts at a word or a number. -/
theorem partner?_of_cut (hb : b.Nested) {t : Lexeme} (ht : b.at? i = some t) {cut : Cut}
    (hcut : cut ∈ (s.step b i t).cuts) (hstatement : cut.kind.ofStatement = false)
    (hattributes : cut.kind ≠ .attributeGroup) (hlambda : cut.kind ≠ .captureList) :
    b.pairs.partner? i = none := by
  refine hb.partner?_eq_none ht fun hbracket => ?_
  have hpunctuator : t.kind = .punctuator := hbracket.1
  cases emits_of_cut hcut with
  | attributes => exact hattributes rfl
  | lambda => exact hlambda rfl
  | declaration | operator | member => cases hstatement
  | _ hkind =>
      rw [hpunctuator] at hkind
      cases hkind

theorem labelEnd?_of_cut {t : Lexeme} {first last : Nat} {context : Context}
    (h : .span .label first last context ∈ (s.step b i t).cuts) :
    s.labelEnd? b i = some last := by
  cases emits_of_cut h with
  | label _ hlabel => exact hlabel

end ScanState

/-! ## Nothing from before is closed -/

namespace Bracketed.Nested

theorem openAt_branchEnd (hb : b.Nested) (hword : b.pairs.partner? i = none) :
    b.pairs.openAt ((ScanState.branchEnd b i).1 + 1) = b.pairs.openAt i := by
  have hnext : b.pairs.openAt (i + 1) = b.pairs.openAt i := hb.openAt_unpaired hword
  have hspelled : ∀ {k : Nat} {words : List String}, b.textInAt k words = true →
      (∀ word ∈ words, word ∉ ["(", "[", "\x7b", ")", "]", "\x7d"]) →
      b.pairs.partner? k = none := by
    intro k words hk hwords
    obtain ⟨t, ht, htext⟩ := (Option.any_eq_true _ _).1 hk
    exact hb.partner?_eq_none ht fun hbracket => hwords _ (by simpa using htext) hbracket.2
  have hwordAt : ∀ {k : Nat} {word : String}, b.wordAt k word = true →
      b.pairs.partner? k = none := by
    intro k word hk
    exact hb.partner?_of_name (Bracketed.nameAt_of_wordAt hk)
  unfold ScanState.branchEnd
  split
  next hnot =>
    dsimp only
    split
    next hmark =>
      have hone : b.pairs.partner? (i + 1) = none := by
        rcases Bool.or_eq_true_iff.1 hnot with hsign | hword
        · exact hb.partner?_of_punctAt hsign (by decide)
        · exact hwordAt hword
      rw [hb.openAt_unpaired (hwordAt hmark), hb.openAt_unpaired hone, hnext]
    next => exact hnext
  split
  next hmark => rw [hb.openAt_unpaired (hspelled hmark (by decide)), hnext]
  split
  next hmark => rw [hb.openAt_unpaired (hspelled hmark (by decide)), hnext]
  next => exact hnext

theorem openAt_operand (hb : b.Nested) (hword : b.pairs.partner? i = none) {close : Nat}
    (h : b.closer? (i + 1) = some close) : b.pairs.openAt (close + 1) = b.pairs.openAt i := by
  rw [hb.openAt_group (Bracketed.partner?_of_closer? h) (Pairing.lt_of_closer? h),
    hb.openAt_unpaired hword]

end Bracketed.Nested

/-- A fragment other than a lambda's closes no bracket from before it. -/
theorem Boundary.keepsOpen_cut (hb : b.Nested) (h : Boundary b i s) (hi : i < b.lexemes.size)
    {kind : FragmentKind} {first last : Nat} {context : Context}
    (hcut : .span kind first last context ∈ (s.step b i b.lexemes[i]).cuts)
    (hstep : StepCut b s.head i kind first last) (hlambda : kind ≠ .captureList) :
    b.KeepsOpen first (last + 1) := by
  have ht : b.at? i = some b.lexemes[i] := Array.getElem?_eq_getElem hi
  have hword : kind.ofStatement = false → kind ≠ .attributeGroup → b.pairs.partner? i = none :=
    fun hstatement hattributes => s.partner?_of_cut hb ht hcut hstatement hattributes hlambda
  have hstatement : kind.ofStatement = true → b.KeepsOpen s.head i := by
    intro hkind
    exact h.keepsOpen_statement hb (ScanState.top_of_statement hcut hkind).1
  cases hstep with
  | literal => exact .of_eq (hb.openAt_unpaired (hword rfl (by decide)))
  | label =>
      exact .of_eq ((h.aligned hb).openAt_labelEnd hb (hword rfl (by decide))
        (ScanState.labelEnd?_of_cut hcut))
  | attributes hclose =>
      exact .of_eq (hb.openAt_group
        (Bracketed.partner?_of_closer? (Bracketed.closer?_of_attributeEnd? hclose))
        (Bracketed.lt_of_attributeEnd? hclose))
  | lambda => exact absurd rfl hlambda
  | assertion hclose | sizeQuery hclose =>
      exact .of_eq (hb.openAt_operand (hword rfl (by decide))
        (Bracketed.closer?_of_roundEnd? hclose))
  | call hclose => exact .of_eq (hb.openAt_operand (hword rfl (by decide)) hclose)
  | branch => exact .of_eq (hb.openAt_branchEnd (hword rfl (by decide)))
  | tryBlock hbrace =>
      have hnext := hb.openAt_unpaired (hword rfl (by decide))
      intro o ho
      cases hp : b.pairs.partner? (i + 1) with
      | none => rwa [hb.openAt_unpaired hp, hnext]
      | some c =>
          have hopen : b.opensAt (i + 1) .curly := Bracketed.opensAt_of_punctAt hbrace
          rw [hb.openAt_opener hp (hb.lt_of_opensAt hp hopen), hnext]
          exact List.mem_append_left _ ho
  | declaration hlt hstop | operator hlt hstop =>
      rw [Nat.sub_add_cancel (by omega)]
      exact (hstatement rfl).mono (Nat.le_of_lt hlt) hstop
  | member hlt =>
      rw [Nat.sub_add_cancel (by omega)]
      exact hstatement rfl

/-! ## Fragments -/

namespace Source

variable {name text : String} {f : Fragment} {first last : Nat}

theorem Window.view_lexemes (h : (Source.ofText name text).Window f first last) :
    f.view.bracketed.lexemes = (Bracketed.ofText text).lexemes.extract first (last + 1) := by
  show f.tokens.map (·.toLexeme) = _
  rw [h.tokens, ← words_map_toLexeme name text, Array.map_extract]

theorem Window.view_bracketed (h : (Source.ofText name text).Window f first last) :
    f.view.bracketed = .ofLexemes ((Bracketed.ofText text).lexemes.extract first (last + 1)) :=
  congrArg Bracketed.ofLexemes h.view_lexemes

theorem Window.view_size (h : (Source.ofText name text).Window f first last) :
    f.view.bracketed.size = last + 1 - first := by
  rw [← h.size_tokens]
  exact Array.size_map

end Source

/-- The matchers see a window with the brackets of the file. -/
theorem Source.exists_slice {name text : String} {f : Fragment}
    (hf : f ∈ (scan name text).fragments) (hkind : f.kind ≠ .directive) :
    ∃ first last, (Source.ofText name text).Window f first last ∧
      (f.kind ≠ .captureList ∨
          bracketDiagnostics (Source.ofText name text).words.toList = [] →
        f.view.bracketed = (Bracketed.ofText text).slice first (last + 1)) := by
  have hb : (Bracketed.ofText text).Nested := Bracketed.nested_ofLexemes _
  obtain ⟨i, s, hi, first, last, hs, hcut, hstep, hwindow⟩ := exists_step hf hkind
  refine ⟨first, last, hwindow, fun hcase => ?_⟩
  obtain ⟨hle, hlt⟩ := hstep.range hb hi
  rw [hwindow.view_bracketed]
  rcases hcase with hlambda | hbrackets
  · exact (Bracketed.slice_eq_ofLexemes (Nat.le_succ_of_le hle) hlt
      (hs.keepsOpen_cut hb hi hcut hstep hlambda)).symm
  · refine (Bracketed.slice_eq_ofLexemes_of_orphans (Nat.le_succ_of_le hle) hlt ?_).symm
    have horphans := allOrphans_eq_nil hbrackets
    rw [← Array.toList_map, words_map_toLexeme] at horphans
    exact horphans

/-- The matchers see the introducer of a lambda closed where the file closes it. -/
theorem Source.closer?_of_lambda {name text : String} {f : Fragment} {first last : Nat}
    (hf : f ∈ (scan name text).fragments) (hkind : f.kind = .captureList)
    (hwindow : (Source.ofText name text).Window f first last) :
    ∃ close, first + close ≤ last ∧
      (Bracketed.ofText text).closer? first = some (first + close) ∧
      f.view.bracketed.closer? 0 = some close := by
  have hb : (Bracketed.ofText text).Nested := Bracketed.nested_ofLexemes _
  obtain ⟨i, s, hi, first', last', -, -, hstep, hwindow'⟩ :=
    exists_step hf (by rw [hkind]; decide)
  obtain ⟨rfl, rfl⟩ := hwindow.unique hwindow'
  have hlast := (hstep.range hb hi).2
  rw [hkind] at hstep
  cases hstep with
  | @lambda c body hopen hclose hbody h =>
      have hsquare : (Bracketed.ofText text).opensAt first .square :=
        Bracketed.opensAt_of_punctAt hopen
      have hlt := hb.lt_of_opensAt hclose hsquare
      refine ⟨c - first, by omega, ?_, ?_⟩
      · rw [Nat.add_sub_cancel' (Nat.le_of_lt hlt)]
        exact hb.closer?_of_opensAt hclose hsquare
      · rw [hwindow.view_bracketed]
        refine Pairing.closer?_eq_some.2 ⟨?_, by omega⟩
        exact Bracketed.partner?_of_group hclose hlt (by omega) hlast

/-- The brackets of a fragment, paired on its own lexemes alone, are those of the file: the
fragment is a run of tokens of the file, and the table that the matchers make of it is the file's
table, restricted to the run and counted from its start.  This holds however wrong the brackets of
the file are, in the fragment or around it; of a lambda it holds if no bracket of the file is
remarked on.  A preprocessor line has no brackets. -/
theorem fragments_share_brackets {name text : String} {f : Fragment}
    (hf : f ∈ (scan name text).fragments) :
    (f.kind = .directive → f.view.bracketed.pairs.toList = []) ∧
    (f.kind ≠ .directive → ∃ first last, (Source.ofText name text).Window f first last ∧
      (f.kind ≠ .captureList ∨
          bracketDiagnostics (Source.ofText name text).words.toList = [] →
        f.view.bracketed = (Bracketed.ofText text).slice first (last + 1))) := by
  refine ⟨?_, ?_⟩
  · intro hkind
    obtain ⟨cut, hcut, hcutf⟩ := List.mem_filterMap.1 hf
    cases cut with
    | directive k =>
        obtain ⟨t, ht, rfl⟩ := Option.map_eq_some_iff.1 hcutf
        have hview : ((Source.ofText name text).directiveFragment t).view.bracketed =
            .ofLexemes #[t.toLexeme] := by
          simp [Fragment.view, View.bracketed, Source.directiveFragment]
        rw [hview]
        -- a single lexeme has no partner before or behind it
        refine List.filterMap_eq_nil_iff.2 fun j _ => ?_
        rw [Option.map_eq_none_iff]
        refine Option.eq_none_iff_forall_not_mem.2 fun c hc => ?_
        have hlt := Pairing.lt_of_closer? hc
        have hsize : c < 1 := (Bracketed.nested_ofLexemes #[t.toLexeme]).closer?_lt_size hc
        omega
    | span kind first last context =>
        have hcut : Cut.span kind first last context ∈ cutsOfText text := hcut
        obtain rfl : f.kind = kind := Source.kind_of_fragment? hcutf
        rcases of_mem_cutsOf hcut with ⟨_, _, hdirective⟩ | ⟨_, _, _, _, hspan, _, _, _, _, hstep⟩
        · cases hdirective
        · cases hspan
          rw [hkind] at hstep
          cases hstep
  · exact fun hkind => Source.exists_slice hf hkind

/-- A declaration in a file of wrong brackets: a closer without an opener stands before it, and an
opener without a closer in the lambda it holds. -/
theorem fragments_share_brackets_unbalanced :
    ∃ (text : String) (f : Fragment) (first last : Nat),
      text = "\x7d int f(int a = [] \x7b return (1; \x7d());" ∧
      f ∈ (scan "a.cpp" text).fragments ∧ f.kind = .declaration ∧
      bracketDiagnostics (Source.ofText "a.cpp" text).words.toList ≠ [] ∧
      (Source.ofText "a.cpp" text).Window f first last ∧
      f.view.bracketed = (Bracketed.ofText text).slice first (last + 1) := by
  have hshown : ∃ f ∈ (scan "a.cpp" "\x7d int f(int a = [] \x7b return (1; \x7d());").fragments,
      f.kind = .declaration := by
    rw [scan_fragments_eq (by decide +kernel)]
    decide +kernel
  obtain ⟨f, hf, hkind⟩ := hshown
  obtain ⟨first, last, hwindow, hslice⟩ :=
    (fragments_share_brackets hf).2 (by rw [hkind]; decide)
  exact ⟨_, f, first, last, rfl, hf, hkind, by decide +kernel, hwindow,
    hslice (.inl (by rw [hkind]; decide))⟩

end CxxFloor
