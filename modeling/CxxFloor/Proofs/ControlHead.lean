/-
# The brace of a control statement

Behind the head of a control statement a brace opens a block if the head ends
like one, and what that is, is asked of its last token alone: a parenthesis or a
colon closes it, or it is one of the words `else`, `do`, `try` and `consteval`.
A head that ends with an attribute group ends with a square bracket, so its
brace opens no scope but a group, as that of an initialiser does, and between
the braces no statement starts and no label is found, unless a brace inside
opens a scope again (`attribute_hides_block`).
-/
import CxxFloor.Proofs.Agreement
import CxxFloor.Proofs.Constraint
import CxxFloor.Proofs.Scope.Passing

namespace CxxFloor

/-! ## The head -/

namespace Bracketed

variable {b : Bracketed} {k c : Nat}

theorem punctAt_of_attributeEnd? (h : b.attributeEnd? k = some c) : b.punctAt k "[" = true := by
  unfold attributeEnd? at h
  split at h
  next hopen => exact (Bool.and_eq_true_iff.1 hopen).1
  next => cases h

theorem Nested.square_of_attributeEnd? (hb : b.Nested) (h : b.attributeEnd? k = some c) :
    b.punctAt c "]" = true := by
  have hpartner := partner?_of_closer? (closer?_of_attributeEnd? h)
  have hsquare := opensAt_of_punctAt (k := .square) (punctAt_of_attributeEnd? h)
  exact punctAt_of_closesAt (closesAt_of_opensAt hb hpartner hsquare)

end Bracketed

namespace ScanState

variable {b : Bracketed} {s : ScanState} {i k : Nat}

/-- What the head of a control statement announces. -/
theorem head_of_control (hcontrol : b.wordInAt (s.bodyOfHead b i) controlKeywords = true)
    (hbefore : s.bodyOfHead b i < s.endOfHead b i) :
    (b.head s.scope s.head i).kind =
      if b.endsControlHead (s.endOfHead b i - 1) then some .block else none := by
  -- a control keyword is none of the words that are asked for before it
  have hother : ∀ words, (∀ word ∈ controlKeywords, word ∉ words) →
      b.wordInAt (s.bodyOfHead b i) words = false :=
    fun _ => Bracketed.wordInAt_of_disjoint hcontrol
  have hnamespace := hother ["namespace"] (by decide)
  have hlinkage := hother ["extern"] (by decide)
  simp only [bodyOfHead, endOfHead] at hcontrol hbefore hnamespace hlinkage ⊢
  simp only [Bracketed.head, if_neg (Nat.not_le.2 hbefore), Bracketed.wordAt_eq_wordInAt,
    hnamespace, hlinkage, hcontrol, Bool.false_and, Bool.or_self, Bool.false_eq_true, if_false,
    if_true]
  exact apply_ite Head.kind _ _ _

/-- A head that ends with a square bracket ends no control head, and has no `try` at its end. -/
theorem endsControlHead_of_square (hsquare : b.punctAt (i - 1) "]" = true) :
    s.endOfHead b i = i ∧ b.endsControlHead (s.endOfHead b i - 1) = false := by
  obtain ⟨t, ht, hpunct⟩ := Bracketed.punctAt_iff.1 hsquare
  simp only [Lexeme.isPunct, Bool.and_eq_true, beq_iff_eq] at hpunct
  have htry : b.wordAt (i - 1) "try" = false := by
    simp [Bracketed.wordAt, ht, Lexeme.isWord, hpunct.1]
  have hend : s.endOfHead b i = i := by
    rw [endOfHead, Bracketed.withoutTry, htry, Bool.and_false]
    rfl
  refine ⟨hend, ?_⟩
  rw [hend]
  simp [Bracketed.endsControlHead, Bracketed.punctInAt, Bracketed.textInAt, ht, Lexeme.isPunctIn,
    hpunct.2, blockHeadEndings]

end ScanState

/-! ## Statements -/

/-- The fragment starts a statement, as its context has it. -/
def Cut.startsStatement : Cut → Bool
  | .directive _ => false
  | .span _ _ _ context => context.atStatementStart

namespace ScanState

variable {b : Bracketed} {s : ScanState} {i : Nat}

/-- A statement starts outside all groups only. -/
theorem groups_of_start (first : Nat) (h : (s.head == first && s.atTop) = true) :
    s.groups = [] := by
  simp only [Bool.and_eq_true, atTop, List.isEmpty_iff] at h
  exact h.2

theorem step_of_attributeEnd? {t : Lexeme} {c : Nat} (ht : b.at? i = some t)
    (h : b.attributeEnd? i = some c) : s.step b i t =
      .behind c (Bracketed.lt_of_attributeEnd? h) s [s.span b .attributeGroup i c] := by
  rw [step_eq_squareStep ht (Bracketed.punctAt_of_attributeEnd? h), squareStep]
  split
  next c' hc' =>
    obtain rfl := Option.some.inj (h.symm.trans hc')
    rfl
  next hnone =>
    rw [hnone] at h
    cases h

theorem mem_cuts_of_attributeEnd? {t : Lexeme} {c : Nat} (ht : b.at? i = some t)
    (h : b.attributeEnd? i = some c) : s.span b .attributeGroup i c ∈ (s.step b i t).cuts := by
  rw [step_of_attributeEnd? ht h]
  exact List.mem_singleton_self _

theorem groups_of_ofStatement {t : Lexeme} {cut : Cut} (hcut : cut ∈ (s.step b i t).cuts)
    (hkind : cut.kind.ofStatement = true) : s.groups = [] := (top_of_statement hcut hkind).1

theorem groups_of_cut {t : Lexeme} {cut : Cut} (hcut : cut ∈ (s.step b i t).cuts)
    (hstarts : cut.startsStatement = true) : s.groups = [] := by
  cases emits_of_cut hcut with
  | declaration htop | operator htop | member htop => exact htop
  | _ => exact groups_of_start _ hstarts

theorem start_of_label {t : Lexeme} {cut : Cut} (hcut : cut ∈ (s.step b i t).cuts)
    (hkind : cut.kind = .label) : s.startsStatement i = true ∧ s.scope.kind.holdsCode = true := by
  cases cut with
  | directive => cases hkind
  | span kind first last context =>
      obtain rfl : kind = .label := hkind
      have hlabel := labelEnd?_of_cut hcut
      unfold labelEnd? at hlabel
      split at hlabel
      next hstart => exact Bool.and_eq_true_iff.1 hstart
      next => cases hlabel

theorem groups_of_label {t : Lexeme} {cut : Cut} (hcut : cut ∈ (s.step b i t).cuts)
    (hkind : cut.kind = .label) : s.groups = [] :=
  groups_of_start i (start_of_label hcut hkind).1

end ScanState

namespace Boundary

variable {b : Bracketed} {i j : Nat} {s t : ScanState}

/-- A brace that is read with a head that announces nothing opens a group and no scope. -/
theorem opens_group (h : Boundary b i s) (hreads : s.ReadsHead b i)
    (hkind : (b.head s.scope s.head i).kind = none) :
    (∀ scope, b.Opens scope → scope.opener ≠ i) ∧
      ∃ group, (s.openBrace b i).1.groups = [group] ∧ group.opener = i := by
  have hnone : s.lambdaBodies.find? (·.opener = i) = none := by simpa using hreads.unannounced
  have hgroup : (s.openBrace b i).1 =
      s.openGroup b i (b.declaresConstantVariable s.head i false) := by
    simp [ScanState.openBrace, Option.isSome_iff_ne_none.1 hreads.paired, hnone, ScanState.atTop,
      hreads.top, hkind]
  refine ⟨?_, ?_⟩
  · rintro scope ⟨s', h', -, hopened⟩ rfl
    obtain rfl := h.unique h'
    rw [hgroup, (ScanState.SameRecords.openGroup b s scope.opener _).scopes] at hopened
    exact absurd hopened.symm (List.cons_ne_self _ _)
  · rw [hgroup]
    simp [ScanState.openGroup, hreads.paired, hreads.top]

/-- Where a brace opens no scope, what starts a statement between the braces, and what is cut out
of one, stands in a scope that opens there. -/
theorem statement_in_inner_scope (h : Boundary b j t) (hb : b.Nested)
    (hopen : i ∈ b.pairs.openAt j) (hscope : ∀ scope, b.Opens scope → scope.opener ≠ i)
    (htop : t.groups = []) : ∃ inner, b.HasOpen j inner ∧ i < inner.opener := by
  obtain ⟨hmem, hle⟩ := h.le_opener hb htop hopen
  have hne := hscope t.scope (h.opens_of_mem hb _ hmem)
  exact ⟨t.scope, (h.mem_scopes_iff hb).1 hmem, Nat.lt_of_le_of_ne hle hne.symm⟩

end Boundary

/-- An attribute group right before a place where the walk stops is a fragment. -/
theorem Source.attribute_fragment (name : String) {text : String} {k c : Nat} {s : ScanState}
    (h : Boundary (.ofText text) (c + 1) s)
    (hk : (Bracketed.ofText text).attributeEnd? k = some c) :
    ∃ f ∈ (scan name text).fragments, f.kind = .attributeGroup ∧
      (Source.ofText name text).Window f k c := by
  have hb : (Bracketed.ofText text).Nested := Bracketed.nested_ofLexemes _
  have hclose := Bracketed.closer?_of_attributeEnd? hk
  obtain ⟨t, ht⟩ := h.exists_at_opener hb hclose
  have hlt := hb.closer?_lt_size hclose
  have hkc := Pairing.lt_of_closer? hclose
  have hsize : k < (Bracketed.ofText text).lexemes.size := Nat.lt_trans hkc hlt
  exact Source.exists_fragment name ht hsize
    (ScanState.mem_cuts_of_attributeEnd? (Array.getElem?_eq_getElem hsize) hk)

/-- In every text, the brace behind the head of a control statement opens a block exactly if the
last token of the head ends one.  If not, the brace opens a group and no scope, and whatever label,
declaration or other start of a statement a step between the braces cuts is cut in a scope that a
brace in between opens.  This is so whenever an attribute group stands before the brace, which is a
fragment of its own. -/
theorem attribute_hides_block (name : String) {text : String} {i : Nat} {s : ScanState}
    (h : Boundary (.ofText text) i s) (hreads : s.ReadsHead (.ofText text) i)
    (hcontrol :
      (Bracketed.ofText text).wordInAt (s.bodyOfHead (.ofText text) i) controlKeywords = true)
    (hbefore : s.bodyOfHead (.ofText text) i < s.endOfHead (.ofText text) i) :
    ((Bracketed.ofText text).endsControlHead (s.endOfHead (.ofText text) i - 1) = true →
      ∃ scope, (Bracketed.ofText text).Opens scope ∧ scope.opener = i ∧ scope.kind = .block) ∧
    ((Bracketed.ofText text).endsControlHead (s.endOfHead (.ofText text) i - 1) = false →
      (∀ scope, (Bracketed.ofText text).Opens scope → scope.opener ≠ i) ∧
      (∃ group, (s.openBrace (.ofText text) i).1.groups = [group] ∧ group.opener = i) ∧
      ∀ (j : Nat) (t : ScanState) (hj : j < (Bracketed.ofText text).lexemes.size),
        Boundary (.ofText text) j t → i ∈ (Bracketed.ofText text).pairs.openAt j →
        ∀ cut ∈ (t.step (.ofText text) j (Bracketed.ofText text).lexemes[j]).cuts,
          cut.kind = .label ∨ cut.kind.ofStatement = true ∨ cut.startsStatement = true →
          ∃ inner, (Bracketed.ofText text).HasOpen j inner ∧ i < inner.opener) ∧
    ∀ k c, (Bracketed.ofText text).attributeEnd? k = some c → c + 1 = i →
      (Bracketed.ofText text).endsControlHead (s.endOfHead (.ofText text) i - 1) = false ∧
      ∃ f ∈ (scan name text).fragments, f.kind = .attributeGroup ∧
        (Source.ofText name text).Window f k c := by
  have hb : (Bracketed.ofText text).Nested := Bracketed.nested_ofLexemes _
  have hhead := ScanState.head_of_control hcontrol hbefore
  refine ⟨fun hends => ?_, fun hends => ?_, ?_⟩
  · rw [if_pos hends] at hhead
    obtain ⟨scope, hopens, hopener, hkind, -⟩ := h.opens_of_head hreads hhead
    exact ⟨scope, hopens, hopener, hkind⟩
  · rw [if_neg (by simp [hends])] at hhead
    obtain ⟨hscope, hgroup⟩ := h.opens_group hreads hhead
    refine ⟨hscope, hgroup, fun j t hj ht hopen cut hcut hcase => ?_⟩
    refine ht.statement_in_inner_scope hb hopen hscope ?_
    rcases hcase with hlabel | hstatement | hstarts
    · exact ScanState.groups_of_label hcut hlabel
    · exact ScanState.groups_of_ofStatement hcut hstatement
    · exact ScanState.groups_of_cut hcut hstarts
  · rintro k c hk rfl
    exact ⟨(ScanState.endsControlHead_of_square (hb.square_of_attributeEnd? hk)).2,
      Source.attribute_fragment name h hk⟩

/-- The brace of an `if` with an attribute. -/
theorem attribute_hides_block_likely :
    ∃ (text : String) (s : ScanState),
      text = "void f(int n) \x7b if (n) [[likely]] \x7b done: \x7d \x7d" ∧
      Boundary (.ofText text) 16 s ∧ s.ReadsHead (.ofText text) 16 ∧
      (Bracketed.ofText text).wordInAt (s.bodyOfHead (.ofText text) 16) controlKeywords = true ∧
      s.bodyOfHead (.ofText text) 16 < s.endOfHead (.ofText text) 16 ∧
      (Bracketed.ofText text).attributeEnd? 11 = some 15 ∧
      (∀ scope, (Bracketed.ofText text).Opens scope → scope.opener ≠ 16) ∧
      ∃ f ∈ (scan "a.cpp" text).fragments, f.kind = .attributeGroup := by
  generalize htext : "void f(int n) \x7b if (n) [[likely]] \x7b done: \x7d \x7d" = text
  have h : Boundary (.ofText text) 16 ((Bracketed.ofText text).after 12).2 := .of_after (by
    rw [← htext]
    decide +kernel)
  have hreads : ((Bracketed.ofText text).after 12).2.ReadsHead (.ofText text) 16 := by
    rw [← htext]
    exact ⟨by decide +kernel, by decide +kernel, by decide +kernel, by decide +kernel⟩
  have hcontrol : (Bracketed.ofText text).wordInAt
      (((Bracketed.ofText text).after 12).2.bodyOfHead (.ofText text) 16)
        controlKeywords = true := by
    rw [← htext]
    decide +kernel
  have hbefore : ((Bracketed.ofText text).after 12).2.bodyOfHead (.ofText text) 16 <
      ((Bracketed.ofText text).after 12).2.endOfHead (.ofText text) 16 := by
    rw [← htext]
    decide +kernel
  have hattribute : (Bracketed.ofText text).attributeEnd? 11 = some 15 := by
    rw [← htext]
    decide +kernel
  obtain ⟨-, hgroup, hfragment⟩ := attribute_hides_block "a.cpp" h hreads hcontrol hbefore
  obtain ⟨hends, f, hf, hkind, -⟩ := hfragment 11 15 hattribute rfl
  exact ⟨text, _, rfl, h, hreads, hcontrol, hbefore, hattribute, (hgroup hends).1, f, hf, hkind⟩

/-- A label in the block of an `if` or a `do` is cut out, and is no longer once an attribute stands
before the brace. -/
theorem attribute_hides_label :
    ((∃ f ∈ (scan "a.cpp" "void f(int n) \x7b if (n) \x7b done: \x7d \x7d").fragments,
        f.kind = .label ∧ f.text = "done:") ∧
      ∀ f ∈ (scan "a.cpp" "void f(int n) \x7b if (n) [[likely]] \x7b done: \x7d \x7d").fragments,
        f.kind ≠ .label) ∧
    (∃ f ∈ (scan "a.cpp" "void f(int n) \x7b do \x7b done: \x7d while (n); \x7d").fragments,
        f.kind = .label ∧ f.text = "done:") ∧
      ∀ f ∈ (scan "a.cpp"
        "void f(int n) \x7b do [[likely]] \x7b done: \x7d while (n); \x7d").fragments,
        f.kind ≠ .label := by
  refine ⟨⟨?_, ?_⟩, ?_, ?_⟩
  all_goals
    rw [scan_fragments_eq (by decide +kernel)]
    decide +kernel

end CxxFloor
