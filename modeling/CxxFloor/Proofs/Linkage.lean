/-
# The brace behind a linkage specification

A linkage specification may stand before a block of declarations or before one
declaration, and what the brace opens is asked of the two tokens of the
specification alone.  So the body of a function with a linkage specification is
the body of a namespace: no label is found in it and no place of it stands in a
constant function, unless a brace inside opens a scope of code or a body again,
and its statements are cut out as declarations (`linkage_hides_function`).  The
head behind the specification would have opened what it opens without one.
-/
import CxxFloor.Proofs.ControlHead
import CxxFloor.Proofs.Incomplete

namespace CxxFloor

/-! ## The head -/

/-- The head that ends at index `i` starts with a linkage specification. -/
structure ScanState.HeadsLinkage (b : Bracketed) (s : ScanState) (i : Nat) : Prop where
  key : b.wordAt (s.bodyOfHead b i) "extern" = true
  language : (b.at? (s.bodyOfHead b i + 1)).any (·.kind == .string) = true
  before : s.bodyOfHead b i + 1 < s.endOfHead b i

/-- The semicolon at index `j` ends a statement that is neither an assertion nor a
using-declaration. -/
structure ScanState.EndsPlain (b : Bracketed) (s : ScanState) (j : Nat) : Prop where
  semicolon : b.punctAt j ";" = true
  top : s.groups = []
  body : s.bodyOfHead b j < j
  plain : b.wordInAt (s.bodyOfHead b j) ["static_assert", "using"] = false
  nonempty : s.head < b.withoutTry 0 j

/-- The fragment stands in a constant function, as its context has it. -/
def Cut.inConstantFunction : Cut → Bool
  | .directive _ => false
  | .span _ _ _ context => context.inConstantFunction

namespace ScanState

variable {b : Bracketed} {s : ScanState} {i : Nat}

/-- A head with a linkage specification announces a namespace, whatever stands behind it. -/
theorem head_of_linkage (h : s.HeadsLinkage b i) :
    b.head s.scope s.head i = { kind := some .namespaceScope, bodyStart := s.bodyOfHead b i } := by
  have hbefore : s.bodyOfHead b i < s.endOfHead b i := Nat.lt_of_succ_lt h.before
  have hkey := h.key
  have hlanguage := h.language
  have hlt := h.before
  simp only [bodyOfHead, endOfHead] at hbefore hkey hlanguage hlt ⊢
  simp only [Bracketed.head, if_neg (Nat.not_le.2 hbefore), hkey, hlanguage, hlt, decide_true,
    Bool.and_self, Bool.or_true, if_true]

/-- A place stands in a constant function only through a body that opens inside every scope around
it that is neither a block nor a body. -/
theorem inner_of_inConstantFunction (h : s.inConstantFunction = true) {inside outside : List Scope}
    {scope : Scope} (hscopes : s.scopes = inside ++ scope :: outside)
    (hblock : scope.kind ≠ .block) (hbody : scope.kind.isBody = false) :
    ∃ inner ∈ inside, inner.kind.isBody = true ∧ inner.constant = true := by
  rw [inConstantFunction, hscopes, List.find?_append] at h
  cases hfind : inside.find? (·.kind ≠ .block) with
  | none =>
      -- the scope itself is the first that is no block
      rw [hfind, Option.none_or, List.find?_cons_of_pos (by simpa using hblock)] at h
      simp [hbody] at h
  | some inner =>
      rw [hfind, Option.some_or] at h
      exact ⟨inner, List.mem_of_find?_eq_some hfind, by simpa using h⟩

/-! ## What the fragments are told -/

/-- A fragment is told that it stands in a constant function if its place does; a `try` block is so
as well behind the head of one. -/
theorem constant_of_cut {t : Lexeme} {cut : Cut} (hcut : cut ∈ (s.step b i t).cuts)
    (hconstant : cut.inConstantFunction = true) :
    s.inConstantFunction = true ∨
      cut.kind = .tryBlock ∧ b.declaresConstantFunction s.head i = true := by
  cases emits_of_cut hcut with
  | tryBlock =>
      have htry : s.tryIsConstant b i = true := hconstant
      simp only [tryIsConstant, Bool.or_eq_true, Bool.and_eq_true] at htry
      exact htry.imp_right fun hhead => ⟨rfl, hhead.2⟩
  | _ => exact .inl hconstant

/-- A semicolon outside all groups of a scope of declarations, a union apart, cuts out the
declaration that it ends. -/
theorem mem_cuts_of_endsPlain {t : Lexeme} (ht : b.at? i = some t) (h : s.EndsPlain b i)
    (hholds : s.scope.kind.holdsDeclarations = true) (hunion : s.scope.kind ≠ .union) :
    ∃ context, .span .declaration s.head (b.withoutTry 0 i - 1) context ∈ (s.step b i t).cuts := by
  obtain ⟨u, hu, hpunct⟩ := Bracketed.punctAt_iff.1 h.semicolon
  obtain rfl := Option.some.inj (ht.symm.trans hu)
  simp only [Lexeme.isPunct, Bool.and_eq_true, beq_iff_eq] at hpunct
  have hhead : s.head < i := Nat.lt_of_lt_of_le h.nonempty (Bracketed.withoutTry_le 0 i)
  have hbody := h.body
  have hplain := h.plain
  simp only [bodyOfHead] at hbody hplain
  have hscope : (s.noteForward b s.head i).scope = s.scope := by
    rw [scope, scope, (sameOpen_noteForward b s s.head i).1]
  have hsame : (s.noteForward b s.head i).head = s.head := head_noteForward s.head i
  refine ⟨(s.noteForward b s.head i).context b s.head, ?_⟩
  simp [step, hpunct.1, hpunct.2, punctuatorStep, Move.one, atTop, h.top, endStatement, hholds,
    hhead, statementCuts, hsame, hscope, hunion, Nat.not_le.2 hbody, hplain, declarationCuts,
    h.nonempty, span]

end ScanState

/-! ## The body -/

namespace Boundary

variable {b : Bracketed} {i j : Nat} {s t : ScanState} {scope : Scope}

/-- Outside all groups, the innermost scope is one that is open around the place or opens inside
it. -/
theorem innermost_of_hasOpen (h : Boundary b j t) (hb : b.Nested) (hopen : b.HasOpen j scope)
    (htop : t.groups = []) :
    b.HasOpen j t.scope ∧ (t.scope = scope ∨ scope.opener < t.scope.opener) := by
  obtain ⟨hmem, hle⟩ := h.le_opener hb htop hopen.2
  have hinner := (h.mem_scopes_iff hb).1 hmem
  refine ⟨hinner, (Nat.eq_or_lt_of_le hle).imp_left fun heq => ?_⟩
  exact hinner.1.unique hopen.1 heq.symm

/-- A label is cut in a scope of code, so inside every other scope around it one opens. -/
theorem code_around_label (h : Boundary b j t) (hb : b.Nested) (hopen : b.HasOpen j scope)
    (hcode : scope.kind.holdsCode = false) {u : Lexeme} {cut : Cut}
    (hcut : cut ∈ (t.step b j u).cuts) (hkind : cut.kind = .label) :
    ∃ inner, b.HasOpen j inner ∧ scope.opener < inner.opener ∧ inner.kind.holdsCode = true := by
  have hholds := (ScanState.start_of_label hcut hkind).2
  have htop := ScanState.groups_of_label hcut hkind
  obtain ⟨hinner, heq | hlt⟩ := h.innermost_of_hasOpen hb hopen htop
  · rw [heq, hcode] at hholds
    cases hholds
  · exact ⟨t.scope, hinner, hlt, hholds⟩

/-- Inside a scope that is neither a block nor a body, a place stands in a constant function only
through a body that opens inside. -/
theorem body_around_constant (h : Boundary b j t) (hb : b.Nested) (hopen : b.HasOpen j scope)
    (hblock : scope.kind ≠ .block) (hbody : scope.kind.isBody = false)
    (hconstant : t.inConstantFunction = true) :
    ∃ inner, b.HasOpen j inner ∧ scope.opener < inner.opener ∧ inner.kind.isBody = true ∧
      inner.constant = true := by
  obtain ⟨inside, outside, hscopes⟩ := List.append_of_mem ((h.mem_scopes_iff hb).2 hopen)
  obtain ⟨inner, hmem, hkind⟩ := ScanState.inner_of_inConstantFunction hconstant hscopes hblock hbody
  have hdescend := h.scopes_descend hb
  rw [hscopes] at hdescend
  refine ⟨inner, (h.mem_scopes_iff hb).1 (hscopes ▸ List.mem_append_left _ hmem), ?_, hkind⟩
  exact (List.pairwise_append.1 hdescend).2.2 inner hmem scope List.mem_cons_self

theorem opens_of_linkage (h : Boundary b i s) (hreads : s.ReadsHead b i)
    (hlinkage : s.HeadsLinkage b i) : b.Opens { kind := .namespaceScope, opener := i } := by
  have hhead := ScanState.head_of_linkage hlinkage
  refine ⟨s, h, hreads.brace, ?_⟩
  rw [hreads.openBrace_eq (congrArg Head.kind hhead), hhead]
  rfl

end Boundary

/-- In every text, the brace behind a head that starts with a linkage specification opens a
namespace, and the head is cut out as no declaration; a head that started behind the specification
would have opened what it announces.  Whatever is cut between the braces, a label is cut in a scope
of code that opens there; a fragment is told that it stands in a constant function only if the body
of one opens there, or as a `try` block behind a head that announces one; and every statement that
ends in no scope inside is a declaration. -/
theorem linkage_hides_function (name : String) {text : String} {i : Nat} {s : ScanState}
    (h : Boundary (.ofText text) i s) (hreads : s.ReadsHead (.ofText text) i)
    (hlinkage : s.HeadsLinkage (.ofText text) i) :
    (Bracketed.ofText text).Opens { kind := .namespaceScope, opener := i } ∧
    (s.openBrace (.ofText text) i).2 = [] ∧
    (∀ (kind : ScopeKind) (s' : ScanState),
      s' = { s with head := s.bodyOfHead (.ofText text) i + 2 } →
      ((Bracketed.ofText text).head s'.scope s'.head i).kind = some kind →
      (s'.openBrace (.ofText text) i).1.scope.kind = kind) ∧
    ∀ (j : Nat) (t : ScanState) (hj : j < (Bracketed.ofText text).lexemes.size),
      Boundary (.ofText text) j t → i ∈ (Bracketed.ofText text).pairs.openAt j →
      (∀ cut ∈ (t.step (.ofText text) j (Bracketed.ofText text).lexemes[j]).cuts,
        (cut.kind = .label → ∃ inner, (Bracketed.ofText text).HasOpen j inner ∧
          i < inner.opener ∧ inner.kind.holdsCode = true) ∧
        (cut.inConstantFunction = true →
          (∃ inner, (Bracketed.ofText text).HasOpen j inner ∧ i < inner.opener ∧
            inner.kind.isBody = true ∧ inner.constant = true) ∨
          cut.kind = .tryBlock ∧
            (Bracketed.ofText text).declaresConstantFunction t.head j = true)) ∧
      (t.scope.opener = i → t.EndsPlain (.ofText text) j →
        ∃ f ∈ (scan name text).fragments, f.kind = .declaration ∧
          (Source.ofText name text).Window f t.head
            ((Bracketed.ofText text).withoutTry 0 j - 1)) := by
  have hb : (Bracketed.ofText text).Nested := Bracketed.nested_ofLexemes _
  have hopens := h.opens_of_linkage hreads hlinkage
  refine ⟨hopens, ?_, ?_, ?_⟩
  · rw [hreads.openBrace_eq (congrArg Head.kind (ScanState.head_of_linkage hlinkage))]
    rfl
  · rintro kind s' rfl hkind
    -- what the brace asks of the state apart from the head is the same
    have hreads' : ({ s with head := s.bodyOfHead (.ofText text) i + 2 } : ScanState).ReadsHead
        (.ofText text) i := ⟨hreads.brace, hreads.paired, hreads.unannounced, hreads.top⟩
    rw [hreads'.openBrace_eq hkind]
    rfl
  · intro j t hj ht hopen
    have hopen : (Bracketed.ofText text).HasOpen j { kind := .namespaceScope, opener := i } :=
      ⟨hopens, hopen⟩
    refine ⟨fun cut hcut => ⟨?_, ?_⟩, ?_⟩
    · exact ht.code_around_label hb hopen rfl hcut
    · intro hconstant
      refine (ScanState.constant_of_cut hcut hconstant).imp_left fun hconstant => ?_
      exact ht.body_around_constant hb hopen (by simp) rfl hconstant
    · intro hopener hends
      obtain ⟨-, heq | hlt⟩ := ht.innermost_of_hasOpen hb hopen hends.top
      · obtain ⟨context, hcut⟩ := ScanState.mem_cuts_of_endsPlain
          (Array.getElem?_eq_getElem hj) hends (by rw [heq]; rfl) (by simp [heq])
        exact Source.exists_fragment name ht hj hcut
      · exact absurd hopener (Nat.ne_of_gt hlt)

/-- The brace of a function with a linkage specification, and the `return` in it. -/
theorem linkage_hides_function_constant :
    ∃ (text : String) (s t : ScanState),
      text = "extern \"C\" constexpr int f() \x7b return 1; \x7d" ∧
      Boundary (.ofText text) 7 s ∧ s.ReadsHead (.ofText text) 7 ∧
      s.HeadsLinkage (.ofText text) 7 ∧
      (Bracketed.ofText text).Opens { kind := .namespaceScope, opener := 7 } ∧
      Boundary (.ofText text) 10 t ∧ t.scope.opener = 7 ∧ t.EndsPlain (.ofText text) 10 ∧
      ∃ f ∈ (scan "a.cpp" text).fragments, f.kind = .declaration ∧
        (Source.ofText "a.cpp" text).Window f 8 9 := by
  generalize htext : "extern \"C\" constexpr int f() \x7b return 1; \x7d" = text
  obtain ⟨hindex, hindex', hsize, hopen, hopener, hhead, hlast⟩ :
      ((Bracketed.ofText text).after 7).1 = 7 ∧ ((Bracketed.ofText text).after 10).1 = 10 ∧
      10 < (Bracketed.ofText text).lexemes.size ∧ 7 ∈ (Bracketed.ofText text).pairs.openAt 10 ∧
      ((Bracketed.ofText text).after 10).2.scope.opener = 7 ∧
      ((Bracketed.ofText text).after 10).2.head = 8 ∧
      (Bracketed.ofText text).withoutTry 0 10 - 1 = 9 := by
    rw [← htext]
    decide +kernel
  have hreads : ((Bracketed.ofText text).after 7).2.ReadsHead (.ofText text) 7 := by
    rw [← htext]
    exact ⟨by decide +kernel, by decide +kernel, by decide +kernel, by decide +kernel⟩
  have hlinkage : ((Bracketed.ofText text).after 7).2.HeadsLinkage (.ofText text) 7 := by
    rw [← htext]
    exact ⟨by decide +kernel, by decide +kernel, by decide +kernel⟩
  have hends : ((Bracketed.ofText text).after 10).2.EndsPlain (.ofText text) 10 := by
    rw [← htext]
    exact ⟨by decide +kernel, by decide +kernel, by decide +kernel, by decide +kernel,
      by decide +kernel⟩
  have h := Boundary.of_after hindex
  have ht := Boundary.of_after hindex'
  obtain ⟨hopens, -, -, hbody⟩ := linkage_hides_function "a.cpp" h hreads hlinkage
  obtain ⟨f, hf, hkind, hwindow⟩ := (hbody 10 _ hsize ht hopen).2 hopener hends
  rw [hhead, hlast] at hwindow
  exact ⟨text, _, _, rfl, h, hreads, hlinkage, hopens, ht, hopener, hends, f, hf, hkind, hwindow⟩

/-- A label and a `try` block in a constant function, and what is left of them once the function
has a linkage specification. -/
theorem linkage_hides_label :
    ((∃ f ∈ (scan "a.cpp" "void f() \x7b done: \x7d").fragments,
        f.kind = .label ∧ f.text = "done:") ∧
      ∀ f ∈ (scan "a.cpp" "extern \"C\" void f() \x7b done: \x7d").fragments,
        f.kind ≠ .label) ∧
    (∃ f ∈ (scan "a.cpp" "constexpr int f() \x7b try \x7b \x7d catch (...) \x7b \x7d \x7d").fragments,
        f.kind = .tryBlock ∧ f.context.inConstantFunction = true) ∧
      ∀ f ∈ (scan "a.cpp"
        "extern \"C\" constexpr int f() \x7b try \x7b \x7d catch (...) \x7b \x7d \x7d").fragments,
        f.context.inConstantFunction = false := by
  refine ⟨⟨?_, ?_⟩, ?_, ?_⟩
  all_goals
    rw [scan_fragments_eq (by decide +kernel)]
    decide +kernel

end CxxFloor
