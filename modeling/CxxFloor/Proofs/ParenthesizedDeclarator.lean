/-
# Declarators in parentheses

What stands behind `auto` and a group in parentheses tells a declarator from a
copy, but it is only asked at the start of a statement or behind a specifier.
Any other token before the `auto` makes it a copy, and the last token of a
template header or of an attribute group is such a token.  So a declaration that
is none by itself is reported as a copy behind a prefix (`prefix_reveals_copy`):
always behind an attribute group, and behind a template header unless the walk
back from the `auto` goes through the header to an arrow.
-/
import CxxFloor.Proofs.Bracket.Level
import CxxFloor.Proofs.Feature.Slots
import CxxFloor.Proofs.Literals
import CxxFloor.Proofs.ControlHead

namespace CxxFloor

/-- The token at index `i` is an `auto` with a group in parentheses that ends at index `c` and goes
on like a declarator. -/
structure Bracketed.ParenthesizedDeclarator (b : Bracketed) (i c : Nat) : Prop where
  placeholder : b.wordAt i "auto" = true
  group : b.roundEnd? (i + 1) = some c
  follower : b.punctInAt (c + 1) declaratorFollowers = true

/-- The statement starts before index `i`, and what stands right before the index leads neither to
a type nor to a declaration. -/
structure ScanState.BehindPrefix (b : Bracketed) (s : ScanState) (i : Nat) : Prop where
  moved : s.head ≠ i
  noType : b.textInAt (i - 1) beforeType = false
  noReturn : b.followsArrow i 0 = false
  noSpecifier : b.wordInAt (i - 1) declarationSpecifiers = false

/-! ## The cut -/

namespace ScanState

variable {b : Bracketed} {s : ScanState} {i c : Nat}

theorem cuts_of_declarator {t : Lexeme} (ht : b.at? i = some t)
    (h : b.ParenthesizedDeclarator i c) : (s.step b i t).cuts = [s.callCut b i c] := by
  obtain ⟨u, hu, hword⟩ := (Option.any_eq_true _ _).1 h.placeholder
  obtain rfl := Option.some.inj (ht.symm.trans hu)
  simp only [Lexeme.isWord, Bool.and_eq_true, beq_iff_eq] at hword
  have hround : b.punctAt (i + 1) "(" = true := Bracketed.punctAt_of_roundEnd? h.group
  have hopen : b.punctInAt (i + 1) ["(", "\x7b"] = true :=
    Bracketed.punctInAt_of_punctAt hround (by decide)
  have hquery : "auto" ∉ sizeQueries := by decide
  have hcolon : b.punctAt (i + 1) ":" = false := Bracketed.punctAt_unique hround (by decide)
  rw [step_of_word ht hword.1 (by simp [hword.2]) hcolon, hword.2]
  simp [wordCuts, hquery, hopen, Bracketed.closer?_of_roundEnd? h.group, Move.one]

end ScanState

namespace Source

variable {name text : String} {i c : Nat} {s : ScanState}

/-- A fragment that starts at such an `auto` is its copy, with the context of its step. -/
theorem call_of_declarator {f : Fragment} {last : Nat} (hf : f ∈ (scan name text).fragments)
    (hkind : f.kind = .call) (hwindow : (Source.ofText name text).Window f i last)
    (h : Boundary (.ofText text) i s) (hdecl : (Bracketed.ofText text).ParenthesizedDeclarator i c) :
    last = c ∧ .span .call i c f.context = s.callCut (.ofText text) i c := by
  obtain ⟨j, t, hj, first, last', ht, hcut, hstep, hwindow'⟩ := exists_step hf (by simp [hkind])
  obtain ⟨rfl, rfl⟩ := hwindow.unique hwindow'
  rw [hkind] at hstep hcut
  obtain rfl : j = i := by
    cases hstep with
    | call => rfl
  obtain rfl := h.unique ht
  rw [ScanState.cuts_of_declarator (Array.getElem?_eq_getElem hj) hdecl, List.mem_singleton] at hcut
  obtain ⟨-, -, rfl, -⟩ := Cut.span.inj hcut
  exact ⟨rfl, hcut⟩

/-- Such an `auto` is a fragment. -/
theorem exists_call (name : String) (h : Boundary (.ofText text) i s)
    (hdecl : (Bracketed.ofText text).ParenthesizedDeclarator i c) :
    ∃ f ∈ (scan name text).fragments, f.kind = .call ∧
      (Source.ofText name text).Window f i c := by
  obtain ⟨t, ht, -⟩ := (Option.any_eq_true _ _).1 hdecl.placeholder
  have hi : i < (Bracketed.ofText text).lexemes.size := (Array.getElem?_eq_some_iff.1 ht).1
  have hcut : s.callCut (.ofText text) i c ∈
      (s.step (.ofText text) i (Bracketed.ofText text).lexemes[i]).cuts := by
    rw [ScanState.cuts_of_declarator (Array.getElem?_eq_getElem hi) hdecl]
    exact List.mem_singleton_self _
  exact exists_fragment name h hi hcut

end Source

/-! ## The verdict -/

/-- With a follower of a declarator there is a copy exactly if nothing before it tells of a type or
of the start of a declaration. -/
theorem examinePlaceholder_of_follower {v : View} (hround : v.bracketed.punctAt 1 "(" = true)
    (hnext : v.next.any (·.isPunctIn declaratorFollowers) = true) :
    examinePlaceholder v =
      if v.previous.any (fun t => beforeType.contains t.text) || v.context.placeholderType ||
        mayStartDeclaration v then .absent else .found none := by
  have hcurly : v.bracketed.punctAt 1 "\x7b" = false := Bracketed.punctAt_unique hround (by decide)
  simp only [examinePlaceholder, hcurly, hnext]
  cases v.previous.any (fun t => beforeType.contains t.text) <;>
    cases v.context.placeholderType <;> cases mayStartDeclaration v <;> rfl

theorem span_of_placeholder {v : View} {span : Option Span}
    (h : examinePlaceholder v = .found span) : span = none := by
  unfold examinePlaceholder at h
  repeat' split at h
  all_goals
    cases h
    try rfl

namespace Source

variable {name text : String} {i c : Nat} {s : ScanState} {f : Fragment}

theorem Window.any_previous {first last : Nat} (h : (Source.ofText name text).Window f first last)
    (p : Lexeme → Bool) :
    f.view.previous.any p = (0 < first && ((Bracketed.ofText text).at? (first - 1)).any p) := by
  show (f.previous.map (·.toLexeme)).any p = _
  rw [h.previous, at?_ofText name]
  by_cases hfirst : first = 0
  · simp [hfirst]
  · simp [hfirst, Nat.pos_of_ne_zero hfirst]

theorem Window.any_next {first last : Nat} (h : (Source.ofText name text).Window f first last)
    (p : Lexeme → Bool) :
    f.view.next.any p = ((Bracketed.ofText text).at? (last + 1)).any p := by
  show (f.next.map (·.toLexeme)).any p = _
  rw [h.next, at?_ofText name]

theorem Window.punctAt_view {first last k : Nat}
    (h : (Source.ofText name text).Window f first last) (hk : first + k ≤ last) (p : String) :
    f.view.bracketed.punctAt k p = (Bracketed.ofText text).punctAt (first + k) p := by
  rw [Bracketed.punctAt, Bracketed.punctAt, Bracketed.at?, h.view_lexemes, Array.getElem?_extract,
    if_pos]
  · rfl
  · have := h.lt_size
    rw [size_words] at this
    simp only [Bracketed.size] at this
    omega

/-- The matcher finds a copy in such a fragment exactly if the `auto` stands behind a prefix, and
is silent otherwise. -/
theorem examine_declarator (h : Boundary (.ofText text) i s) (htop : s.groups = [])
    (hdecl : (Bracketed.ofText text).ParenthesizedDeclarator i c)
    (hf : f ∈ (scan name text).fragments) (hkind : f.kind = .call)
    (hwindow : (Source.ofText name text).Window f i c) :
    s.BehindPrefix (.ofText text) i ∧ examinePlaceholder f.view = .found none ∨
      ¬ s.BehindPrefix (.ofText text) i ∧ examinePlaceholder f.view = .absent := by
  obtain ⟨-, hcontext⟩ := call_of_declarator hf hkind hwindow h hdecl
  obtain ⟨-, -, -, hcontext⟩ := Cut.span.inj hcontext
  have hround := Bracketed.punctAt_of_roundEnd? hdecl.group
  have hic := Pairing.lt_of_closer? (Bracketed.closer?_of_roundEnd? hdecl.group)
  have hparen : f.view.bracketed.punctAt 1 "(" = true := by
    rw [hwindow.punctAt_view (by omega)]
    exact hround
  have hnext : f.view.next.any (·.isPunctIn declaratorFollowers) = true := by
    rw [hwindow.any_next]
    exact hdecl.follower
  -- no group is open, so the `auto` is no parameter
  have htype : f.view.context.placeholderType = (Bracketed.ofText text).followsArrow i 0 := by
    show f.context.placeholderType = _
    rw [hcontext]
    simp [ScanState.startsParameter, htop]
  have hstart : f.view.context.atStatementStart = (s.head == i) := by
    show f.context.atStatementStart = _
    rw [hcontext]
    simp [ScanState.context, ScanState.atTop, htop]
  rw [examinePlaceholder_of_follower hparen hnext, mayStartDeclaration, htype, hstart,
    hwindow.any_previous, hwindow.any_previous]
  by_cases hmoved : s.head = i
  · exact .inr ⟨fun hbehind => hbehind.moved hmoved, by simp [hmoved]⟩
  · have hpos : 0 < i := by
      have := h.headLe.1
      omega
    simp only [hpos, decide_true, Bool.true_and, beq_eq_false_iff_ne.2 hmoved, Bool.false_or]
    by_cases hbehind : s.BehindPrefix (.ofText text) i
    · refine .inl ⟨hbehind, ?_⟩
      have hnoType := hbehind.noType
      have hnoSpecifier := hbehind.noSpecifier
      simp only [Bracketed.textInAt, Bracketed.wordInAt] at hnoType hnoSpecifier
      rw [hnoType, hnoSpecifier, hbehind.noReturn]
      rfl
    · refine .inr ⟨hbehind, if_pos ?_⟩
      by_contra hno
      simp only [Bool.or_eq_true, not_or, Bool.not_eq_true] at hno
      exact hbehind ⟨hmoved, hno.1.1, hno.1.2, hno.2⟩

end Source

/-! ## The prefixes -/

namespace Bracketed

variable {b : Bracketed} {i k m : Nat}

theorem textInAt_of_punctAt {p : String} {words : List String} (h : b.punctAt k p = true)
    (hp : p ∉ words) : b.textInAt k words = false := by
  obtain ⟨t, ht, hpunct⟩ := punctAt_iff.1 h
  simp only [Lexeme.isPunct, Bool.and_eq_true, beq_iff_eq] at hpunct
  simp [textInAt, ht, hpunct.2, hp]

theorem followsArrow_of_square (h : b.punctAt k "]" = true) : b.followsArrow (k + 1) 0 = false := by
  have hname : b.nameAt k = false := by
    obtain ⟨t, ht, hpunct⟩ := punctAt_iff.1 h
    simp only [Lexeme.isPunct, Bool.and_eq_true, beq_iff_eq] at hpunct
    simp [nameAt, ht, Lexeme.isName, hpunct.1]
  rw [followsArrow, hname, punctAt_unique h (by decide), punctAt_unique h (by decide),
    punctAt_unique h (by decide)]
  rfl

end Bracketed

namespace Boundary

variable {b : Bracketed} {s : ScanState} {k m : Nat}

theorem head_le_of_attribute (h : Boundary b (m + 1) s) (hb : b.Nested)
    (hk : b.attributeEnd? k = some m) : s.head ≤ k := by
  have hclose := Bracketed.closer?_of_attributeEnd? hk
  obtain ⟨t, ht⟩ := h.exists_at_opener hb hclose
  have hsize : k < b.lexemes.size :=
    Nat.lt_trans (Pairing.lt_of_closer? hclose) (hb.closer?_lt_size hclose)
  have hafter := ht.step hsize
  rw [ScanState.step_of_attributeEnd? (Array.getElem?_eq_getElem hsize) hk] at hafter
  obtain rfl := h.unique hafter
  exact ht.headLe.1

theorem behindPrefix_of_attribute (h : Boundary b (m + 1) s) (hb : b.Nested)
    (hk : b.attributeEnd? k = some m) : s.BehindPrefix b (m + 1) := by
  have hsquare := hb.square_of_attributeEnd? hk
  have hhead := h.head_le_of_attribute hb hk
  have hkm := Bracketed.lt_of_attributeEnd? hk
  refine ⟨by omega, ?_, ?_, ?_⟩
  · exact Bracketed.textInAt_of_punctAt hsquare (by decide)
  · exact Bracketed.followsArrow_of_square hsquare
  · exact Bracketed.wordInAt_of_punctAt hsquare

/-- So does a template header, unless the walk back goes through it to an arrow. -/
theorem behindPrefix_iff_of_header (hhead : s.head ≤ k)
    (hk : b.templateHeaderEnd? k (m + 1) = some m) :
    s.BehindPrefix b (m + 1) ↔ b.followsArrow (m + 1) 0 = false := by
  have hangle := Bracketed.punctAt_of_templateHeaderEnd? hk
  have hkm := Bracketed.lt_of_templateHeaderEnd? hk
  refine ⟨fun hbehind => hbehind.noReturn, fun hreturn => ⟨by omega, ?_, hreturn, ?_⟩⟩
  · exact Bracketed.textInAt_of_punctAt hangle (by decide)
  · exact Bracketed.wordInAt_of_punctAt hangle

end Boundary

/-! ## Findings -/

def FileReport.Finds (report : FileReport) (m : Matcher) (t : Token) : Prop :=
  ∃ a ∈ report.classification.findings, a.feature = m.id ∧ a.offset = t.start.offset

section Findings

variable {disabled : List String} {name text : String} {i c : Nat} {s : ScanState} {t : Token}

/-- The copies that are found at a token are those of a fragment that starts there. -/
theorem finds_placeholder_iff (henabled : placeholderCopy.id ∉ disabled) (floor : Int)
    (ht : (Source.ofText name text).words[i]? = some t) :
    (standardReport name text floor disabled).Finds placeholderCopy t ↔
      ∃ f ∈ (scan name text).fragments, f.kind = .call ∧ examinePlaceholder f.view = .found none ∧
        ∃ last, (Source.ofText name text).Window f i last := by
  have hstandard : placeholderCopy ∈ standardMatchers := by simp [standardMatchers]
  constructor
  · rintro ⟨a, ha, hfeature, hoffset⟩
    obtain ⟨f, hf, hkind, hfound⟩ :=
      (Dispatcher.mem_findings_iff hstandard henabled).1 ⟨ha, hfeature⟩
    obtain ⟨span, hspan, rfl⟩ := Dispatcher.of_match? hfound
    have hkind : f.kind = .call := by simpa [placeholderCopy] using hkind
    obtain rfl := span_of_placeholder hspan
    obtain ⟨-, -, -, first, last, -, -, -, hwindow⟩ := Source.exists_step hf (by simp [hkind])
    obtain ⟨u, hu, hstart⟩ := Option.map_eq_some_iff.1 hwindow.start
    have hsame : u.start.offset = t.start.offset := by
      have hspot : (f.start.offset : Int) = t.start.offset := hoffset
      rw [hstart]
      omega
    obtain rfl := Source.words_start_inj hu ht hsame
    exact ⟨f, hf, hkind, hspan, last, hwindow⟩
  · rintro ⟨f, hf, hkind, hfound, last, hwindow⟩
    have hmatch : Dispatcher.match? (placeholderCopy.outcome f) =
        some { f.whole with feature := placeholderCopy.id, file := f.file } := by
      rw [Matcher.outcome, show placeholderCopy.examine f.view = .found none from hfound]
      rfl
    have hfinding : _ ∈ (standardReport name text floor disabled).classification.findings ∧ _ :=
      (Dispatcher.mem_findings_iff hstandard henabled).2
        ⟨f, hf, by simp [placeholderCopy, hkind], hmatch⟩
    refine ⟨_, hfinding.1, hfinding.2, ?_⟩
    obtain ⟨u, hu, hstart⟩ := Option.map_eq_some_iff.1 hwindow.start
    obtain rfl := Option.some.inj (hu.symm.trans ht)
    exact congrArg (fun p => (p.offset : Int)) hstart.symm

end Findings

/-- In every text, take an `auto` outside all groups with a group in parentheses and a token behind
it that goes on with a declarator.  As the first token of its statement it is never reported as a
copy.  Elsewhere it is, exactly if no token that leads to a type or a declaration stands right
before it and the walk back meets no arrow: so right behind an attribute group it always is, and
right behind a template header in its statement unless the walk back goes through the header to an
arrow. -/
theorem prefix_reveals_copy {disabled : List String}
    (known : ∀ id ∈ disabled, standardCatalog.contains id = true)
    (henabled : placeholderCopy.id ∉ disabled) (name text : String) (floor : Int) {i c : Nat}
    {s : ScanState} (h : Boundary (.ofText text) i s) (htop : s.groups = [])
    (hdecl : (Bracketed.ofText text).ParenthesizedDeclarator i c) :
    ∃ report t, classifyText name text standardCatalog floor disabled = .ok report ∧
      (Source.ofText name text).words[i]? = some t ∧
      (report.Finds placeholderCopy t ↔ s.BehindPrefix (.ofText text) i) ∧
      (s.head = i → ¬ report.Finds placeholderCopy t) ∧
      (∀ k m, (Bracketed.ofText text).attributeEnd? k = some m → m + 1 = i →
        report.Finds placeholderCopy t) ∧
      ∀ k m, s.head ≤ k → (Bracketed.ofText text).templateHeaderEnd? k i = some m → m + 1 = i →
        (report.Finds placeholderCopy t ↔ (Bracketed.ofText text).followsArrow i 0 = false) := by
  have hb : (Bracketed.ofText text).Nested := Bracketed.nested_ofLexemes _
  obtain ⟨f, hf, hkind, hwindow⟩ := Source.exists_call name h hdecl
  obtain ⟨t, ht, -⟩ := Option.map_eq_some_iff.1 hwindow.start
  have hfinds : (standardReport name text floor disabled).Finds placeholderCopy t ↔
      s.BehindPrefix (.ofText text) i := by
    rw [finds_placeholder_iff henabled floor ht]
    constructor
    · rintro ⟨g, hg, hcall, hfound, last, hwindow'⟩
      obtain ⟨rfl, -⟩ := Source.call_of_declarator hg hcall hwindow' h hdecl
      rcases Source.examine_declarator h htop hdecl hg hcall hwindow' with
        ⟨hbehind, -⟩ | ⟨-, habsent⟩
      · exact hbehind
      · rw [hfound] at habsent
        cases habsent
    · intro hbehind
      rcases Source.examine_declarator h htop hdecl hf hkind hwindow with ⟨-, hfound⟩ | ⟨hno, -⟩
      · exact ⟨f, hf, hkind, hfound, c, hwindow⟩
      · exact absurd hbehind hno
  refine ⟨_, t, classifyText_standard known name text floor, ht, hfinds, ?_, ?_, ?_⟩
  · intro hhead hfound
    exact (hfinds.1 hfound).moved hhead
  · rintro k m hk rfl
    exact hfinds.2 (h.behindPrefix_of_attribute hb hk)
  · rintro k m hhead hk rfl
    exact hfinds.trans (Boundary.behindPrefix_iff_of_header hhead hk)

/-- A function template whose name stands in parentheses, with a disabled feature. -/
theorem prefix_reveals_copy_template :
    ∃ (text : String) (s : ScanState) (report : FileReport) (t : Token),
      text = "template <class T> auto (max)(T a) -> T;" ∧
      (∀ id ∈ ["static-call-operator"], standardCatalog.contains id = true) ∧
      placeholderCopy.id ∉ ["static-call-operator"] ∧
      Boundary (.ofText text) 5 s ∧ s.groups = [] ∧
      (Bracketed.ofText text).ParenthesizedDeclarator 5 8 ∧
      classifyText "a.cpp" text standardCatalog 20 ["static-call-operator"] = .ok report ∧
      (Source.ofText "a.cpp" text).words[5]? = some t ∧ report.Finds placeholderCopy t := by
  generalize htext : "template <class T> auto (max)(T a) -> T;" = text
  have known : ∀ id ∈ ["static-call-operator"], standardCatalog.contains id = true := by
    decide +kernel
  obtain ⟨hindex, htop, hhead, hheader, hreturn⟩ : ((Bracketed.ofText text).after 5).1 = 5 ∧
      ((Bracketed.ofText text).after 5).2.groups = [] ∧
      ((Bracketed.ofText text).after 5).2.head ≤ 0 ∧
      (Bracketed.ofText text).templateHeaderEnd? 0 5 = some 4 ∧
      (Bracketed.ofText text).followsArrow 5 0 = false := by
    rw [← htext]
    decide +kernel
  have hdecl : (Bracketed.ofText text).ParenthesizedDeclarator 5 8 := by
    rw [← htext]
    exact ⟨by decide +kernel, by decide +kernel, by decide +kernel⟩
  have h := Boundary.of_after hindex
  obtain ⟨report, t, hreport, ht, -, -, -, hfinds⟩ :=
    prefix_reveals_copy known (by decide) "a.cpp" text 20 h htop hdecl
  exact ⟨text, _, report, t, rfl, known, by decide, h, htop, hdecl, hreport, ht,
    (hfinds 0 4 hhead hheader rfl).2 hreturn⟩

/-- A declaration without a prefix, and two with one. -/
theorem prefixed_declarators_are_copies :
    (∃ report, classifyText "a.cpp" "auto (max)(int a) -> int;" standardCatalog 20 [] = .ok report ∧
      ∀ a ∈ report.classification.findings, a.feature ≠ placeholderCopy.id) ∧
    (∃ report, classifyText "a.cpp" "template <class T> auto (max)(T a) -> T;" standardCatalog 20 []
        = .ok report ∧ ∃ a ∈ report.classification.findings, a.feature = placeholderCopy.id) ∧
    ∃ report, classifyText "a.cpp" "[[nodiscard]] auto (max)(int a) -> int;" standardCatalog 20 []
        = .ok report ∧ ∃ a ∈ report.classification.findings, a.feature = placeholderCopy.id := by
  have hstandard : placeholderCopy ∈ standardMatchers := by simp [standardMatchers]
  refine ⟨⟨_, classifyText_standard (by simp) _ _ _, ?_⟩,
    ⟨_, classifyText_standard (by simp) _ _ _, ?_⟩, ⟨_, classifyText_standard (by simp) _ _ _, ?_⟩⟩
  · intro a ha hfeature
    have hfound := (Dispatcher.exists_finding_iff hstandard (by simp)).1 ⟨a, ha, hfeature⟩
    rw [scan_fragments_eq (by decide +kernel)] at hfound
    revert hfound
    decide +kernel
  all_goals
    refine (Dispatcher.exists_finding_iff hstandard (by simp)).2 ?_
    rw [scan_fragments_eq (by decide +kernel)]
    decide +kernel

end CxxFloor
