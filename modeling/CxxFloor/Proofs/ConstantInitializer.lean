/-
# Parentheses in an initialiser

The initialiser of a constant is a constant expression as a whole, so a size
query in it stands in a constant context however deep it is nested.  The walk
asks the head only where no group is open, and braces ask it as well; a
parenthesis asks nothing and passes nothing on.  So what decides is the
outermost bracket between the `=` and the query
(`parentheses_hide_constant_context`): without one, and behind a brace, the
query is told that it stands in a constant context, unless the declarator is
taken for that of a function; behind a parenthesis it never is, unless a keyword
announced one of the groups.
-/
import CxxFloor.Proofs.Declarator
import CxxFloor.Proofs.Feature.Slots
import CxxFloor.Proofs.Scope.Groups

namespace CxxFloor

/-- The token at index `i` asks for the size or the alignment of the operand that ends at index
`c`. -/
structure Bracketed.SizeQuery (b : Bracketed) (i c : Nat) : Prop where
  keyword : b.wordInAt i sizeQueries = true
  operand : b.roundEnd? (i + 1) = some c

/-- The `=` at index `e` starts the initialiser of a constant, and index `i` stands in it. -/
structure ScanState.InitializesConstant (b : Bracketed) (s : ScanState) (e i : Nat) : Prop where
  declarator : b.ConstantDeclarator (s.bodyOfHead b i) e
  before : e < i
  level : b.pairs.openAt e = b.pairs.openAt s.head

/-! ## The query -/

namespace ScanState

variable {b : Bracketed} {s : ScanState} {i c : Nat}

theorem cuts_of_sizeQuery {t : Lexeme} (ht : b.at? i = some t) (h : b.SizeQuery i c) :
    (s.step b i t).cuts = [s.sizeQueryCut b i c] := by
  obtain ⟨u, hu, hkind, htext⟩ := Bracketed.wordInAt_iff.1 h.keyword
  obtain rfl := Option.some.inj (ht.symm.trans hu)
  have hround : b.punctAt (i + 1) "(" = true := Bracketed.punctAt_of_roundEnd? h.operand
  have hne : ∀ text ∉ sizeQueries, t.text ≠ text := by
    rintro text hnot rfl
    exact hnot htext
  have hcolon : b.punctAt (i + 1) ":" = false := Bracketed.punctAt_unique hround (by decide)
  rw [step_of_word ht hkind (hne "case" (by decide)) hcolon]
  simp [wordCuts, hne "static_assert" (by decide), htext, h.operand, Move.one]

end ScanState

/-- A size query is a fragment, which is told whether its place is a constant context. -/
theorem Source.exists_sizeQuery (name : String) {text : String} {i c : Nat} {s : ScanState}
    (h : Boundary (.ofText text) i s) (hquery : (Bracketed.ofText text).SizeQuery i c) :
    ∃ f ∈ (scan name text).fragments, f.kind = .sizeQuery ∧
      (Source.ofText name text).Window f i c ∧
      f.context.constantContext = s.inConstantContext (.ofText text) i := by
  obtain ⟨t, ht, -⟩ := Bracketed.wordInAt_iff.1 hquery.keyword
  have hi : i < (Bracketed.ofText text).lexemes.size := (Array.getElem?_eq_some_iff.1 ht).1
  have hcuts := ScanState.cuts_of_sizeQuery (s := s) (Array.getElem?_eq_getElem hi) hquery
  obtain ⟨f, hf, hkind, hcontext, hwindow⟩ := exists_fragment_in_context name h hi
    (hcuts ▸ List.mem_singleton_self (s.sizeQueryCut (.ofText text) i c))
  refine ⟨f, hf, hkind, hwindow, ?_⟩
  rw [hcontext]

/-! ## The initialiser -/

namespace ScanState.InitializesConstant

variable {b : Bracketed} {s : ScanState} {i e stop : Nat}

/-- Wherever in the initialiser it is asked, the head declares a constant variable exactly if its
declarator names no parameter list. -/
theorem declares (h : s.InitializesConstant b e i) (hi : i ≤ b.size) (hlt : e < stop)
    (hle : stop ≤ i) (requireEquals : Bool) :
    b.declaresConstantVariable s.head stop requireEquals =
      (b.slice (s.bodyOfHead b i) e).parameterList?.isNone := by
  have hfront : (b.headFront s.head stop).bodyStart = s.bodyOfHead b i :=
    congrArg HeadFront.bodyStart
      (Bracketed.headFront_of_bodyStart (Nat.lt_of_le_of_lt h.declarator.start_le hlt) hle)
  have hdeclarator := h.declarator
  rw [← hfront] at hdeclarator ⊢
  refine hdeclarator.declares hlt (Nat.le_trans hle hi) fun k c hk hke hc => ?_
  -- a group across the `=` would be open at the head
  refine Nat.lt_of_not_le fun hec => ?_
  have hopen : k ∈ b.pairs.openAt e :=
    Pairing.mem_openAt.2 ⟨hke, c, Bracketed.partner?_of_closer? hc, hec⟩
  rw [h.level] at hopen
  exact absurd (Pairing.mem_openAt.1 hopen).1 (Nat.not_lt.2 hk)

theorem openAt_eq (h : s.InitializesConstant b e i) (hs : Boundary b i s) (hb : b.Nested) :
    b.pairs.openAt i = b.pairs.openAt e ++ (s.groups.map (·.opener)).reverse := by
  rw [h.level, (hs.headsOpen hb).head, ← (hs.aligned hb).openers_eq, openers, openersOf,
    List.map_reverse]

theorem mem_openAt (h : s.InitializesConstant b e i) (hs : Boundary b i s) (hb : b.Nested) {o : Nat}
    (ho : o ∈ s.groups.map (·.opener)) : o ∈ b.pairs.openAt i := by
  rw [h.openAt_eq hs hb]
  exact List.mem_append_right _ (List.mem_reverse.2 ho)

theorem lt_opener (h : s.InitializesConstant b e i) (hs : Boundary b i s) (hb : b.Nested) {o : Nat}
    (ho : o ∈ s.groups.map (·.opener)) : e < o ∧ o < i := by
  obtain ⟨hoi, c, hc, hic⟩ := Pairing.mem_openAt.1 (h.mem_openAt hs hb ho)
  refine ⟨Nat.lt_of_not_le fun hoe => ?_, hoi⟩
  rcases Nat.eq_or_lt_of_le hoe with rfl | hlt
  · rw [hb.partner?_of_punctAt h.declarator.equals (by decide)] at hc
    cases hc
  · have hbefore := h.before
    have hopen : o ∈ b.pairs.openAt e := Pairing.mem_openAt.2 ⟨hlt, c, hc, by omega⟩
    have hsorted := b.pairs.openAt_sorted i
    rw [h.openAt_eq hs hb] at hsorted
    have := (List.pairwise_append.1 hsorted).2.2 o hopen o (List.mem_reverse.2 ho)
    omega

theorem inConstantContext_of_top (h : s.InitializesConstant b e i) (hi : i ≤ b.size)
    (hscope : s.scope.kind ≠ .enumeration) (htop : s.groups = []) :
    s.inConstantContext b i = (b.slice (s.bodyOfHead b i) e).parameterList?.isNone := by
  simp [inConstantContext, htop, hscope, atTop, h.declares hi h.before (Nat.le_refl i) true]

/-- Inside a group the outermost bracket decides, unless a keyword announced one of the groups. -/
theorem inConstantContext_of_outermost (h : s.InitializesConstant b e i) (hs : Boundary b i s)
    (hb : b.Nested) (hscope : s.scope.kind ≠ .enumeration) {o : Nat}
    (ho : (s.groups.map (·.opener)).getLast? = some o) :
    s.inConstantContext b i = true ↔ (∃ o ∈ s.groups.map (·.opener), b.HoldsConstant o) ∨
      (if b.punctAt o "[" then
        s.scope.kind.holdsDeclarations && (b.nameAt (o - 1) || b.punctAt (o - 1) "]")
      else b.punctAt o "\x7b" && (b.slice (s.bodyOfHead b i) e).parameterList?.isNone) = true := by
  have hpaired : ∀ o ∈ s.groups.map (·.opener), ∃ c, b.closer? o = some c := by
    intro o ho
    obtain ⟨hoi, c, hc, hic⟩ := Pairing.mem_openAt.1 (h.mem_openAt hs hb ho)
    exact ⟨c, Pairing.closer?_eq_some.2 ⟨hc, Nat.lt_of_lt_of_le hoi hic⟩⟩
  obtain ⟨t, -, hhead, hscopes, htop, hconstant⟩ :=
    (hs.groupsOpened hb).current.constant_iff hb hpaired ho
  obtain ⟨heo, hoi⟩ := h.lt_opener hs hb (List.mem_of_getLast? ho)
  have hgroups : s.groups ≠ [] := by
    rintro hnil
    simp [hnil] at ho
  have hdeclares := h.declares (hs.aligned hb).le_size heo (Nat.le_of_lt hoi) false
  have hinside : s.inConstantContext b i = s.groups.head?.any (·.constant) := by
    rw [inConstantContext, beq_eq_false_iff_ne.2 hscope, atTop,
      List.isEmpty_eq_false_iff.2 hgroups, Bool.false_and, Bool.or_false, Bool.or_false]
  have hoccurs : t.opensConstant b o = if b.punctAt o "[" then
      s.scope.kind.holdsDeclarations && (b.nameAt (o - 1) || b.punctAt (o - 1) "]")
    else b.punctAt o "\x7b" && (b.slice (s.bodyOfHead b i) e).parameterList?.isNone := by
    rw [opensConstant]
    split
    · have hpos : 0 < o := Nat.lt_of_le_of_lt (Nat.zero_le e) heo
      simp [opensArrayBound, atTop, htop, scope, hscopes, hpos]
    · simp [atTop, htop, hhead, hdeclares]
  rw [hinside, hconstant, hoccurs]

end ScanState.InitializesConstant

/-- In every text, take a size query in the initialiser of a constant, outside the bodies of lambdas
and of enumerations.  It is a fragment, and it is told that it stands in a constant context wherever
a keyword announced one of the brackets between the `=` and the query.  Apart from that, if no
bracket opens there, or if the first one is a brace, it is told so exactly if the declarator names
no parameter list.  If the first one is a parenthesis it never is, and if it is a square bracket it
is exactly if that would be the bound of an array. -/
theorem parentheses_hide_constant_context (name : String) {text : String} {i e c : Nat}
    {s : ScanState} (h : Boundary (.ofText text) i s)
    (hquery : (Bracketed.ofText text).SizeQuery i c)
    (hinit : s.InitializesConstant (.ofText text) e i) (hscope : s.scope.kind ≠ .enumeration)
    {os : List Nat} (hopen : (Bracketed.ofText text).pairs.openAt i =
      (Bracketed.ofText text).pairs.openAt e ++ os) :
    ∃ f ∈ (scan name text).fragments, f.kind = .sizeQuery ∧
      (Source.ofText name text).Window f i c ∧
      ((∀ o ∈ os.head?, (Bracketed.ofText text).punctAt o "\x7b" = true) →
        (f.context.constantContext = true ↔
          (∃ o ∈ os, (Bracketed.ofText text).HoldsConstant o) ∨ ((Bracketed.ofText text).slice
            (s.bodyOfHead (.ofText text) i) e).parameterList? = none)) ∧
      (∀ o ∈ os.head?, (Bracketed.ofText text).punctAt o "(" = true →
        (f.context.constantContext = true ↔
          ∃ o ∈ os, (Bracketed.ofText text).HoldsConstant o)) ∧
      ∀ o ∈ os.head?, (Bracketed.ofText text).punctAt o "[" = true →
        (f.context.constantContext = true ↔
          (∃ o ∈ os, (Bracketed.ofText text).HoldsConstant o) ∨
            s.scope.kind.holdsDeclarations = true ∧
              ((Bracketed.ofText text).nameAt (o - 1) = true ∨
                (Bracketed.ofText text).punctAt (o - 1) "]" = true)) := by
  have hb : (Bracketed.ofText text).Nested := Bracketed.nested_ofLexemes _
  obtain ⟨f, hf, hkind, hwindow, hflag⟩ := Source.exists_sizeQuery name h hquery
  obtain rfl : os = (s.groups.map (·.opener)).reverse :=
    List.append_cancel_left (hopen.symm.trans (hinit.openAt_eq h hb))
  simp only [List.head?_reverse, List.mem_reverse]
  have houtermost : ∀ o ∈ (s.groups.map (·.opener)).getLast?, _ := fun o ho =>
    hinit.inConstantContext_of_outermost h hb hscope (Option.mem_def.1 ho)
  refine ⟨f, hf, hkind, hwindow, fun hbrace => ?_, fun o ho hround => ?_, fun o ho hsquare => ?_⟩
  · rw [hflag]
    cases hlast : (s.groups.map (·.opener)).getLast? with
    | none =>
        have htop : s.groups = [] := by simpa using hlast
        rw [hinit.inConstantContext_of_top (h.aligned hb).le_size hscope htop]
        simp [htop]
    | some o =>
        have hcurly := hbrace o hlast
        have hsquare : (Bracketed.ofText text).punctAt o "[" = false :=
          Bracketed.punctAt_unique hcurly (by decide)
        rw [houtermost o hlast, hsquare, if_neg Bool.false_ne_true, hcurly, Bool.true_and,
          Option.isNone_iff_eq_none]
  · have hsquare : (Bracketed.ofText text).punctAt o "[" = false :=
      Bracketed.punctAt_unique hround (by decide)
    have hcurly : (Bracketed.ofText text).punctAt o "\x7b" = false :=
      Bracketed.punctAt_unique hround (by decide)
    rw [hflag, houtermost o ho, hsquare, if_neg Bool.false_ne_true, hcurly, Bool.false_and]
    simp only [Bool.false_eq_true, or_false]
  · rw [hflag, houtermost o ho, if_pos hsquare, Bool.and_eq_true, Bool.or_eq_true]

/-- The query in `constexpr int n = (sizeof(N));`, which no keyword announces. -/
theorem parentheses_hide_constant_context_operand :
    ∃ (text : String) (s : ScanState),
      text = "struct N; constexpr int n = (sizeof(N));" ∧
      Boundary (.ofText text) 8 s ∧ (Bracketed.ofText text).SizeQuery 8 11 ∧
      s.InitializesConstant (.ofText text) 6 8 ∧ s.scope.kind ≠ .enumeration ∧
      (Bracketed.ofText text).pairs.openAt 8 = (Bracketed.ofText text).pairs.openAt 6 ++ [7] ∧
      (¬ ∃ o ∈ [7], (Bracketed.ofText text).HoldsConstant o) ∧
      ∃ f ∈ (scan "a.cpp" text).fragments, f.kind = .sizeQuery ∧
        (Source.ofText "a.cpp" text).Window f 8 11 ∧ f.context.constantContext = false := by
  generalize htext : "struct N; constexpr int n = (sizeof(N));" = text
  obtain ⟨hindex, hscope, hopen, hplain, hround⟩ : ((Bracketed.ofText text).after 8).1 = 8 ∧
      ((Bracketed.ofText text).after 8).2.scope.kind ≠ .enumeration ∧
      (Bracketed.ofText text).pairs.openAt 8 = (Bracketed.ofText text).pairs.openAt 6 ++ [7] ∧
      (¬ ∃ o ∈ [7], (Bracketed.ofText text).HoldsConstant o) ∧
      (Bracketed.ofText text).punctAt 7 "(" = true := by
    rw [← htext]
    decide +kernel
  have hquery : (Bracketed.ofText text).SizeQuery 8 11 := by
    rw [← htext]
    exact ⟨by decide +kernel, by decide +kernel⟩
  have hinit : ((Bracketed.ofText text).after 8).2.InitializesConstant (.ofText text) 6 8 := by
    rw [← htext]
    exact ⟨⟨by decide +kernel, by decide +kernel, by decide +kernel, by decide +kernel⟩,
      by decide, by decide +kernel⟩
  have h := Boundary.of_after hindex
  obtain ⟨f, hf, hkind, hwindow, -, hhidden, -⟩ :=
    parentheses_hide_constant_context "a.cpp" h hquery hinit hscope hopen
  refine ⟨text, _, rfl, h, hquery, hinit, hscope, hopen, hplain, f, hf, hkind, hwindow, ?_⟩
  rw [← Bool.not_eq_true, hhidden 7 rfl hround]
  exact hplain

/-- A size query in an initialiser is found, in braces as well, but not in parentheses or as the
argument of a call. -/
theorem wrapped_query_is_lost :
    (∃ report, classifyText "a.cpp" "struct N; constexpr int n = sizeof(N);" standardCatalog 20 []
        = .ok report ∧ ∃ a ∈ report.classification.findings, a.feature = incompleteSizeQuery.id) ∧
    (∃ report, classifyText "a.cpp" "struct N; constexpr int n = \x7bsizeof(N)\x7d;" standardCatalog
        20 [] = .ok report ∧
      ∃ a ∈ report.classification.findings, a.feature = incompleteSizeQuery.id) ∧
    (∃ report, classifyText "a.cpp" "struct N; constexpr int n = (sizeof(N));" standardCatalog 20 []
        = .ok report ∧ ∀ a ∈ report.classification.findings, a.feature ≠ incompleteSizeQuery.id) ∧
    ∃ report, classifyText "a.cpp" "struct N; constexpr int n = f(sizeof(N));" standardCatalog 20 []
        = .ok report ∧ ∀ a ∈ report.classification.findings, a.feature ≠ incompleteSizeQuery.id := by
  have hstandard : incompleteSizeQuery ∈ standardMatchers := by simp [standardMatchers]
  refine ⟨⟨_, classifyText_standard (by simp) _ _ _, ?_⟩,
    ⟨_, classifyText_standard (by simp) _ _ _, ?_⟩, ⟨_, classifyText_standard (by simp) _ _ _, ?_⟩,
    ⟨_, classifyText_standard (by simp) _ _ _, ?_⟩⟩
  iterate 2
    refine (Dispatcher.exists_finding_iff hstandard (by simp)).2 ?_
    rw [scan_fragments_eq (by decide +kernel)]
    decide +kernel
  all_goals
    intro a ha hfeature
    have hfound := (Dispatcher.exists_finding_iff hstandard (by simp)).1 ⟨a, ha, hfeature⟩
    rw [scan_fragments_eq (by decide +kernel)] at hfound
    revert hfound
    decide +kernel

end CxxFloor
