/-
# Nothing is missing

Between two steps of the walk nothing is missing that the next step takes for
granted, so that the checked step comes through and does what the step does
(`Boundary.checked_step`).  Each checked function has one lemma, that it comes
through on what lies inside the file; the conditions meet in the step, where
the head stands in front of it and every open group behind the start.
-/
import CxxFloor.Checked
import CxxFloor.Proofs.Scope.Reads

namespace CxxFloor

namespace Checked

variable {b : Bracketed} {s : ScanState} {i k start stop : Nat}

/-! ## Reads -/

theorem exists_at (h : k < b.size) : ∃ t, b.at? k = some t :=
  ⟨_, Array.getElem?_eq_getElem h⟩

theorem ask_eq (h : k < b.size) (test : Lexeme → Bool) :
    ask b k test = some ((b.at? k).any test) := by
  obtain ⟨t, ht⟩ := exists_at h
  rw [ask, ht]
  rfl

theorem and_eq {x y : Option Bool} {p q : Bool} (hx : x = some p)
    (hy : p = true → y = some q) : (x <&&> y) = some (p && q) := by
  subst hx
  cases p with
  | false => rfl
  | true => exact hy rfl

theorem or_eq {x y : Option Bool} {p q : Bool} (hx : x = some p)
    (hy : p = false → y = some q) : (x <||> y) = some (p || q) := by
  subst hx
  cases p with
  | true => rfl
  | false => exact hy rfl

theorem bind_eq {α β : Type} {x : Option α} {a : α} (hx : x = some a) (f : α → Option β) :
    x >>= f = f a := by
  rw [hx]
  rfl

theorem not_eq {x : Option Bool} {p : Bool} (hx : x = some p) : not <$> x = some (!p) := by
  rw [hx]
  rfl

theorem anyM_eq {l : List Nat} {f : Nat → Option Bool} {p : Nat → Bool}
    (h : ∀ k ∈ l, f k = some (p k)) : l.anyM f = some (l.any p) := by
  induction l with
  | nil => rfl
  | cons k l ih =>
      rw [List.anyM, h k List.mem_cons_self, List.any_cons,
        ih fun k hk => h k (List.mem_cons_of_mem _ hk)]
      cases p k with
      | true => rfl
      | false => rfl

theorem groupEnd?_eq {t : Lexeme} (ht : b.at? k = some t) :
    b.groupEnd? k = if t.opens?.isSome then b.closer? k else none := by
  simp [Bracketed.groupEnd?, ht]

theorem topLevel_eq (h : stop ≤ b.size) : topLevel b i stop = some (b.topLevel i stop) := by
  fun_induction Bracketed.topLevel b i stop with
  | case1 i hi j hj ih =>
      obtain ⟨t, ht⟩ := exists_at (Nat.lt_of_lt_of_le hi h)
      rw [groupEnd?_eq ht] at hj
      rw [topLevel, if_pos hi, ht]
      simp only [Option.bind_eq_bind, Option.bind_some]
      split
      next j' hj' =>
        obtain rfl : j = j' := Option.some.inj (hj.symm.trans hj')
        rw [ih]
        rfl
      next hj' => cases hj.symm.trans hj'
  | case2 i hi hj ih =>
      obtain ⟨t, ht⟩ := exists_at (Nat.lt_of_lt_of_le hi h)
      rw [groupEnd?_eq ht] at hj
      rw [topLevel, if_pos hi, ht]
      simp only [Option.bind_eq_bind, Option.bind_some]
      split
      next j' hj' => cases hj.symm.trans hj'
      next hj' =>
        rw [ih]
        rfl
  | case3 i hi => rw [topLevel, if_neg hi]

theorem startsHeader_eq (hk : k < stop) (h : stop ≤ b.size) :
    startsHeader b k stop =
      some (b.wordAt k "template" && (decide (k + 1 < stop) && b.punctAt (k + 1) "<")) :=
  and_eq (ask_eq (Nat.lt_of_lt_of_le hk h) _) fun _ =>
    and_eq rfl fun hlt => ask_eq (Nat.lt_of_lt_of_le (of_decide_eq_true hlt) h) _

theorem startsAttribute_eq (hk : k < stop) (h : stop ≤ b.size) :
    startsAttribute b k stop =
      some (b.punctAt k "[" && (decide (k + 1 < stop) && b.punctAt (k + 1) "[")) :=
  and_eq (ask_eq (Nat.lt_of_lt_of_le hk h) _) fun _ =>
    and_eq rfl fun hlt => ask_eq (Nat.lt_of_lt_of_le (of_decide_eq_true hlt) h) _

theorem templateHeaderEnd?_eq :
    b.templateHeaderEnd? k stop =
      if b.wordAt k "template" && (decide (k + 1 < stop) && b.punctAt (k + 1) "<") then
        (b.angleEnd? (k + 1)).filter (· < stop)
      else none := by
  rw [Bracketed.templateHeaderEnd?, Bool.and_assoc]

theorem attributeEnd?_eq_some {c : Nat} :
    b.attributeEnd? k = some c ↔
      (b.punctAt k "[" = true ∧ b.punctAt (k + 1) "[" = true) ∧ b.closer? k = some c := by
  rw [Bracketed.attributeEnd?, ← Bool.and_eq_true]
  split
  next h => exact ⟨fun h' => ⟨h, h'⟩, fun h' => h'.2⟩
  next h => simp [h]

theorem wordAt_template_of_attributeEnd? {c : Nat} (h : b.attributeEnd? k = some c) :
    b.wordAt k "template" = false := by
  obtain ⟨t, ht, hpunct⟩ := (Option.any_eq_true _ _).1 (attributeEnd?_eq_some.1 h).1.1
  rw [Lexeme.isPunct, Bool.and_eq_true, beq_iff_eq] at hpunct
  simp [Bracketed.wordAt, ht, Lexeme.isWord, hpunct.1]

theorem of_leadingSpecifier (h : b.wordInAt k leadingSpecifiers = true) :
    b.wordAt k "template" = false ∧ b.punctAt k "[" = false := by
  obtain ⟨t, ht, hword⟩ := (Option.any_eq_true _ _).1 h
  rw [Lexeme.isWordIn, Bool.and_eq_true, beq_iff_eq] at hword
  constructor
  · have hne : t.text ≠ "template" := by
      rintro heq
      rw [heq] at hword
      exact absurd hword.2 (by decide)
    simp [Bracketed.wordAt, ht, Lexeme.isWord, hne]
  · simp [Bracketed.punctAt, ht, Lexeme.isPunct, hword.1]

theorem headFront_eq (h : stop ≤ b.size) : headFront b k stop = some (b.headFront k stop) := by
  fun_induction Bracketed.headFront b k stop with
  | case1 k hk c hc rest ih =>
      rw [templateHeaderEnd?_eq] at hc
      rw [headFront, if_pos hk, startsHeader_eq hk h]
      simp only [Option.bind_eq_bind, Option.bind_some]
      split at hc
      next hheader =>
        rw [if_pos hheader]
        split
        next c' hc' =>
          obtain rfl : c = c' := Option.some.inj (hc.symm.trans hc')
          rw [ih]
          rfl
        next hc' => cases hc.symm.trans hc'
      next => cases hc
  | case2 k hk hnone c hc hlt ih =>
      obtain ⟨⟨hfirst, hsecond⟩, hclose⟩ := attributeEnd?_eq_some.1 hc
      have hword := wordAt_template_of_attributeEnd? hc
      rw [headFront, if_pos hk, startsHeader_eq hk h, startsAttribute_eq hk h, hword, hfirst,
        hsecond, decide_eq_true hlt]
      simp only [Option.bind_eq_bind, Option.bind_some, Bool.false_and, Bool.true_and,
        Bool.false_eq_true, if_false, if_true]
      split
      next c' hc' =>
        obtain rfl : c = c' := Option.some.inj (hclose.symm.trans hc')
        exact ih
      next hc' => cases hclose.symm.trans hc'
  | case3 k hk hnone c hc hge =>
      have hword := wordAt_template_of_attributeEnd? hc
      have hno : b.wordInAt k leadingSpecifiers = false :=
        Bracketed.wordInAt_of_punctAt (attributeEnd?_eq_some.1 hc).1.1
      rw [headFront, if_pos hk, startsHeader_eq hk h, startsAttribute_eq hk h, hword,
        decide_eq_false hge, ask_eq (Nat.lt_of_lt_of_le hk h)]
      rw [Bracketed.wordInAt] at hno
      simp [hno]
  | case4 k hk hnone hnone' hword ih =>
      obtain ⟨htemplate, hpunct⟩ := of_leadingSpecifier hword
      rw [headFront, if_pos hk, startsHeader_eq hk h, startsAttribute_eq hk h, htemplate, hpunct,
        ask_eq (Nat.lt_of_lt_of_le hk h)]
      rw [Bracketed.wordInAt] at hword
      simp [hword, ih]
  | case5 k hk hnone hnone' hword =>
      rw [templateHeaderEnd?_eq] at hnone
      rw [headFront, if_pos hk, startsHeader_eq hk h]
      simp only [Option.bind_eq_bind, Option.bind_some]
      split at hnone
      next hheader =>
        rw [if_pos hheader]
        split
        next c' hc' => cases hnone.symm.trans hc'
        next => rfl
      next hheader =>
        rw [if_neg hheader, startsAttribute_eq hk h, ask_eq (Nat.lt_of_lt_of_le hk h)]
        simp only [Option.bind_some]
        split
        next hattribute =>
          simp only [Bool.and_eq_true] at hattribute
          split
          next c hc =>
            have hsome := attributeEnd?_eq_some.2 ⟨⟨hattribute.1, hattribute.2.2⟩, hc⟩
            cases hnone'.symm.trans hsome
          next => rfl
        next => exact if_neg hword
  | case6 k hk => rw [headFront, if_neg hk]

theorem hasInitializer_eq (h : stop ≤ b.size) :
    hasInitializer b start stop = some (b.hasInitializer start stop) := by
  rw [hasInitializer, topLevel_eq h]
  refine anyM_eq fun k hk => ?_
  have hlt := Nat.lt_of_lt_of_le (Bracketed.mem_topLevel hk).2 h
  exact and_eq (ask_eq hlt _) fun _ => not_eq (and_eq rfl fun _ => ask_eq (by omega) _)

theorem operandEnd?_eq {t : Lexeme} (ht : b.at? k = some t) :
    b.operandEnd? k = if t.isPunctIn ["(", "["] then b.closer? k else none := by
  simp [Bracketed.operandEnd?, Bracketed.punctInAt, ht]

/-- Where no operand starts, the name is at the index, behind it or not there. -/
theorem className_of_none {t : Lexeme} (hk : k < stop) (ht : b.at? k = some t)
    (hnone : b.operandEnd? k = none) :
    className b k stop =
      if t.isWordIn classNameSkips then className b (k + 1) stop
      else some (if t.isName then some t.text else none) := by
  rw [operandEnd?_eq ht] at hnone
  rw [className, if_pos hk, ht]
  simp only [Option.bind_eq_bind, Option.bind_some]
  split
  next c hc => cases hnone.symm.trans hc
  next => rfl

theorem className_eq (h : stop ≤ b.size) :
    className b k stop = some (b.className? k stop) := by
  fun_induction Bracketed.className? b k stop with
  | case1 k hk c hc ih =>
      obtain ⟨t, ht⟩ := exists_at (Nat.lt_of_lt_of_le hk h)
      rw [operandEnd?_eq ht] at hc
      rw [className, if_pos hk, ht]
      simp only [Option.bind_eq_bind, Option.bind_some]
      split
      next c' hc' =>
        obtain rfl : c = c' := Option.some.inj (hc.symm.trans hc')
        exact ih
      next hc' => cases hc.symm.trans hc'
  | case2 k hk hnone t ht hskip ih => rw [className_of_none hk ht hnone, if_pos hskip, ih]
  | case3 k hk hnone t ht hskip hname =>
      rw [className_of_none hk ht hnone, if_neg hskip, if_pos hname]
  | case4 k hk hnone t ht hskip hname =>
      rw [className_of_none hk ht hnone, if_neg hskip, if_neg hname]
  | case5 k hk hnone ht =>
      obtain ⟨t, ht'⟩ := exists_at (Nat.lt_of_lt_of_le hk h)
      cases ht.symm.trans ht'
  | case6 k hk => rw [className, if_neg hk]

theorem continuesMemberInitializers_eq (h : stop ≤ b.size) :
    continuesMemberInitializers b start stop = some (b.continuesMemberInitializers start stop) := by
  rw [continuesMemberInitializers, topLevel_eq h]
  refine and_eq (anyM_eq fun k hk => ask_eq (Nat.lt_of_lt_of_le (Bracketed.mem_topLevel hk).2 h) _)
    fun hany => ?_
  obtain ⟨k, hk, -⟩ := List.any_eq_true.1 hany
  have := Bracketed.mem_topLevel hk
  obtain ⟨t, ht⟩ := exists_at (show stop - 1 < b.size by omega)
  simp [ask, Bracketed.nameAt, Bracketed.punctAt, ht]

theorem withoutTry_eq (h : stop ≤ b.size) :
    withoutTry b start stop = some (b.withoutTry start stop) := by
  refine (bind_eq (and_eq rfl fun hlt => ask_eq ?_ _) _).trans (apply_ite some _ _ _).symm
  have := of_decide_eq_true hlt
  omega

theorem namesOperator_eq (h : stop ≤ b.size) :
    namesOperator b start stop = some (b.namesOperator start stop) := by
  refine anyM_eq fun k hk => ?_
  have hlt : k + 2 < stop := by
    have := List.mem_range'_1.1 hk
    omega
  obtain ⟨t, ht⟩ := exists_at (show k + 1 < b.size by omega)
  obtain ⟨u, hu⟩ := exists_at (show k + 2 < b.size by omega)
  rw [Bool.and_assoc]
  refine and_eq (ask_eq (by omega) _) fun _ =>
    and_eq (not_eq (and_eq rfl fun _ => ask_eq (by omega) _)) fun _ => ?_
  simp [Bracketed.punctAt, ht, hu]

theorem declaresDataMember_eq (hs : start < stop) (h : stop ≤ b.size) :
    declaresDataMember b start stop = some (b.declaresDataMember start stop) := by
  obtain ⟨t, ht⟩ := exists_at (Nat.lt_of_lt_of_le hs h)
  simp [declaresDataMember, Bracketed.declaresDataMember, Bracketed.wordInAt, ht]

theorem declaresConstantFunction_eq (h : stop ≤ b.size) :
    declaresConstantFunction b start stop = some (b.declaresConstantFunction start stop) := by
  rw [declaresConstantFunction, headFront_eq h]
  rfl

theorem declaresConstantVariable_eq (h : stop ≤ b.size) (requireEquals : Bool) :
    declaresConstantVariable b start stop requireEquals =
      some (b.declaresConstantVariable start stop requireEquals) := by
  rw [declaresConstantVariable, headFront_eq h]
  rfl

theorem functionHead_eq (h : stop ≤ b.size) :
    functionHead b start stop = some (b.functionHead? start stop) := by
  simp only [functionHead, Bracketed.functionHead?]
  cases (b.slice start stop).parameterList? with
  | none => rfl
  | some list =>
      exact (bind_eq (continuesMemberInitializers_eq h) _).trans (apply_ite some _ _ _).symm

theorem not_isWord_inline {t : Lexeme} (ht : b.at? (b.headFront start stop).bodyStart = some t)
    (h : (b.headFront start stop).bodyStart < stop) : t.isWord "inline" = false := by
  have hno := Bracketed.wordInAt_headFront h
  rw [Bracketed.wordInAt, ht, Option.any_some, Lexeme.isWordIn, Bool.and_eq_false_iff] at hno
  rw [Lexeme.isWord, Bool.and_eq_false_iff]
  refine hno.imp id fun hno => ?_
  simp only [leadingSpecifiers, List.contains_cons, Bool.or_eq_false_iff] at hno
  exact hno.2.2.1

theorem opensNamespace_eq {body : Nat} {t : Lexeme} (ht : b.at? body = some t)
    (hinline : t.isWord "inline" = false) (h : stop ≤ b.size) :
    opensNamespace b body stop t =
      some (b.wordAt body "namespace" || (b.wordAt body "extern" && decide (body + 1 < stop)
        && (b.at? (body + 1)).any (·.kind == .string))) := by
  have hword (word : String) : b.wordAt body word = t.isWord word := by
    rw [Bracketed.wordAt, ht, Option.any_some]
  rw [hword, hword]
  refine or_eq ?_ fun _ => and_eq rfl fun hextern => ask_eq ?_ _
  · rw [hinline]
    cases t.isWord "namespace" <;> rfl
  · have := of_decide_eq_true (Bool.and_eq_true_iff.1 hextern).2
    omega

theorem head_eq (h : stop ≤ b.size) (scope : Scope) :
    head b scope start stop = some (b.head scope start stop) := by
  refine (bind_eq (headFront_eq h) _).trans ((bind_eq (withoutTry_eq h) _).trans ?_)
  have hend : b.withoutTry (b.headFront start stop).bodyStart stop ≤ stop :=
    Bracketed.withoutTry_le _ _
  have hinline := @not_isWord_inline b start stop
  simp only [Bracketed.head]
  generalize b.headFront start stop = front at hend hinline ⊢
  generalize b.withoutTry front.bodyStart stop = stop' at hend ⊢
  by_cases hbody : stop' ≤ front.bodyStart
  · rw [if_pos hbody, if_pos hbody]
    rfl
  rw [if_neg hbody, if_neg hbody]
  obtain ⟨t, ht⟩ := exists_at (show front.bodyStart < b.size by omega)
  obtain ⟨u, hu⟩ := exists_at (show stop' - 1 < b.size by omega)
  have hle : stop' ≤ b.size := Nat.le_trans hend h
  have hwords (words : List String) : b.wordInAt front.bodyStart words = t.isWordIn words := by
    rw [Bracketed.wordInAt, ht, Option.any_some]
  have hnamespace := opensNamespace_eq ht (hinline ht (by omega)) hle
  refine (bind_eq ht _).trans ((bind_eq hnamespace _).trans ?_)
  rw [apply_ite some]
  refine ite_congr rfl (fun _ => rfl) fun _ => ?_
  rw [apply_ite some, hwords, hwords]
  refine ite_congr rfl (fun _ => ?_) fun _ => ?_
  · refine (bind_eq hu _).trans (congrArg some (ite_congr ?_ (fun _ => rfl) fun _ => rfl))
    simp [Bracketed.endsControlHead, Bracketed.punctInAt, Bracketed.textInAt, hu]
  refine (bind_eq (hasInitializer_eq hle) _).trans ?_
  rw [apply_ite some]
  refine ite_congr rfl (fun _ => ?_) fun _ => ?_
  · rw [ht]
    exact bind_eq (className_eq hle) _
  rw [apply_ite some]
  refine ite_congr rfl (fun _ => bind_eq (ask_eq (by omega) _) _) fun _ => ?_
  rw [apply_ite some]
  refine ite_congr rfl (fun _ => rfl) fun _ => (bind_eq (functionHead_eq hle) _).trans ?_
  cases b.functionHead? front.bodyStart stop' with
  | none => rfl
  | some constant => rfl

/-! ## Places -/

theorem followsArrow_eq (h : k ≤ b.size) (depth : Nat) :
    followsArrow b k depth = some (b.followsArrow k depth) := by
  induction k generalizing depth with
  | zero => cases depth <;> rfl
  | succ k ih =>
      obtain ⟨t, ht⟩ := exists_at (show k < b.size by omega)
      have ih := ih (Nat.le_of_succ_le h)
      cases depth with
      | zero =>
          refine (bind_eq ht _).trans ?_
          simp only [Bracketed.followsArrow, Bracketed.nameAt, Bracketed.punctAt, ht,
            Option.any_some]
          rw [apply_ite some, apply_ite some]
          exact ite_congr rfl (fun _ => ih 0) fun _ => ite_congr rfl (fun _ => ih 1) fun _ => rfl
      | succ depth =>
          refine (bind_eq ht _).trans ?_
          simp only [Bracketed.followsArrow, Bracketed.punctAt, Bracketed.punctInAt, ht,
            Option.any_some]
          rw [apply_ite some, apply_ite some, apply_ite some]
          exact ite_congr rfl (fun _ => ih _) fun _ => ite_congr rfl (fun _ => ih _) fun _ =>
            ite_congr rfl (fun _ => rfl) fun _ => ih _

theorem free_eq (angles : Nat) {ks : List Nat} (h : ∀ k ∈ ks, k < b.size) :
    free b angles ks = some (b.free angles ks) := by
  induction ks generalizing angles with
  | nil => rfl
  | cons k ks ih =>
      have hk := h k List.mem_cons_self
      have ih (angles : Nat) := ih angles fun k hk => h k (List.mem_cons_of_mem _ hk)
      obtain ⟨t, ht⟩ := exists_at hk
      refine (bind_eq ht _).trans ?_
      refine (bind_eq (and_eq rfl fun _ => ask_eq (by omega) _) _).trans ?_
      simp only [Bracketed.free, Bracketed.nameAt, Bracketed.punctAt, ht, Option.any_some]
      rw [apply_ite some, apply_ite some, apply_ite some]
      refine ite_congr rfl (fun _ => ih _) fun _ => ite_congr rfl (fun _ => ih _) fun _ => ?_
      have hbefore : (if k = 0 then b.size - 1 else k - 1) < b.size := by
        split <;> omega
      refine (bind_eq (and_eq rfl fun _ => not_eq (ask_eq hbefore _)) _).trans ?_
      exact ite_congr rfl (fun _ => rfl) fun _ => ih _

theorem opensParameters_eq {head opener : Nat} (h : opener < b.size) :
    opensParameters b head opener = some (b.opensParameters head opener) := by
  obtain ⟨t, ht⟩ := exists_at (show opener - 1 < b.size by omega)
  rw [Bracketed.opensParameters, Bool.and_assoc, Bool.and_assoc]
  refine and_eq rfl fun _ => (bind_eq ht _).trans ?_
  simp only [Bracketed.nameAt, Bracketed.punctAt, Bracketed.textInAt, ht, Option.any_some]
  rw [← Bool.and_assoc]
  split
  next hlast =>
    rw [hlast, Bool.true_and]
    refine (bind_eq (topLevel_eq (Nat.le_of_lt h)) _).trans (free_eq 0 fun k hk => ?_)
    exact Nat.lt_trans (Bracketed.mem_topLevel hk).2 h
  next hlast =>
    rw [Bool.eq_false_iff.2 hlast]
    rfl

theorem startsParameter_eq (hi : i < b.size)
    (hgroup : ∀ g ∈ s.groups.head?, g.opener < b.size) :
    startsParameter b s i = some (s.startsParameter b i) := by
  unfold startsParameter ScanState.startsParameter
  cases hgroups : s.groups with
  | nil => rfl
  | cons group outer =>
      have hopener := hgroup group (by rw [hgroups]; rfl)
      dsimp only
      rw [Bool.and_assoc, Bool.and_assoc]
      exact and_eq rfl fun _ => and_eq (ask_eq (by omega) _) fun _ => and_eq (ask_eq hopener _)
        fun _ => or_eq rfl fun _ => and_eq rfl fun _ => opensParameters_eq hopener

theorem inConstantContext_eq (hi : i ≤ b.size) :
    inConstantContext b s i = some (s.inConstantContext b i) :=
  or_eq rfl fun _ => and_eq rfl fun _ => declaresConstantVariable_eq hi _

theorem tryIsConstant_eq (hi : i ≤ b.size) : tryIsConstant b s i = some (s.tryIsConstant b i) :=
  or_eq rfl fun _ => and_eq rfl fun _ => declaresConstantFunction_eq hi

/-! ## Cuts -/

theorem context_eq (first : Nat) : context b s first = some (s.context b first) :=
  bind_eq (headFront_eq (Nat.le_refl _)) _

theorem window_eq {kind : FragmentKind} {first last : Nat} (h : first < b.size)
    (hle : first ≤ last) (context : Context) :
    window b kind first last context = some (.span kind first last context) := by
  have hsize : 0 < (b.between first (last + 1)).length := by
    rw [Bracketed.between, Array.length_toList, Array.size_extract]
    have : first < b.lexemes.size := h
    omega
  exact bind_eq (List.head?_eq_some_head (List.length_pos_iff.1 hsize)) _

theorem span_eq {kind : FragmentKind} {first last : Nat} (h : first < b.size)
    (hle : first ≤ last) :
    span b s kind first last = some (s.span b kind first last) :=
  (bind_eq (context_eq first) _).trans (window_eq h hle _)

theorem declarationCuts_eq (h : stop ≤ b.size) :
    declarationCuts b s start stop = some (s.declarationCuts b start stop) := by
  unfold declarationCuts ScanState.declarationCuts
  rw [apply_ite some]
  refine ite_congr rfl (fun hlt => (bind_eq (withoutTry_eq h) _).trans ?_) fun _ => rfl
  have hle : b.withoutTry 0 stop ≤ stop := Bracketed.withoutTry_le _ _
  dsimp only
  rw [apply_ite some]
  refine ite_congr rfl (fun hlt' => ?_) fun _ => rfl
  have hcut {kind : FragmentKind} :=
    @span_eq b s kind start (b.withoutTry 0 stop - 1) (by omega) (by omega)
  refine (bind_eq hcut _).trans ((bind_eq (namesOperator_eq (Nat.le_trans hle h)) _).trans ?_)
  cases b.namesOperator start (b.withoutTry 0 stop) with
  | false => rfl
  | true => exact bind_eq hcut _

/-! ## Semicolons and brackets -/

theorem forwardName_eq (h : stop ≤ b.size) :
    forwardName b start stop = some (ScanState.forwardName? b start stop) :=
  bind_eq (headFront_eq h) _

theorem noteForward_eq (h : stop ≤ b.size) :
    noteForward b s start stop = some (s.noteForward b start stop) := by
  refine (bind_eq (forwardName_eq h) _).trans ?_
  unfold ScanState.noteForward
  cases ScanState.forwardName? b start stop with
  | none => rfl
  | some name => exact (apply_ite some _ _ _).symm

theorem bodyStart_head (scope : Scope) :
    (b.head scope start stop).bodyStart = (b.headFront start stop).bodyStart := by
  simp only [Bracketed.head]
  repeat' split
  all_goals rfl

theorem statementCuts_eq (hs : s.head < i) (hi : i ≤ b.size) :
    statementCuts b s i = some (s.statementCuts b i) := by
  refine (bind_eq (head_eq hi s.scope) _).trans ?_
  rw [bodyStart_head]
  unfold ScanState.statementCuts
  dsimp only
  rw [apply_ite some]
  refine ite_congr rfl (fun _ => rfl) fun hbody => ?_
  rw [apply_ite some]
  refine (bind_eq (ask_eq (by omega) _) _).trans (ite_congr rfl (fun _ => rfl) fun _ => ?_)
  rw [apply_ite some]
  refine (bind_eq (and_eq rfl fun _ => declaresDataMember_eq (by omega) hi) _).trans ?_
  exact ite_congr rfl (fun _ => bind_eq (span_eq (by omega) (by omega)) _) fun _ =>
    declarationCuts_eq hi

theorem endStatement_eq (hi : i ≤ b.size) :
    endStatement b s i = some (s.endStatement b i) := by
  unfold endStatement ScanState.endStatement
  dsimp only
  rw [apply_ite some]
  refine ite_congr rfl (fun h => ?_) fun _ => rfl
  have hlt : s.head < i := of_decide_eq_true (Bool.and_eq_true_iff.1 h).2
  refine (bind_eq (noteForward_eq hi) _).trans (bind_eq (statementCuts_eq ?_ hi) _)
  rw [ScanState.head_noteForward]
  exact hlt

theorem openBrace_eq (hi : i ≤ b.size) : openBrace b s i = some (s.openBrace b i) := by
  unfold openBrace ScanState.openBrace
  rw [apply_ite some]
  refine ite_congr rfl (fun _ => rfl) fun _ => ?_
  cases s.lambdaBodies.find? (·.opener = i) with
  | some body => rfl
  | none =>
      dsimp only
      rw [apply_ite some]
      refine ite_congr rfl (fun _ => rfl) fun _ => (bind_eq (head_eq hi s.scope) _).trans ?_
      cases (b.head s.scope s.head i).kind with
      | none => exact bind_eq (declaresConstantVariable_eq hi false) _
      | some kind =>
          dsimp only
          split
          · exact bind_eq (declarationCuts_eq hi) _
          · rfl

theorem bindsStructure_eq (h : k ≤ b.size) : bindsStructure b k = some (b.bindsStructure k) := by
  induction k with
  | zero => rfl
  | succ k ih =>
      obtain ⟨t, ht⟩ := exists_at (show k < b.size by omega)
      refine (bind_eq ht _).trans ?_
      simp only [Bracketed.bindsStructure, Bracketed.punctInAt, Bracketed.wordInAt,
        Bracketed.wordAt, ht, Option.any_some]
      rw [apply_ite some]
      exact ite_congr rfl (fun _ => ih (Nat.le_of_succ_le h)) fun _ => rfl

theorem introducesLambda_eq (h : i < b.size) :
    introducesLambda b i = some (b.introducesLambda i) := by
  unfold introducesLambda Bracketed.introducesLambda
  split
  next hpaired =>
    obtain ⟨t, ht⟩ := exists_at (show i - 1 < b.size by omega)
    refine (bind_eq ht _).trans ?_
    rw [hpaired, Bool.true_and, ht]
    dsimp only
    cases t.kind with
    | punctuator =>
        exact and_eq rfl fun _ => not_eq (and_eq rfl fun _ => bindsStructure_eq (Nat.le_of_lt h))
    | _ => rfl
  next hpaired =>
    rw [Bool.eq_false_iff.2 hpaired]
    rfl

theorem noteLambda_eq (hb : b.Nested) (h : i < b.size) (hsquare : b.punctAt i "[" = true) :
    noteLambda b s i = some (s.noteLambda b i) := by
  refine (bind_eq (introducesLambda_eq h) _).trans ?_
  unfold ScanState.noteLambda
  rw [apply_ite some]
  refine ite_congr rfl (fun hlambda => ?_) fun _ => rfl
  rw [Bracketed.introducesLambda, Bool.and_eq_true, Bool.and_eq_true] at hlambda
  obtain ⟨c, hc⟩ := Option.isSome_iff_exists.1 hlambda.1.2
  refine (bind_eq hc _).trans ?_
  dsimp only
  cases hbody : (b.lambdaAhead s.scope i).body with
  | none => rfl
  | some body =>
      obtain ⟨close, hclose, hlt, -⟩ := CutsOf.lambdaAhead_body hbody
      have := hb.lt_of_opensAt hclose (Bracketed.opensAt_of_punctAt (k := .square) hsquare)
      exact bind_eq (span_eq h (by omega)) _

theorem opensArrayBound_eq (h : i < b.size) :
    opensArrayBound b s i = some (s.opensArrayBound b i) := by
  obtain ⟨t, ht⟩ := exists_at (show i - 1 < b.size by omega)
  refine and_eq rfl fun _ => ?_
  simp [ask, Bracketed.nameAt, Bracketed.punctAt, ht]

/-! ## Words -/

theorem exists_opensAt {ks : List Bracket}
    (h : b.punctInAt k (ks.map Bracket.opener) = true) : ∃ bracket, b.opensAt k bracket := by
  obtain ⟨t, ht, hp⟩ := (Option.any_eq_true _ _).1 h
  rw [Lexeme.isPunctIn, Bool.and_eq_true, List.contains_iff_mem, beq_iff_eq] at hp
  obtain ⟨bracket, -, hopener⟩ := List.mem_map.1 hp.2
  refine ⟨bracket, Bracketed.opensAt_of_punctAt (Bracketed.punctAt_iff.2 ⟨t, ht, ?_⟩)⟩
  rw [Lexeme.isPunct, hp.1, hopener]
  simp

/-- The partner of an opener closes it. -/
theorem operandEnd_eq (hb : b.Nested) (ks : List Bracket) :
    operandEnd b k (ks.map Bracket.opener) =
      some (if b.punctInAt k (ks.map Bracket.opener) then b.closer? k else none) := by
  unfold operandEnd
  by_cases hpunct : b.punctInAt k (ks.map Bracket.opener) = true
  · obtain ⟨bracket, hopens⟩ := exists_opensAt hpunct
    rw [hpunct, if_pos rfl, Bool.true_and]
    cases hc : b.pairs.partner? k with
    | none => simp [Bracketed.closer?, Pairing.closer?, hc]
    | some c =>
        rw [hb.closer?_of_opensAt hc hopens]
        rfl
  · rw [if_neg hpunct, Bool.eq_false_iff.2 hpunct]
    rfl

theorem operandEnd_round_eq (hb : b.Nested) : operandEnd b k ["("] = some (b.roundEnd? k) := by
  have hround : b.punctInAt k ["("] = b.punctAt k "(" := by
    simp [Bracketed.punctInAt, Bracketed.punctAt, Lexeme.isPunctIn, Lexeme.isPunct, beq_eq_decide]
  rw [Bracketed.roundEnd?, ← hround]
  exact operandEnd_eq hb [.round]

theorem sizeQueryCut_eq (hi : i < b.size) {close : Nat} (hclose : i ≤ close) :
    sizeQueryCut b s i close = some (s.sizeQueryCut b i close) :=
  (bind_eq (context_eq i) _).trans <|
    (bind_eq (inConstantContext_eq (Nat.le_of_lt hi)) _).trans (window_eq hi hclose _)

theorem tryCut_eq (hi : i < b.size) : tryCut b s i = some (s.tryCut b i) :=
  (bind_eq (context_eq i) _).trans <|
    (bind_eq (tryIsConstant_eq (Nat.le_of_lt hi)) _).trans (window_eq hi (Nat.le_succ i) _)

theorem callCut_eq (hi : i < b.size) (hgroup : ∀ g ∈ s.groups.head?, g.opener < b.size)
    {close : Nat} (hclose : i ≤ close) : callCut b s i close = some (s.callCut b i close) :=
  (bind_eq (context_eq i) _).trans <|
    (bind_eq (or_eq (followsArrow_eq (Nat.le_of_lt hi) 0) fun _ => startsParameter_eq hi hgroup)
      _).trans (window_eq hi hclose _)

theorem wordCuts_eq (hb : b.Nested) (hi : i < b.size)
    (hgroup : ∀ g ∈ s.groups.head?, g.opener < b.size) (text : String) :
    wordCuts b s i text = some (s.wordCuts b i text) := by
  unfold wordCuts ScanState.wordCuts
  dsimp only
  rw [apply_ite some]
  refine ite_congr rfl (fun _ => (bind_eq (operandEnd_round_eq hb) _).trans ?_) fun _ => ?_
  · cases hclose : b.roundEnd? (i + 1) with
    | none => rfl
    | some close =>
        have := Pairing.lt_of_closer? (Bracketed.closer?_of_roundEnd? hclose)
        exact bind_eq (span_eq hi (by omega)) _
  rw [apply_ite some]
  refine ite_congr rfl (fun _ => (bind_eq (operandEnd_round_eq hb) _).trans ?_) fun _ => ?_
  · cases hclose : b.roundEnd? (i + 1) with
    | none => rfl
    | some close =>
        have := Pairing.lt_of_closer? (Bracketed.closer?_of_roundEnd? hclose)
        exact bind_eq (sizeQueryCut_eq hi (by omega)) _
  rw [apply_ite some]
  refine ite_congr rfl (fun _ => rfl) fun _ => ?_
  rw [apply_ite some]
  refine ite_congr rfl (fun _ => bind_eq (span_eq hi (branchEnd_range hi).1) _) fun _ => ?_
  rw [apply_ite some]
  refine ite_congr rfl (fun _ => ?_) fun _ => ?_
  · rw [apply_ite some]
    exact ite_congr rfl (fun _ => bind_eq (tryCut_eq hi) _) fun _ => rfl
  by_cases hauto : (text == "auto") = true
  · have hend : operandEnd b (i + 1) ["(", "\x7b"] =
        some (if b.punctInAt (i + 1) ["(", "\x7b"] then b.closer? (i + 1) else none) :=
      operandEnd_eq hb [.round, .curly]
    rw [if_pos hauto, hauto, Bool.true_and]
    refine (bind_eq hend _).trans ?_
    by_cases hpunct : b.punctInAt (i + 1) ["(", "\x7b"] = true
    · rw [if_pos hpunct, if_pos hpunct]
      cases hclose : b.closer? (i + 1) with
      | none => rfl
      | some close =>
          have := Pairing.lt_of_closer? hclose
          exact bind_eq (callCut_eq hi hgroup (by omega)) _
    · rw [if_neg hpunct, if_neg hpunct]
      rfl
  · rw [if_neg hauto, Bool.eq_false_iff.2 hauto]
    rfl

theorem wordStep_eq (hb : b.Nested) (hi : i < b.size)
    (hgroup : ∀ g ∈ s.groups.head?, g.opener < b.size) (text : String) :
    wordStep b s i text = some (s.wordStep b i text) := by
  unfold wordStep
  cases haccess : ScanState.atAccess b s i text with
  | true =>
      rw [ScanState.wordStep_of_access haccess]
      exact if_pos haccess
  | false =>
      refine (if_neg (Bool.eq_false_iff.1 haccess)).trans ?_
      split
      next colon hcolon =>
        have := ScanState.lt_of_labelEnd? hcolon
        rw [ScanState.wordStep_of_label haccess hcolon]
        exact bind_eq (span_eq hi (by omega)) _
      next hnone =>
        rw [ScanState.wordStep_of_none haccess hnone]
        exact bind_eq (wordCuts_eq hb hi hgroup text) _

theorem squareStep_eq (hb : b.Nested) (hi : i < b.size) (hsquare : b.punctAt i "[" = true) :
    squareStep b s i = some (s.squareStep b i) := by
  unfold squareStep
  split
  next close hclose =>
    have := Bracketed.lt_of_attributeEnd? hclose
    rw [ScanState.squareStep_of_some hclose]
    exact bind_eq (span_eq hi (by omega)) _
  next hnone =>
    rw [ScanState.squareStep_of_none hnone]
    exact (bind_eq (noteLambda_eq hb hi hsquare) _).trans (bind_eq (opensArrayBound_eq hi) _)

theorem punctuatorStep_eq (hi : i ≤ b.size) (text : String) :
    punctuatorStep b s i text = some (s.punctuatorStep b i text) := by
  unfold punctuatorStep
  split
  next hbrace =>
    rw [openBrace_eq hi, ScanState.punctuatorStep, eq_of_beq hbrace]
    rfl
  split
  next hend =>
    rw [Bool.and_eq_true] at hend
    rw [endStatement_eq hi, ScanState.punctuatorStep, eq_of_beq hend.1, hend.2]
    rfl
  next => rfl

theorem step_eq (hb : b.Nested) (hi : i < b.lexemes.size)
    (hgroup : ∀ g ∈ s.groups.head?, g.opener < b.size) :
    step b s i = some (s.step b i b.lexemes[i]) := by
  have ht : b.at? i = some b.lexemes[i] := Array.getElem?_eq_getElem hi
  refine (bind_eq ht _).trans ?_
  unfold ScanState.step
  cases hkind : b.lexemes[i].kind with
  | number => exact bind_eq (span_eq hi (Nat.le_refl i)) _
  | word => exact wordStep_eq hb hi hgroup _
  | punctuator =>
      dsimp only
      rw [apply_ite some]
      refine ite_congr rfl (fun hsquare => squareStep_eq hb hi ?_) fun _ =>
        bind_eq (punctuatorStep_eq (Nat.le_of_lt hi) _) _
      rw [Bracketed.punctAt, ht, Option.any_some, Lexeme.isPunct, hkind, hsquare]
      rfl
  | _ => rfl

end Checked

theorem Boundary.checked_step {b : Bracketed} {s : ScanState} {i : Nat} (h : Boundary b i s)
    (hb : b.Nested) (hi : i < b.lexemes.size) :
    Checked.step b s i = some (s.step b i b.lexemes[i]) :=
  Checked.step_eq hb hi fun _ hg => Nat.lt_trans (h.opener_lt hb hg) hi

end CxxFloor
