/-
# The numbers that are examined

A number is cut out of a text as a literal of its own whenever the walk stops at
it, and the walk stops at every number but those inside the labels and the
attribute groups it passes over.  So the literals of a scan are its numbers in
their order, each once, without those that a label or an attribute group of the
same scan holds (`literal_fragments_eq`).

The walk and the list of tokens are compared step by step: the token a step
starts at is seen if it is a number (`Source.not_passesOver`), and what else the
step passes over is held by the fragment that it cuts
(`Source.passesOver_of_lt_next`).
-/
import CxxFloor.Proofs.Scope.Origin

namespace CxxFloor

def Scan.passesOver (scan : Scan) (t : Token) : Bool :=
  scan.fragments.any fun f => f.kind.isPassed && f.tokens.contains t

/-- The token is a number, and no label and no attribute group of the scan holds it. -/
def Scan.sees (scan : Scan) (t : Token) : Bool := t.kind == .number && !scan.passesOver t

/-- What a fragment shows of the source: its tokens, where they start and stop, and the text. -/
def Fragment.shown (f : Fragment) : Array Token × Position × Nat × String :=
  (f.tokens, f.start, f.stop, f.text)

def Token.shown (t : Token) : Array Token × Position × Nat × String :=
  (#[t], t.start, t.stop, t.text)

/-! ## Words -/

namespace Source

variable {name text : String} {f : Fragment} {t : Token} {i k first last : Nat}

theorem at?_ofText (name : String) (k : Nat) : (Bracketed.ofText text).at? k =
    (Source.ofText name text).words[k]?.map (·.toLexeme) := by
  rw [Bracketed.at?, ← words_map_toLexeme name text, Array.getElem?_map]

theorem lexemes_ofText (name : String) (hi : i < (Bracketed.ofText text).lexemes.size)
    (ht : (Source.ofText name text).words[i]? = some t) :
    (Bracketed.ofText text).lexemes[i] = t.toLexeme := by
  have hget : (Bracketed.ofText text).at? i = some t.toLexeme := by
    rw [at?_ofText name, ht, Option.map_some]
  exact Option.some.inj ((Array.getElem?_eq_getElem hi).symm.trans hget)

end Source

/-! ## What is passed over -/

theorem Scan.passesOver_eq_true {scan : Scan} {t : Token} : scan.passesOver t = true ↔
    ∃ f ∈ scan.fragments, f.kind.isPassed = true ∧ t ∈ f.tokens := by
  simp only [passesOver, List.any_eq_true, Bool.and_eq_true, Array.contains_iff_mem]

theorem ScanState.step_number {b : Bracketed} {s : ScanState} {i : Nat} {t : Lexeme}
    (ht : t.kind = .number) : s.step b i t = .one s [s.span b .literal i i] := by
  simp only [step, ht]

namespace Source

variable {name text : String} {t : Token} {i k : Nat} {s : ScanState}

/-- A number behind the first token of a step is held by a fragment that is passed over. -/
theorem passesOver_of_lt_next (h : Boundary (.ofText text) i s)
    (hi : i < (Bracketed.ofText text).lexemes.size)
    (ht : (Source.ofText name text).words[k]? = some t) (hnumber : t.kind = .number) (hik : i < k)
    (hk : k < (s.step (.ofText text) i (Bracketed.ofText text).lexemes[i]).next) :
    (scan name text).passesOver t = true := by
  rcases ScanState.passed_of_lt_next hik hk with hcolon | ⟨kind, last, context, hkind, hnext, hcut⟩
  · -- the colon of an access specifier is no number
    obtain ⟨u, hu, hpunct⟩ := Bracketed.punctAt_iff.1 hcolon
    rw [at?_ofText name, ht] at hu
    obtain rfl := Option.some.inj hu
    simp [Lexeme.isPunct, hnumber] at hpunct
  · obtain ⟨f, hf, rfl, hwindow⟩ := exists_fragment name h hi hcut
    refine Scan.passesOver_eq_true.2 ⟨f, hf, hkind, hwindow.mem_tokens_iff.2 ⟨k, ?_, ?_, ht⟩⟩
    · exact Nat.le_of_lt hik
    · omega

/-- A number at which a step starts is held by no such fragment. -/
theorem not_passesOver (h : Boundary (.ofText text) i s)
    (hi : i < (Bracketed.ofText text).lexemes.size)
    (ht : (Source.ofText name text).words[i]? = some t) (hnumber : t.kind = .number) :
    (scan name text).passesOver t = false := by
  rw [← Bool.not_eq_true, Scan.passesOver_eq_true]
  rintro ⟨f, hf, hpassed, hmem⟩
  obtain ⟨j, r, hj, first, last, hr, hcut, -, hwindow⟩ := exists_step hf (by
    intro hkind
    rw [hkind] at hpassed
    cases hpassed)
  obtain ⟨rfl, hnext⟩ := ScanState.span_of_isPassed hpassed hcut
  obtain ⟨k, hfirst, hlast, hk⟩ := hwindow.mem_tokens_iff.1 hmem
  obtain rfl := words_inj ht hk
  rcases Nat.eq_or_lt_of_le hfirst with rfl | hlt
  · -- the step starts at the number, so it cuts a literal and nothing else
    have hlexeme := (congrArg Lexeme.kind (lexemes_ofText name hj ht)).trans hnumber
    rw [ScanState.step_number hlexeme, Move.one, List.mem_singleton] at hcut
    have hkind : f.kind = .literal := congrArg Cut.kind hcut
    rw [hkind] at hpassed
    cases hpassed
  · have := hr.next_le h hlt hj
    omega

/-! ## The walk beside the tokens -/

theorem shown_literal (ht : (Source.ofText name text).words[i]? = some t) (context : Context) :
    ((Source.ofText name text).fragment? (.span .literal i i context)).map Fragment.shown
      = some t.shown := by
  obtain ⟨hmem, hkind⟩ := mem_tokens_of_words ht
  obtain ⟨hi, heq⟩ := Array.getElem?_eq_some_iff.1 ht
  have htokens : (Source.ofText name text).words.extract i (i + 1) = #[t] := by
    apply Array.ext'
    simp [List.drop_eq_getElem_cons, hi, heq]
  have htext : Text.slice (Source.ofText name text).text t.start.offset t.stop = t.text :=
    slice_token hmem hkind
  simp only [fragment?, ht, bind, Option.bind, pure, Option.map_some, Fragment.shown, htokens,
    htext, Token.shown]

/-- The literals of a scan are located in the order in which they are cut. -/
theorem filter_literal_scan (name text : String) :
    (scan name text).fragments.filter (·.kind == .literal) =
      (((stepsFrom (.ofText text) 0 {}).flatMap (·.2)).filter (·.kind == .literal)).filterMap
        (Source.ofText name text).fragment? := by
  show ((cutsOf _).filterMap _).filter _ = _
  rw [cutsOf, List.filter_filterMap, ← filter_interleave fun _ => rfl, List.filterMap_filter]
  refine List.filterMap_congr fun cut _ => ?_
  cases hf : (Source.ofText name text).fragment? cut with
  | none => simp
  | some f => simp [Option.filter, kind_of_fragment? hf]

end Source

theorem ScanState.literal_cuts {b : Bracketed} {s : ScanState} {i : Nat} {t : Lexeme}
    (ht : b.at? i = some t) : (s.step b i t).cuts.filter (·.kind == .literal) =
      if t.kind = .number then [s.span b .literal i i] else [] := by
  split
  next hnumber =>
    rw [step_number hnumber]
    rfl
  next hnumber =>
    refine List.filter_eq_nil_iff.2 fun cut hcut => ?_
    obtain ⟨kind, first, last, context, rfl, hstep⟩ := CutsOf.step ht cut hcut
    simp only [Cut.kind, beq_iff_eq]
    rintro rfl
    cases hstep with
    | literal hu hkind =>
        obtain rfl := Option.some.inj (ht.symm.trans hu)
        exact hnumber hkind

/-- Of the tokens of a step, the first one alone is seen, and only if it is a number. -/
theorem Source.filter_sees_step {name text : String} {i : Nat} {s : ScanState} {t : Token}
    (h : Boundary (.ofText text) i s) (hi : i < (Bracketed.ofText text).lexemes.size)
    (ht : (Source.ofText name text).words[i]? = some t) :
    ((Source.ofText name text).words.toList.drop i).filter (scan name text).sees =
      (if t.kind = .number then [t] else []) ++
        ((Source.ofText name text).words.toList.drop
          (s.step (.ofText text) i (Bracketed.ofText text).lexemes[i]).next).filter
            (scan name text).sees := by
  obtain ⟨d, hd⟩ := Nat.exists_eq_add_of_le
    (s.step (.ofText text) i (Bracketed.ofText text).lexemes[i]).later
  have hpassed : (((Source.ofText name text).words.toList.drop (i + 1)).take d).filter
      (scan name text).sees = [] := by
    refine List.filter_eq_nil_iff.2 fun u hu => ?_
    rw [Scan.sees, Bool.and_eq_true, beq_iff_eq, Bool.not_eq_true']
    rintro ⟨hnumber, hseen⟩
    obtain ⟨m, hm⟩ := List.mem_iff_getElem?.1 hu
    rw [List.getElem?_take] at hm
    split at hm
    next hlt =>
      rw [List.getElem?_drop, Array.getElem?_toList] at hm
      rw [passesOver_of_lt_next h hi hm hnumber (by omega) (by omega)] at hseen
      cases hseen
    next => cases hm
  have hrest : ((Source.ofText name text).words.toList.drop (i + 1)).filter (scan name text).sees =
      ((Source.ofText name text).words.toList.drop (i + 1 + d)).filter (scan name text).sees := by
    rw [← List.take_append_drop d (List.drop (i + 1) _), List.filter_append, hpassed,
      List.nil_append, List.drop_drop]
  have hfirst : (scan name text).sees t = decide (t.kind = .number) := by
    rw [Scan.sees, beq_eq_decide]
    by_cases hnumber : t.kind = .number
    · rw [not_passesOver h hi ht hnumber, Bool.not_false, Bool.and_true]
    · rw [decide_eq_false hnumber, Bool.false_and]
  have hdrop : (Source.ofText name text).words.toList.drop i =
      t :: (Source.ofText name text).words.toList.drop (i + 1) := by
    rw [← Array.getElem?_toList] at ht
    obtain ⟨hlt, rfl⟩ := List.getElem?_eq_some_iff.1 ht
    exact List.drop_eq_getElem_cons hlt
  rw [hdrop, List.filter_cons, hfirst, hrest, hd]
  by_cases hnumber : t.kind = .number
  · simp only [hnumber, decide_true, if_true, List.singleton_append]
  · simp only [hnumber, decide_false, Bool.false_eq_true, if_false, List.nil_append]

/-- From a boundary on, the literals that are cut show the numbers that are examined. -/
theorem Source.shown_literals_from (name : String) {text : String} {i : Nat} {s : ScanState}
    (h : Boundary (.ofText text) i s) :
    ((((stepsFrom (.ofText text) i s).flatMap (·.2)).filter (·.kind == .literal)).filterMap
        (Source.ofText name text).fragment?).map Fragment.shown =
      (((Source.ofText name text).words.toList.drop i).filter (scan name text).sees).map
        Token.shown := by
  fun_induction stepsFrom (.ofText text) i s with
  | case2 i s hi =>
      have hsize : (Source.ofText name text).words.toList.length ≤ i := by
        have := size_words name text
        rw [Array.length_toList]
        exact Nat.le_trans (Nat.le_of_eq this) (Nat.le_of_not_lt hi)
      rw [List.drop_eq_nil_of_le hsize]
      rfl
  | case1 i s hi move ih =>
      have hlt : i < (Source.ofText name text).words.size := by
        rw [size_words]
        exact hi
      have ht := Array.getElem?_eq_getElem hlt
      rw [filter_sees_step h hi ht, List.map_append, ← ih (h.step hi), List.flatMap_cons,
        List.filter_append, List.filterMap_append, List.map_append,
        ScanState.literal_cuts (Array.getElem?_eq_getElem hi), lexemes_ofText name hi ht]
      congr 1
      split
      next =>
        obtain ⟨f, hf, hshown⟩ := Option.map_eq_some_iff.1
          (shown_literal ht (s.context (.ofText text) i))
        rw [ScanState.span, List.filterMap_cons_some hf]
        simp [hshown]
      next => rfl

/-- In every text, the literals of the scan are the numbers that no label and no attribute group of
the scan holds: each is a fragment of that one token, at its place and with its text, and they come
in the order of the text, none missing and none twice. -/
theorem literal_fragments_eq (name text : String) :
    ((scan name text).fragments.filter (·.kind == .literal)).map Fragment.shown =
      ((tokens text.toList).filter (scan name text).sees).map Token.shown := by
  have hwords : ((Source.ofText name text).words.toList.drop 0).filter (scan name text).sees =
      (tokens text.toList).filter (scan name text).sees := by
    rw [List.drop_zero, Source.words_toList, List.filter_filter]
    refine List.filter_congr fun t _ => ?_
    rw [Scan.sees]
    cases hkind : t.kind <;> simp
  rw [Source.filter_literal_scan, Source.shown_literals_from name .start, hwords]

/-- The number of a case label and the number in an attribute are not cut. -/
theorem numbers_passed_over :
    ((∃ t ∈ tokens "void f(int n) \x7b switch (n) \x7b case 42uz: return; \x7d \x7d".toList,
        t.kind = .number ∧ t.text = "42uz") ∧
      ∀ f ∈ (scan "a.cpp"
        "void f(int n) \x7b switch (n) \x7b case 42uz: return; \x7d \x7d").fragments,
        f.kind ≠ .literal) ∧
    (∃ t ∈ tokens "void f(int n) \x7b [[assume(n > 5uz)]]; \x7d".toList,
        t.kind = .number ∧ t.text = "5uz") ∧
      ∀ f ∈ (scan "a.cpp" "void f(int n) \x7b [[assume(n > 5uz)]]; \x7d").fragments,
        f.kind ≠ .literal := by
  refine ⟨⟨by decide +kernel, ?_⟩, by decide +kernel, ?_⟩
  all_goals
    rw [scan_fragments_eq (by decide +kernel)]
    decide +kernel

end CxxFloor
