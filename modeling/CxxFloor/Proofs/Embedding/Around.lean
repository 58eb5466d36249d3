/-
# What is read around a token

At some tokens the walk reads on or back without a bound: from a `case` to its
colon, from a square bracket to the body of its lambda, from an `auto` back to
an arrow.  Every such reading stops at a semicolon.  Reading on, it therefore
stays inside the file or stops at its last token, and reading back, it comes
to the first token of the file, a word, or finds the semicolon before it,
which answers like the start of a file.
-/
import CxxFloor.Proofs.Embedding.Head

namespace CxxFloor

def Group.shift (d : Nat) (group : Group) : Group := { group with opener := d + group.opener }

def Resume.shift (d : Nat) (resume : Resume) : Resume :=
  ⟨resume.groups.map (Group.shift d), d + resume.head⟩

def Scope.shift (d : Nat) (scope : Scope) : Scope :=
  { scope with opener := d + scope.opener, resume := scope.resume.map (Resume.shift d) }

@[simp] theorem Scope.resume_shift (d : Nat) (scope : Scope) :
    (scope.shift d).resume = scope.resume.map (Resume.shift d) := rfl

def LambdaAhead.shift (d : Nat) (ahead : LambdaAhead) : LambdaAhead :=
  ⟨ahead.parameters.map (d + ·), ahead.body.map (Scope.shift d)⟩

namespace Bracketed

theorem caseEnd?_def (b : Bracketed) (j : Nat) :
    b.caseEnd? j =
      if j < b.size then
        if b.punctAt j ":" then some j
        else
          match b.operandEnd? j with
          | some c => b.caseEnd? (c + 1)
          | none => if b.punctInAt j [";", "\x7b", "\x7d"] then none else b.caseEnd? (j + 1)
      else none := by
  rw [caseEnd?]
  split
  · split
    · rfl
    · split
      next hc => rw [hc]
      next hc => rw [hc]
  · rfl

theorem punctAt_of_lambdaBody? {b : Bracketed} {steps j : Nat} {arrow constant : Bool}
    {r : Nat × Bool} (h : b.lambdaBody? steps j arrow constant = some r) :
    b.punctAt r.1 "\x7b" = true := by
  induction steps generalizing j arrow constant with
  | zero => cases h
  | succ steps ih =>
      unfold lambdaBody? at h
      split at h
      · cases h
      next t ht =>
        split at h
        next hbrace =>
          cases h
          exact punctAt_iff.2 ⟨t, ht, hbrace⟩
        split at h
        · split at h
          · exact ih h
          split at h
          · exact ih h
          split at h
          · cases h
          split at h
          · cases h
          · exact ih h
        split at h
        · exact ih h
        · cases h

namespace Embeds

variable {b b' : Bracketed} {d i j k : Nat}

/-! ## Labels -/

theorem caseEnd?_eq (h : b.Embeds b' d) (hj : b.Visible b' d j) :
    b'.caseEnd? (d + j) = (b.caseEnd? j).map (d + ·) := by
  fun_induction caseEnd? b j with
  | case1 j hlt hcolon =>
      rw [caseEnd?_def, if_pos (h.lt_size hlt), h.punctAt_eq hj, if_pos hcolon]
      rfl
  | case2 j hlt hcolon c hc ih =>
      have hnext := h.visible_succ_of_closer (closer?_of_operandEnd? hc)
      rw [caseEnd?_def, if_pos (h.lt_size hlt), h.punctAt_eq hj, if_neg hcolon,
        h.operandEnd?_eq hj, hc]
      exact ih hnext
  | case3 j hlt hcolon hc hend =>
      rw [caseEnd?_def, if_pos (h.lt_size hlt), h.punctAt_eq hj, if_neg hcolon,
        h.operandEnd?_eq hj, hc]
      simp [h.punctInAt_eq hj, hend]
  | case4 j hlt hcolon hc hend ih =>
      have hnext : b.Visible b' d (j + 1) :=
        h.visible_succ hj (punctAt_eq_false (Bool.eq_false_iff.2 hend) (by simp))
      rw [caseEnd?_def, if_pos (h.lt_size hlt), h.punctAt_eq hj, if_neg hcolon,
        h.operandEnd?_eq hj, hc]
      simp only [Option.map_none, h.punctInAt_eq hj, hend, Bool.false_eq_true, if_false]
      exact ih hnext
  | case5 j hge =>
      rw [caseEnd?, if_neg (h.not_lt_size hj hge)]
      rfl

theorem labelEnd?_eq (h : b.Embeds b' d) (hname : b.nameAt i = true) :
    b'.labelEnd? (d + i) = (b.labelEnd? i).map (d + ·) := by
  have hi : b.Visible b' d i := Or.inl (lt_size_of_any hname)
  have hnext : b.Visible b' d (i + 1) := h.visible_succ_of_name hname
  unfold labelEnd?
  rw [h.wordAt_eq hi, h.wordAt_eq hi, h.wordInAt_eq hi, Nat.add_assoc, h.punctAt_eq hnext,
    h.caseEnd?_eq hnext]
  repeat' split
  all_goals rfl

/-! ## Branches -/

theorem branchEnd_eq (h : b.Embeds b' d) (hname : b.nameAt i = true) :
    ScanState.branchEnd b' (d + i) =
      (d + (ScanState.branchEnd b i).1, (ScanState.branchEnd b i).2.map (d + ·)) := by
  have hnext : b.Visible b' d (i + 1) := h.visible_succ_of_name hname
  unfold ScanState.branchEnd
  rw [Nat.add_assoc, Nat.add_assoc, h.punctAt_eq hnext, h.wordAt_eq hnext, h.textInAt_eq hnext,
    h.textInAt_eq hnext]
  split
  next hnot =>
    have hsecond : b.Visible b' d (i + 2) := by
      rcases Bool.or_eq_true_iff.1 hnot with hbang | hword
      · exact h.visible_succ_of_punctAt hbang (by decide)
      · exact h.visible_succ_of_wordAt hword
    rw [h.wordAt_eq hsecond]
    split <;> rfl
  split
  next hconstexpr =>
    have hsecond : b.Visible b' d (i + 2) := h.visible_succ_of_textInAt hconstexpr (by decide)
    rw [h.punctAt_eq hsecond]
    split <;> rfl
  split <;> rfl

/-! ## Back over the start -/

theorem punctAt_zero (h : b.Embeds b' d) (s : String) : b.punctAt 0 s = false := by
  refine Bool.eq_false_iff.2 ?_
  intro hp
  obtain ⟨t, ht, hname⟩ := (Option.any_eq_true _ _).1 (h.first (lt_size_of_punctAt hp))
  obtain ⟨u, hu, hpunct⟩ := punctAt_iff.1 hp
  rw [ht] at hu
  cases hu
  simp only [Lexeme.isName, Lexeme.isPunct, Bool.and_eq_true, beq_iff_eq] at hname hpunct
  rw [hname] at hpunct
  cases hpunct.1

theorem exists_before (h : b.Embeds b' (d + 1)) :
    ∃ t, b'.at? d = some t ∧ t.kind = .punctuator ∧ t.text = ";" := by
  have hp : b'.punctAt d ";" = true := h.before.resolve_left (Nat.succ_ne_zero d)
  obtain ⟨t, ht, hpunct⟩ := punctAt_iff.1 hp
  simp only [Lexeme.isPunct, Bool.and_eq_true, beq_iff_eq] at hpunct
  exact ⟨t, ht, hpunct⟩

/-- Neither a name nor a punctuator other than the semicolon stands before the first lexeme. -/
theorem nameAt_before (h : b.Embeds b' (d + 1)) : b'.nameAt d = false := by
  obtain ⟨t, ht, hkind, -⟩ := h.exists_before
  simp [nameAt, ht, Lexeme.isName, hkind]

theorem punctAt_before (h : b.Embeds b' (d + 1)) {s : String} (hs : s ≠ ";") :
    b'.punctAt d s = false := by
  obtain ⟨t, ht, hkind, htext⟩ := h.exists_before
  simp [punctAt, ht, Lexeme.isPunct, htext, Ne.symm hs]

theorem punctInAt_before (h : b.Embeds b' (d + 1)) {ss : List String} (hs : ";" ∉ ss) :
    b'.punctInAt d ss = false := by
  obtain ⟨t, ht, hkind, htext⟩ := h.exists_before
  simp [punctInAt, ht, Lexeme.isPunctIn, htext, hs]

theorem visible_of_le (hi : b.Visible b' d i) (hji : j ≤ i) : b.Visible b' d j :=
  hi.imp (Nat.lt_of_le_of_lt hji) id

theorem followsArrow_eq (h : b.Embeds b' d) (hk : b.Visible b' d k) (depth : Nat) :
    b'.followsArrow (d + k) depth = b.followsArrow k depth := by
  induction k generalizing depth with
  | zero =>
      cases d with
      | zero => cases depth <;> rfl
      | succ d =>
          obtain ⟨t, ht, hkind, htext⟩ := h.exists_before
          cases depth with
          | zero => simp [followsArrow, nameAt, punctAt, ht, Lexeme.isName, Lexeme.isPunct, hkind, htext]
          | succ depth =>
              simp [followsArrow, punctAt, punctInAt, ht, Lexeme.isPunct, Lexeme.isPunctIn, hkind,
                htext]
  | succ k ih =>
      have hlast : b.Visible b' d k := visible_of_le hk (Nat.le_succ k)
      rw [← Nat.add_assoc]
      cases depth with
      | zero =>
          rw [followsArrow, followsArrow, h.nameAt_eq hlast, h.punctAt_eq hlast, h.punctAt_eq hlast,
            h.punctAt_eq hlast, ih hlast, ih hlast]
      | succ depth =>
          rw [followsArrow, followsArrow, h.punctAt_eq hlast, h.punctAt_eq hlast,
            h.punctInAt_eq hlast, ih hlast, ih hlast, ih hlast]

theorem bindsStructure_eq (h : b.Embeds b' d) (hk : b.Visible b' d k) :
    b'.bindsStructure (d + k) = b.bindsStructure k := by
  induction k with
  | zero =>
      cases d with
      | zero => rfl
      | succ d =>
          obtain ⟨t, ht, hkind, htext⟩ := h.exists_before
          simp [bindsStructure, wordAt, wordInAt, punctInAt, ht, Lexeme.isWord, Lexeme.isWordIn,
            Lexeme.isPunctIn, hkind, htext]
  | succ k ih =>
      have hlast : b.Visible b' d k := visible_of_le hk (Nat.le_succ k)
      rw [← Nat.add_assoc, bindsStructure, bindsStructure, h.punctInAt_eq hlast,
        h.wordInAt_eq hlast, h.wordAt_eq hlast, ih hlast]

theorem partner?_zero (h : b.Embeds b' d) : b.pairs.partner? 0 = none := by
  cases hp : b.pairs.partner? 0 with
  | none => rfl
  | some j =>
      obtain ⟨k, hk | hk⟩ := h.nested.bracket_of_partner hp
      · have hpunct := punctAt_of_opensAt hk
        rw [h.punctAt_zero] at hpunct
        cases hpunct
      · have hpunct := punctAt_of_closesAt hk
        rw [h.punctAt_zero] at hpunct
        cases hpunct

theorem introducesLambda_eq (h : b.Embeds b' d) (hi : b.Visible b' d i) :
    b'.introducesLambda (d + i) = b.introducesLambda i := by
  unfold introducesLambda
  rw [h.isSome_partner? hi, h.bindsStructure_eq hi]
  rcases Nat.eq_zero_or_pos i with rfl | hpos
  · simp [h.partner?_zero]
  · have hbefore : b.Visible b' d (i - 1) := visible_of_le hi (Nat.sub_le i 1)
    have hpos' : 0 < d + i := by omega
    rw [Nat.add_sub_assoc hpos, h.at?_eq hbefore]
    simp only [hpos, hpos']

/-! ## Lambdas -/

theorem lambdaBody?_eq (h : b.Embeds b' d) (hj : b.Visible b' d j) (steps : Nat)
    (arrow constant : Bool) : b'.lambdaBody? steps (d + j) arrow constant =
      (b.lambdaBody? steps j arrow constant).map fun r => (d + r.1, r.2) := by
  induction steps generalizing j arrow constant with
  | zero => rfl
  | succ steps ih =>
      unfold lambdaBody?
      rw [h.at?_eq hj]
      cases ht : b.at? j with
      | none => rfl
      | some t =>
          simp only
          by_cases hbrace : t.isPunct "\x7b" = true
          · rw [if_pos hbrace, if_pos hbrace]
            rfl
          rw [if_neg hbrace, if_neg hbrace, h.operandEnd?_eq hj]
          by_cases hkind : (t.kind == .punctuator) = true
          · rw [if_pos hkind, if_pos hkind]
            cases hc : b.operandEnd? j with
            | some c =>
                have hnext := h.visible_succ_of_closer (closer?_of_operandEnd? hc)
                exact ih hnext arrow constant
            | none =>
                simp only [Option.map_none]
                by_cases harrow : t.isPunct "->" = true
                · have hnext : b.Visible b' d (j + 1) :=
                    h.visible_succ_of_punctAt (punctAt_iff.2 ⟨t, ht, harrow⟩) (by decide)
                  rw [if_pos harrow, if_pos harrow]
                  exact ih hnext true constant
                rw [if_neg harrow, if_neg harrow]
                by_cases hend : t.isPunctIn [";", ")", "]", "\x7d", "="] = true
                · rw [if_pos hend, if_pos hend]
                  rfl
                rw [if_neg hend, if_neg hend]
                split
                · rfl
                · have hstops : b.punctInAt j [";", ")", "]", "\x7d", "="] = false := by
                    rw [punctInAt, ht]
                    exact Bool.eq_false_iff.2 hend
                  have hnext : b.Visible b' d (j + 1) :=
                    h.visible_succ hj (punctAt_eq_false hstops (by simp))
                  exact ih hnext arrow constant
          rw [if_neg hkind, if_neg hkind]
          split
          next hname =>
            have hnext : b.Visible b' d (j + 1) := by
              refine h.visible_succ_of_name ?_
              rw [nameAt, ht]
              exact hname
            exact ih hnext arrow _
          next => rfl

theorem nextPunctIn_eq (h : b.Embeds b' d) (hsize : d + b.size = b'.size) (j : Nat)
    (ss : List String) : b'.nextPunctIn (d + j) ss = d + b.nextPunctIn j ss := by
  unfold nextPunctIn
  have hlength : b'.size - (d + j) = b.size - j := by omega
  have hmax : max (d + j) b'.size = d + max j b.size := by omega
  rw [hlength, hmax, ← List.map_add_range', List.find?_map]
  have hsame : ((fun k => b'.punctInAt k ss) ∘ (d + ·)) = fun k => b.punctInAt k ss :=
    funext fun k => h.punctInAt_eq (Or.inr hsize) ss
  rw [hsame]
  cases (List.range' j (b.size - j)).find? fun k => b.punctInAt k ss <;> rfl

/-- No constraint is looked for unless both files end alike. -/
theorem size_eq_of_requires (h : b.Embeds b' d) (hword : b.wordAt i "requires" = true) :
    d + b.size = b'.size := by
  refine h.behind.resolve_right ?_
  intro hclosed
  rw [hclosed.unconstrained] at hword
  cases hword

theorem lambdaTemplate?_eq (h : b.Embeds b' d) (hj : b.Visible b' d j) :
    b'.lambdaTemplate? (d + j) = (b.lambdaTemplate? j).map fun r => (d + r.1, r.2) := by
  unfold lambdaTemplate?
  rw [h.punctAt_eq hj]
  split
  next hopen =>
    rw [h.angleEnd?_eq hj]
    cases hc : b.angleEnd? j with
    | none => rfl
    | some c =>
        have hclose := punctAt_of_angleFrom? hc
        have hnext : b.Visible b' d (c + 1) := h.visible_succ_of_punctAt hclose (by decide)
        have hnames : b'.between (d + (j + 1)) (d + c) = b.between (j + 1) c :=
          h.between_eq (Nat.le_of_lt (lt_size_of_punctAt hclose))
        simp only [Option.map_some, Nat.add_assoc, h.wordAt_eq hnext, hnames]
        split
        next hrequires => rw [h.nextPunctIn_eq (h.size_eq_of_requires hrequires)]
        next => rfl
  next => rfl

theorem visible_of_lambdaTemplate? (h : b.Embeds b' d) (hj : b.Visible b' d j)
    {names? : Option (List String)} (hk : b.lambdaTemplate? j = some (k, names?)) :
    b.Visible b' d k := by
  unfold lambdaTemplate? at hk
  split at hk
  · split at hk
    · cases hk
    next c hc =>
      cases hk
      split
      next hrequires => exact Or.inr (h.size_eq_of_requires hrequires)
      next => exact h.visible_succ_of_punctAt (punctAt_of_angleFrom? hc) (by decide)
  · cases hk
    exact hj

section Ahead

variable (h : b.Embeds b' d) {enclosing enclosing' : Scope}
  (htemplate : enclosing'.template = enclosing.template)
  (hnames : enclosing'.templateNames = enclosing.templateNames)
include h htemplate hnames

theorem lambdaAhead_finish_eq (hj : b.Visible b' d j) (template : Bool)
    (names? : Option (List String)) :
    lambdaAhead.finish b' enclosing' (d + j) template names? =
      (lambdaAhead.finish b enclosing j template names?).map (Scope.shift d) := by
  unfold lambdaAhead.finish
  rw [h.lambdaBody?_eq hj]
  cases hbody : b.lambdaBody? maxLambdaSpecifiers j false false with
  | none => rfl
  | some r =>
      have hr : b.Visible b' d r.1 := Or.inl (lt_size_of_punctAt (punctAt_of_lambdaBody? hbody))
      simp only [Option.map_some, h.closer?_eq hr, Option.isSome_map, htemplate, hnames]
      split <;> rfl

theorem lambdaAhead_eq (hi : b.Visible b' d i) :
    b'.lambdaAhead enclosing' (d + i) = (b.lambdaAhead enclosing i).shift d := by
  unfold lambdaAhead
  rw [h.partner?_eq hi]
  cases hclose : b.pairs.partner? i with
  | none => rfl
  | some close =>
      have hnext := h.visible_succ_of_partner (h.nested.partner_symm hclose)
      simp only [Option.map_some, Nat.add_assoc]
      rw [h.lambdaTemplate?_eq hnext]
      cases hj : b.lambdaTemplate? (close + 1) with
      | none => rfl
      | some r =>
          obtain ⟨j, names?⟩ := r
          have hj' : b.Visible b' d j := h.visible_of_lambdaTemplate? hnext hj
          simp only [Option.map_some]
          rw [h.punctAt_eq hj', h.closer?_eq hj']
          split
          next hopen =>
            cases hc : b.closer? j with
            | none => rfl
            | some c =>
                have hbehind := h.visible_succ_of_closer hc
                have hbetween : b'.between (d + (j + 1)) (d + c) = b.between (j + 1) c :=
                  h.between_eq (Nat.le_of_lt (h.nested.closer?_lt_size hc))
                simp only [Option.map_some, Nat.add_assoc, hbetween,
                  h.lambdaAhead_finish_eq htemplate hnames hbehind]
                rfl
          next =>
            rw [h.lambdaAhead_finish_eq htemplate hnames hj']
            rfl

end Ahead

/-! ## Parameters -/

theorem free_eq (h : b.Embeds b' d) {ks : List Nat} (hks : ∀ k ∈ ks, k < b.size) (angles : Nat) :
    b'.free angles (ks.map (d + ·)) = b.free angles ks := by
  induction ks generalizing angles with
  | nil => rfl
  | cons k ks ih =>
      have hk : b.Visible b' d k := Or.inl (hks k List.mem_cons_self)
      have ih' := ih fun k hk => hks k (List.mem_cons_of_mem _ hk)
      rw [List.map_cons, free, free, h.punctAt_eq hk, h.punctAt_eq hk, h.punctAt_eq hk, ih', ih',
        ih']
      rcases Nat.eq_zero_or_pos k with rfl | hpos
      · simp [h.punctAt_zero]
      · have hbefore : b.Visible b' d (k - 1) := visible_of_le hk (Nat.sub_le k 1)
        have hne : ¬ d + k = 0 := by omega
        have hne' : ¬ k = 0 := by omega
        have hpos' : 0 < d + k := by omega
        have hoperator : b'.operatorBefore (d + k) = b.operatorBefore k := by
          rw [operatorBefore, operatorBefore, if_neg hne, if_neg hne', Nat.add_sub_assoc hpos,
            h.wordAt_eq hbefore]
        rw [Nat.add_sub_assoc hpos, h.nameAt_eq hbefore, hoperator]
        simp only [hpos, hpos']

theorem opensParameters_eq (h : b.Embeds b' d) {head opener : Nat} (hopener : opener ≤ b.size) :
    b'.opensParameters (d + head) (d + opener) = b.opensParameters head opener := by
  unfold opensParameters
  by_cases hlt : head < opener
  · have hbefore : b.Visible b' d (opener - 1) := Or.inl (by omega)
    have hlist : ∀ k ∈ b.topLevel head opener, k < b.size := by
      intro k hk
      exact Nat.lt_of_lt_of_le (mem_topLevel hk).2 hopener
    have hfree := h.free_eq hlist 0
    rw [Nat.add_sub_assoc (by omega), h.nameAt_eq hbefore, h.punctAt_eq hbefore,
      h.textInAt_eq hbefore, h.topLevel_eq hopener, hfree]
    simp
  · simp [hlt]

end Embeds

end Bracketed

end CxxFloor
