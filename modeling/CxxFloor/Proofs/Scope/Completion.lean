/-
# What a walk ends with

Behind the last token no bracket is open.  If that token is a semicolon, the
last step was its own, so it ended a statement and another one is about to
start (`Boundary.at_end`).  What was announced and never came, such as a
parenthesis inside a skipped attribute, stands in the file all the same
(`Boundary.announced_lt`).
-/
import CxxFloor.Proofs.Scope.Range

namespace CxxFloor

/-! ## Announced indices -/

/-- Everything the walk has announced stands before index `n`. -/
structure ScanState.AnnouncedBefore (n : Nat) (s : ScanState) : Prop where
  bodies : ∀ body ∈ s.lambdaBodies, body.opener < n
  constants : ∀ o ∈ s.constantOpeners, o < n
  parameters : ∀ o ∈ s.lambdaParameters, o < n

namespace ScanState.AnnouncedBefore

variable {b : Bracketed} {s s' : ScanState} {i n : Nat}

/-- The announcements are kept. -/
theorem keep (h : s.AnnouncedBefore n) (hbodies : s'.lambdaBodies = s.lambdaBodies)
    (hconstants : s'.constantOpeners = s.constantOpeners)
    (hparameters : s'.lambdaParameters = s.lambdaParameters) : s'.AnnouncedBefore n where
  bodies := hbodies ▸ h.bodies
  constants := hconstants ▸ h.constants
  parameters := hparameters ▸ h.parameters

theorem openGroup (h : s.AnnouncedBefore n) (constant : Bool) :
    (s.openGroup b i constant).AnnouncedBefore n := by
  unfold ScanState.openGroup
  split <;> exact h.keep rfl rfl rfl

theorem closeGroup (h : s.AnnouncedBefore n) : (s.closeGroup b i).AnnouncedBefore n := by
  unfold ScanState.closeGroup
  split <;> exact h.keep rfl rfl rfl

theorem endStatement (h : s.AnnouncedBefore n) : (s.endStatement b i).1.AnnouncedBefore n := by
  unfold ScanState.endStatement ScanState.noteForward
  repeat' split
  all_goals exact h.keep rfl rfl rfl

theorem openBrace (h : s.AnnouncedBefore n) : (s.openBrace b i).1.AnnouncedBefore n := by
  unfold ScanState.openBrace
  split
  · exact h
  split
  next body hbody =>
    refine ⟨?_, h.constants, h.parameters⟩
    intro body' hbody'
    exact h.bodies body' (List.mem_filter.1 hbody').1
  next =>
    split
    · exact h.openGroup false
    dsimp only
    split
    · exact h.openGroup _
    · exact h.keep rfl rfl rfl

theorem closeScope (h : s.AnnouncedBefore n) (opener : Nat) :
    (s.closeScope i opener).AnnouncedBefore n := by
  unfold ScanState.closeScope
  dsimp only
  split
  · exact h
  · split <;> exact h.keep rfl rfl rfl

theorem closeBrace (h : s.AnnouncedBefore n) : (s.closeBrace b i).AnnouncedBefore n := by
  unfold ScanState.closeBrace
  split
  · split <;> exact h.keep rfl rfl rfl
  · split
    · exact h.closeGroup
    · have h' : ({ s with groups := [] } : ScanState).AnnouncedBefore n := h.keep rfl rfl rfl
      exact h'.closeScope _

theorem punctuatorStep (h : s.AnnouncedBefore n) (text : String) :
    (s.punctuatorStep b i text).1.AnnouncedBefore n := by
  unfold ScanState.punctuatorStep
  split
  · exact h.openGroup false
  split
  · exact h.closeGroup
  split
  · exact h.openBrace
  split
  · exact h.closeBrace
  split
  · exact h.endStatement
  · exact h

/-! ### What announces -/

theorem lambdaAhead_parameters_lt {enclosing : Scope} {o : Nat}
    (h : (b.lambdaAhead enclosing i).parameters = some o) : o < b.size := by
  unfold Bracketed.lambdaAhead at h
  split at h
  · cases h
  split at h
  · cases h
  split at h
  next hopen =>
    split at h
    · cases h
    · cases h
      exact Bracketed.lt_size_of_punctAt hopen
  next => cases h

theorem lambdaAhead_body_lt (hb : b.Nested) {enclosing body : Scope}
    (h : (b.lambdaAhead enclosing i).body = some body) : body.opener < b.size := by
  obtain ⟨close, -, -, hclosed⟩ := CutsOf.lambdaAhead_body h
  obtain ⟨c, hc⟩ := Option.isSome_iff_exists.1 hclosed
  exact Nat.lt_trans (Pairing.lt_of_closer? hc) (hb.closer?_lt_size hc)

theorem noteLambda (h : s.AnnouncedBefore b.size) (hb : b.Nested) :
    (s.noteLambda b i).1.AnnouncedBefore b.size := by
  unfold ScanState.noteLambda
  split
  · have hparameters : ∀ o ∈ (b.lambdaAhead s.scope i).parameters.toList ++ s.lambdaParameters,
        o < b.size := by
      intro o ho
      rcases List.mem_append.1 ho with ho | ho
      · exact lambdaAhead_parameters_lt (Option.mem_toList.1 ho)
      · exact h.parameters o ho
    dsimp only
    split
    next body hbody =>
      refine ⟨?_, h.constants, hparameters⟩
      intro body' hbody'
      rcases List.mem_cons.1 hbody' with rfl | hbody'
      · exact lambdaAhead_body_lt hb hbody
      · exact h.bodies body' hbody'
    next => exact ⟨h.bodies, h.constants, hparameters⟩
  · exact h

theorem announce (h : s.AnnouncedBefore n) {o : Nat} (ho : o < n) :
    ({ s with constantOpeners := o :: s.constantOpeners } : ScanState).AnnouncedBefore n := by
  refine ⟨h.bodies, ?_, h.parameters⟩
  intro o' ho'
  rcases List.mem_cons.1 ho' with rfl | ho'
  · exact ho
  · exact h.constants o' ho'

theorem punctAt_of_branchEnd {o : Nat} (h : (branchEnd b i).2 = some o) :
    b.punctAt o "(" = true := by
  unfold branchEnd at h
  split at h
  · cases h
  split at h
  · split at h
    next hopen =>
      cases h
      exact hopen
    next => cases h
  split at h <;> cases h

theorem wordCuts (h : s.AnnouncedBefore b.size) (text : String) :
    (s.wordCuts b i text).1.AnnouncedBefore b.size := by
  unfold ScanState.wordCuts
  dsimp only
  split
  · split
    next close hclose =>
      refine h.announce (Bracketed.lt_size_of_punctAt (s := "(") ?_)
      unfold Bracketed.roundEnd? at hclose
      split at hclose
      next hopen => exact hopen
      next => cases hclose
    next => exact h
  split
  · split <;> exact h
  split
  · split
    next hopen => exact h.announce (Bracketed.lt_size_of_punctAt hopen)
    next => exact h
  split
  · split
    next opener hopener =>
      exact h.announce (Bracketed.lt_size_of_punctAt (punctAt_of_branchEnd hopener))
    next => exact h
  repeat' split
  all_goals exact h

theorem step (h : s.AnnouncedBefore b.size) (hb : b.Nested) (t : Lexeme) :
    (s.step b i t).state.AnnouncedBefore b.size := by
  unfold ScanState.step
  cases t.kind with
  | word =>
      dsimp only
      unfold ScanState.wordStep
      split
      · exact h.keep rfl rfl rfl
      · split
        · exact h.keep rfl rfl rfl
        · exact h.wordCuts t.text
  | punctuator =>
      dsimp only
      split
      · unfold ScanState.squareStep
        split
        · exact h
        · exact (h.noteLambda hb).openGroup _
      · exact h.punctuatorStep t.text
  | number | string | character | directive => exact h

end ScanState.AnnouncedBefore

theorem Boundary.announced_lt {b : Bracketed} {i : Nat} {s : ScanState} (h : Boundary b i s)
    (hb : b.Nested) : s.AnnouncedBefore b.size := by
  induction h with
  | start => exact ⟨by simp, by simp, by simp⟩
  | step h hi ih => exact ih.step hb _

/-! ## The last step -/

namespace ScanState

variable {b : Bracketed} {s : ScanState} {i : Nat}

/-- A step goes on with the next token, behind a colon or behind a group. -/
theorem step_next (b : Bracketed) (s : ScanState) (i : Nat) (t : Lexeme) :
    (s.step b i t).next = i + 1 ∨
    ∃ last, (s.step b i t).next = last + 1 ∧
      (b.punctAt last ":" = true ∨ ∃ o, b.closer? o = some last) := by
  unfold step
  cases t.kind with
  | word =>
      dsimp only
      unfold wordStep
      split
      next haccess =>
        rw [Bool.and_eq_true] at haccess
        exact Or.inr ⟨i + 1, rfl, Or.inl haccess.2⟩
      split
      next colon hcolon =>
        refine Or.inr ⟨colon, rfl, Or.inl ?_⟩
        unfold labelEnd? at hcolon
        split at hcolon
        · exact Bracketed.punctAt_of_labelEnd? hcolon
        · cases hcolon
      next => exact Or.inl rfl
  | punctuator =>
      dsimp only
      split
      · unfold squareStep
        split
        next close hclose =>
          exact Or.inr ⟨close, rfl, Or.inr ⟨i, Bracketed.closer?_of_attributeEnd? hclose⟩⟩
        next => exact Or.inl rfl
      · exact Or.inl rfl
  | number | string | character | directive => exact Or.inl rfl

theorem eq_of_step_next (hb : b.Nested) (hlast : b.punctAt (b.size - 1) ";" = true) {t : Lexeme}
    (hnext : (s.step b i t).next = b.size) : i + 1 = b.size := by
  rcases step_next b s i t with hone | ⟨last, hjump, hcase⟩
  · omega
  have hsemicolon : b.punctAt last ";" = true := by
    rwa [show last = b.size - 1 by omega]
  rcases hcase with hcolon | ⟨o, ho⟩
  · have hno : b.punctAt last ";" = false := Bracketed.punctAt_unique hcolon (by decide)
    rw [hsemicolon] at hno
    cases hno
  · have hpartner := hb.partner_symm (Bracketed.partner?_of_closer? ho)
    rw [hb.partner?_of_punctAt hsemicolon (by decide)] at hpartner
    cases hpartner

theorem step_semicolon {t : Lexeme} (ht : t.isPunct ";" = true) :
    (s.step b i t).state = if s.atTop then (s.endStatement b i).1 else s := by
  simp only [Lexeme.isPunct, Bool.and_eq_true, beq_iff_eq] at ht
  cases htop : s.atTop <;>
    simp [step, ht.1, ht.2, punctuatorStep, htop, Move.one]

theorem head_endStatement : (s.endStatement b i).1.head = i + 1 := by
  unfold endStatement
  split <;> rfl

end ScanState

namespace Boundary

variable {b : Bracketed} {s : ScanState}

theorem zero_or_step {j : Nat} (h : Boundary b j s) : j = 0 ∨
    ∃ (i : Nat) (r : ScanState) (hi : i < b.lexemes.size), Boundary b i r ∧
      j = (r.step b i b.lexemes[i]).next ∧ s = (r.step b i b.lexemes[i]).state := by
  cases h with
  | start => exact Or.inl rfl
  | step h hi => exact Or.inr ⟨_, _, hi, h, rfl, rfl⟩

/-- Behind the semicolon at the end nothing is open, and a statement is about to start. -/
theorem at_end (h : Boundary b b.size s) (hb : b.Nested)
    (hlast : b.punctAt (b.size - 1) ";" = true) :
    s.scopes = [] ∧ s.groups = [] ∧ s.head = b.size := by
  have hopeners : s.openers = [] := (h.aligned hb).openers_eq.trans hb.openAt_size
  obtain ⟨hscopes, hgroups⟩ := Aligned.empty_of_openers hopeners
  refine ⟨hscopes, hgroups, ?_⟩
  have hpos : 0 < b.size := by
    have := Bracketed.lt_size_of_punctAt hlast
    omega
  rcases h.zero_or_step with hzero | ⟨i, r, hi, hr, hnext, rfl⟩
  · omega
  have hi' : i = b.size - 1 := by
    have := ScanState.eq_of_step_next hb hlast hnext.symm
    omega
  subst hi'
  obtain ⟨t, ht, hsemicolon⟩ := Bracketed.punctAt_iff.1 hlast
  obtain ⟨_, hlexeme⟩ := Array.getElem?_eq_some_iff.1 ht
  rw [hlexeme, ScanState.step_semicolon hsemicolon] at hgroups ⊢
  cases htop : r.atTop with
  | true =>
      rw [if_pos rfl, ScanState.head_endStatement]
      omega
  | false =>
      rw [htop, if_neg Bool.false_ne_true] at hgroups
      rw [ScanState.atTop, hgroups] at htop
      cases htop

theorem getLast?_stepsFrom {i : Nat} (h : Boundary b i s) (hb : b.Nested)
    (hlast : b.punctAt (b.size - 1) ";" = true) (hi : i < b.size) :
    ∃ cuts, (stepsFrom b i s).getLast? = some (b.size - 1, cuts) := by
  fun_induction stepsFrom b i s with
  | case1 i s hi move ih =>
      have hle : move.next ≤ b.size := ((h.step hi).aligned hb).le_size
      rcases Nat.lt_or_eq_of_le hle with hlt | heq
      · obtain ⟨cuts, hcuts⟩ := ih (h.step hi) hlt
        exact ⟨cuts, by rw [List.getLast?_cons, hcuts]; rfl⟩
      · have hi' := ScanState.eq_of_step_next hb hlast heq
        have hnil : stepsFrom b move.next move.state = [] := by
          rw [stepsFrom, dif_neg]
          rw [heq]
          exact Nat.lt_irrefl _
        exact ⟨move.cuts, by rw [hnil, ← hi']; rfl⟩
  | case2 i s hi' => exact absurd hi hi'

end Boundary

end CxxFloor
