/-
# Between the steps of a walk

A boundary is an index at which the walk stops between two steps, with what it
remembers there (`Boundary`).  A statement about every boundary is proved by
one case for the start and one for the step; a statement about every cut
follows from it, since each cut is made by a step from a boundary
(`Boundary.of_mem_stepsFrom`).  A walk comes to an index in one state only
(`Boundary.unique`), so a boundary can be spoken of by its index, and what one
step leaves behind can be followed to every later one (`Boundary.of_later`).
-/
import CxxFloor.Scope.Walk
import CxxFloor.Token.Stream

namespace CxxFloor

/-- The tokens of a text that are no preprocessor lines, with the table of their brackets: what
the walk over the text reads. -/
def Bracketed.ofText (text : String) : Bracketed :=
  (Sheet.ofLexemes ((tokens text.toList).map (·.toLexeme))).bracketed

/-- The walk over `b` comes to index `i` and remembers `s` there. -/
inductive Boundary (b : Bracketed) : Nat → ScanState → Prop
  | start : Boundary b 0 {}
  | step {i : Nat} {s : ScanState} (h : Boundary b i s) (hi : i < b.lexemes.size) :
      Boundary b (s.step b i b.lexemes[i]).next (s.step b i b.lexemes[i]).state

namespace Boundary

variable {b : Bracketed}

theorem of_mem_stepsFrom {i : Nat} {s : ScanState} (h : Boundary b i s) :
    ∀ e ∈ stepsFrom b i s, ∃ (s' : ScanState) (hi : e.1 < b.lexemes.size),
      Boundary b e.1 s' ∧ e.2 = (s'.step b e.1 b.lexemes[e.1]).cuts := by
  fun_induction stepsFrom b i s with
  | case1 i s hi move ih =>
      intro e he
      rcases List.mem_cons.1 he with rfl | he
      · exact ⟨s, hi, h, rfl⟩
      · exact ih (h.step hi) e he
  | case2 i s hi =>
      intro e he
      simp at he

theorem stepsFrom_eq_append {i : Nat} {s : ScanState} (h : Boundary b i s) :
    ∃ before, stepsFrom b 0 {} = before ++ stepsFrom b i s := by
  induction h with
  | start => exact ⟨[], rfl⟩
  | @step i s h hi ih =>
      obtain ⟨before, hbefore⟩ := ih
      refine ⟨before ++ [(i, (s.step b i b.lexemes[i]).cuts)], ?_⟩
      rw [hbefore, stepsFrom, dif_pos hi, List.append_assoc]
      rfl

theorem mem_stepsFrom {i : Nat} {s : ScanState} (h : Boundary b i s) (hi : i < b.lexemes.size) :
    (i, (s.step b i b.lexemes[i]).cuts) ∈ stepsFrom b 0 {} := by
  obtain ⟨before, hbefore⟩ := h.stepsFrom_eq_append
  rw [hbefore, stepsFrom, dif_pos hi]
  exact List.mem_append_right _ List.mem_cons_self

/-- The walk comes to an end: from every boundary it goes on to one behind the last lexeme. -/
theorem exists_end {i : Nat} {s : ScanState} (h : Boundary b i s) :
    ∃ (j : Nat) (s' : ScanState), Boundary b j s' ∧ b.lexemes.size ≤ j := by
  fun_induction stepsFrom b i s with
  | case1 i s hi move ih => exact ih (h.step hi)
  | case2 i s hi => exact ⟨i, s, h, Nat.le_of_not_lt hi⟩

/-! ### One state at one index -/

variable {i j : Nat} {s t : ScanState}

/-- Two boundaries are the same, or one of them stands at or behind the end of the step from the
other. -/
theorem order (h : Boundary b i s) (h' : Boundary b j t) :
    (i = j ∧ s = t) ∨
      (∃ hi : i < b.lexemes.size, (s.step b i b.lexemes[i]).next ≤ j) ∨
      ∃ hj : j < b.lexemes.size, (t.step b j b.lexemes[j]).next ≤ i := by
  induction h generalizing j t with
  | start =>
      induction h' with
      | start => exact .inl ⟨rfl, rfl⟩
      | @step j₀ t₀ h₀ hj₀ ih =>
          have hlater := (t₀.step b j₀ b.lexemes[j₀]).later
          rcases ih with ⟨rfl, rfl⟩ | ⟨hi, hle⟩ | ⟨_, hle⟩
          · exact .inr (.inl ⟨hj₀, Nat.le_refl _⟩)
          · exact .inr (.inl ⟨hi, by omega⟩)
          · omega
  | @step i₀ s₀ h₀ hi₀ ih =>
      have hlater := (s₀.step b i₀ b.lexemes[i₀]).later
      induction h' with
      | start =>
          rcases ih .start with ⟨rfl, rfl⟩ | ⟨_, hle⟩ | ⟨hj, hle⟩
          · exact .inr (.inr ⟨hi₀, Nat.le_refl _⟩)
          · omega
          · exact .inr (.inr ⟨hj, by omega⟩)
      | @step j₀ t₀ h₀' hj₀ ih' =>
          have hlater' := (t₀.step b j₀ b.lexemes[j₀]).later
          rcases ih h₀' with ⟨rfl, rfl⟩ | ⟨_, hle⟩ | ⟨_, hle⟩
          · exact .inl ⟨rfl, rfl⟩
          · rcases ih' with ⟨rfl, rfl⟩ | ⟨hi, hle'⟩ | ⟨_, hle'⟩
            · exact .inr (.inl ⟨hj₀, Nat.le_refl _⟩)
            · exact .inr (.inl ⟨hi, by omega⟩)
            · omega
          · rcases ih (h₀'.step hj₀) with ⟨rfl, rfl⟩ | ⟨_, hle'⟩ | ⟨hj, hle'⟩
            · exact .inr (.inr ⟨hi₀, Nat.le_refl _⟩)
            · omega
            · exact .inr (.inr ⟨hj, by omega⟩)

/-- A walk comes to an index in one state only. -/
theorem unique (h : Boundary b i s) (h' : Boundary b i t) : s = t := by
  rcases h.order h' with ⟨-, heq⟩ | ⟨hi, hle⟩ | ⟨hi, hle⟩
  · exact heq
  · have := (s.step b i b.lexemes[i]).later
    omega
  · have := (t.step b i b.lexemes[i]).later
    omega

theorem next_le (h : Boundary b i s) (h' : Boundary b j t) (hij : i < j)
    (hi : i < b.lexemes.size) : (s.step b i b.lexemes[i]).next ≤ j := by
  rcases h.order h' with ⟨rfl, -⟩ | ⟨_, hle⟩ | ⟨hj, hle⟩
  · omega
  · exact hle
  · have := (t.step b j b.lexemes[j]).later
    omega

/-- What a step leaves behind and every later step keeps holds at all boundaries behind the step. -/
theorem of_later {P : Nat → ScanState → Prop} (h : Boundary b i s) (hi : i < b.lexemes.size)
    (hleft : P (s.step b i b.lexemes[i]).next (s.step b i b.lexemes[i]).state)
    (hkept : ∀ k u (hk : k < b.lexemes.size), Boundary b k u → i < k → P k u →
      P (u.step b k b.lexemes[k]).next (u.step b k b.lexemes[k]).state)
    (h' : Boundary b j t) (hij : i < j) : P j t := by
  induction h' with
  | start => omega
  | @step k u hk hlt ih =>
      have hlater := (u.step b k b.lexemes[k]).later
      rcases Nat.lt_trichotomy i k with hbefore | rfl | hbehind
      · exact hkept k u hlt hk hbefore (ih hbefore)
      · exact h.unique hk ▸ hleft
      · have := hk.next_le h hbehind hlt
        omega

end Boundary

/-- Where the walk stands after `n` steps and what it remembers there, the end apart. -/
def Bracketed.after (b : Bracketed) : Nat → Nat × ScanState
  | 0 => (0, {})
  | n + 1 =>
    if _ : (b.after n).1 < b.lexemes.size then
      let move := (b.after n).2.step b (b.after n).1 b.lexemes[(b.after n).1]
      (move.next, move.state)
    else b.after n

theorem Boundary.after (b : Bracketed) (n : Nat) : Boundary b (b.after n).1 (b.after n).2 := by
  induction n with
  | zero => exact .start
  | succ n ih =>
      rw [Bracketed.after]
      split
      next hi => exact ih.step hi
      next => exact ih

theorem Boundary.of_after {b : Bracketed} {n i : Nat} (h : (b.after n).1 = i) :
    Boundary b i (b.after n).2 := h ▸ Boundary.after b n

/-- The steps from index `i` on, at most `n` of them.  Where `stepsFrom` recurses on what is left of
the lexemes this recurses on `n`, so it can be evaluated. -/
def stepsWithin (b : Bracketed) : (n i : Nat) → ScanState → List (Nat × List Cut)
  | 0, _, _ => []
  | n + 1, i, s =>
    if _ : i < b.lexemes.size then
      let move := s.step b i b.lexemes[i]
      (i, move.cuts) :: stepsWithin b n move.next move.state
    else []

theorem stepsFrom_eq_stepsWithin {b : Bracketed} {n i : Nat} {s : ScanState}
    (h : b.lexemes.size ≤ i + n) : stepsFrom b i s = stepsWithin b n i s := by
  induction n generalizing i s with
  | zero => rw [stepsFrom, dif_neg (by omega), stepsWithin]
  | succ n ih =>
      rw [stepsFrom, stepsWithin]
      by_cases hi : i < b.lexemes.size
      · have hlater := (s.step b i b.lexemes[i]).later
        rw [dif_pos hi, dif_pos hi]
        exact congrArg _ (ih (by omega))
      · rw [dif_neg hi, dif_neg hi]

/-! ## The cases of a step at a word or a square bracket

Behind a label and behind attributes the step holds a proof about the end it found, which a
rewrite of that end alone would leave behind. -/

namespace ScanState

variable {b : Bracketed} {s : ScanState} {i : Nat} {text : String}

/-- An access specifier with its colon starts at index `i`. -/
def atAccess (b : Bracketed) (s : ScanState) (i : Nat) (text : String) : Bool :=
  s.startsStatement i && s.scope.kind.isClass && accessSpecifiers.contains text
    && b.punctAt (i + 1) ":"

theorem wordStep_of_access (haccess : atAccess b s i text = true) :
    s.wordStep b i text =
      .behind (i + 1) (Nat.lt_succ_self i) { s with head := i + 2 } [] := by
  unfold ScanState.wordStep
  exact if_pos haccess

theorem wordStep_of_label (haccess : atAccess b s i text = false) {colon : Nat}
    (hcolon : s.labelEnd? b i = some colon) :
    s.wordStep b i text = .behind colon (lt_of_labelEnd? hcolon) { s with head := colon + 1 }
      [s.span b .label i colon] := by
  unfold ScanState.wordStep
  refine (if_neg (Bool.eq_false_iff.1 haccess)).trans ?_
  split
  next colon' hcolon' =>
    rw [hcolon] at hcolon'
    cases hcolon'
    rfl
  next hnone =>
    rw [hcolon] at hnone
    cases hnone

theorem wordStep_of_none (haccess : atAccess b s i text = false)
    (hnone : s.labelEnd? b i = none) :
    s.wordStep b i text = .one (s.wordCuts b i text).1 (s.wordCuts b i text).2 := by
  unfold ScanState.wordStep
  refine (if_neg (Bool.eq_false_iff.1 haccess)).trans ?_
  split
  next colon hcolon =>
    rw [hnone] at hcolon
    cases hcolon
  next => rfl

theorem squareStep_of_some {close : Nat} (hclose : b.attributeEnd? i = some close) :
    s.squareStep b i = .behind close (Bracketed.lt_of_attributeEnd? hclose) s
      [s.span b .attributeGroup i close] := by
  unfold ScanState.squareStep
  split
  next close' hclose' =>
    rw [hclose] at hclose'
    cases hclose'
    rfl
  next hnone =>
    rw [hclose] at hnone
    cases hnone

theorem squareStep_of_none (hnone : b.attributeEnd? i = none) :
    s.squareStep b i = .one ((s.noteLambda b i).1.openGroup b i
      ((s.noteLambda b i).1.opensArrayBound b i)) (s.noteLambda b i).2 := by
  unfold ScanState.squareStep
  split
  next close hclose =>
    rw [hnone] at hclose
    cases hclose
  next => rfl

end ScanState

end CxxFloor
