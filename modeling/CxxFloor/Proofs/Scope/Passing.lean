/-
# What the walk does not stop at

The walk stops at every token but those behind the first of a label, an
attribute group or an access specifier (`ScanState.passed_of_lt_next`).  These
leave the same brackets open that they find (`Boundary.openAt_of_passed`), so
the walk stops at every opener whose group is not inside one of them.  Two such
openers are followed here: that of a group which ends right before a place where
the walk stops (`Boundary.exists_at_opener`), and a brace with no bracket open
before it since such a place (`Boundary.exists_at_brace`).
-/
import CxxFloor.Proofs.Scope.Openers

namespace CxxFloor

namespace Bracketed

variable {b : Bracketed} {i j k colon : Nat}

theorem operandEnd?_brace (h : b.punctAt i "\x7b" = true) : b.operandEnd? i = none := by
  obtain ⟨t, ht, hpunct⟩ := punctAt_iff.1 h
  simp only [Lexeme.isPunct, Bool.and_eq_true, beq_iff_eq] at hpunct
  simp [operandEnd?, punctInAt, ht, Lexeme.isPunctIn, hpunct.2]

/-- The expression of a `case` goes past no brace but in a group that it goes past as well. -/
theorem lt_of_caseEnd? (h : b.caseEnd? j = some colon) (hjk : j ≤ k)
    (hbrace : b.punctAt k "\x7b" = true)
    (hgroups : ∀ p c, j ≤ p → p < k → b.closer? p = some c → c < k) : colon < k := by
  fun_induction caseEnd? b j with
  | case1 j hsize hcolon =>
      obtain rfl := Option.some.inj h
      refine Nat.lt_of_le_of_ne hjk ?_
      rintro rfl
      rw [punctAt_unique hbrace (by decide)] at hcolon
      cases hcolon
  | case2 j hsize hcolon c hc ih =>
      have hlt := lt_of_operandEnd? hc
      rcases Nat.eq_or_lt_of_le hjk with rfl | hlt'
      · rw [operandEnd?_brace hbrace] at hc
        cases hc
      · have hck := hgroups j c (Nat.le_refl j) hlt' (closer?_of_operandEnd? hc)
        exact ih h (by omega) fun p c' hp => hgroups p c' (by omega)
  | case3 => cases h
  | case4 j hsize hcolon hnone hstop ih =>
      rcases Nat.eq_or_lt_of_le hjk with rfl | hlt
      · exact absurd (punctInAt_of_punctAt hbrace (by decide)) hstop
      · exact ih h hlt fun p c hp => hgroups p c (by omega)
  | case5 => cases h

theorem lt_of_labelEnd?_brace (h : b.labelEnd? i = some colon) (hik : i < k)
    (hbrace : b.punctAt k "\x7b" = true)
    (hgroups : ∀ p c, i ≤ p → p < k → b.closer? p = some c → c < k) : colon < k := by
  have hcolon := punctAt_of_labelEnd? h
  unfold labelEnd? at h
  split at h
  · exact lt_of_caseEnd? h hik hbrace fun p c hp => hgroups p c (by omega)
  · split at h
    next =>
      obtain rfl := Option.some.inj h
      refine Nat.lt_of_le_of_ne hik ?_
      rintro rfl
      rw [punctAt_unique hbrace (by decide)] at hcolon
      cases hcolon
    next => cases h

end Bracketed

theorem ScanState.labelEnd?_bracketed {b : Bracketed} {s : ScanState} {i colon : Nat}
    (h : s.labelEnd? b i = some colon) : b.labelEnd? i = some colon := by
  unfold labelEnd? at h
  split at h
  · exact h
  · cases h

/-- What a step can pass over: the colon of an access specifier, a label, or an attribute group. -/
inductive ScanState.PassesOver (b : Bracketed) (s : ScanState) (i next : Nat) : Prop
  | access (hnext : next = i + 2) (hword : b.nameAt i = true)
      (hcolon : b.punctAt (i + 1) ":" = true)
  | label {colon : Nat} (hnext : next = colon + 1) (hword : b.nameAt i = true)
      (hlabel : s.labelEnd? b i = some colon)
  | attributes {close : Nat} (hnext : next = close + 1) (hclose : b.attributeEnd? i = some close)

theorem ScanState.passesOver {b : Bracketed} {s : ScanState} {i : Nat} {t : Lexeme}
    (ht : b.at? i = some t) (h : i + 1 < (s.step b i t).next) :
    s.PassesOver b i (s.step b i t).next := by
  have hone : ∀ {state : ScanState} {cuts : List Cut},
      ¬ i + 1 < (Move.one (i := i) state cuts).next := fun hlt => Nat.lt_irrefl _ hlt
  unfold step at h ⊢
  cases hkind : t.kind with
  | word =>
      rw [hkind] at h
      have hword : b.nameAt i = true := by simp [Bracketed.nameAt, ht, Lexeme.isName, hkind]
      dsimp only [wordStep] at h ⊢
      split at h
      next haccess =>
        rw [if_pos haccess]
        simp only [Bool.and_eq_true] at haccess
        exact .access rfl hword haccess.2
      next haccess =>
        rw [if_neg haccess]
        split at h
        next colon hcolon => exact .label rfl hword hcolon
        next => exact absurd h hone
  | punctuator =>
      rw [hkind] at h
      dsimp only at h ⊢
      split at h
      next hsquare =>
        rw [if_pos hsquare]
        dsimp only [squareStep] at h ⊢
        split at h
        next close hclose => exact .attributes rfl hclose
        next => exact absurd h hone
      next => exact absurd h hone
  | number | string | character | directive =>
      rw [hkind] at h
      exact absurd h hone

namespace Boundary

variable {b : Bracketed} {i j k c : Nat} {s : ScanState}

theorem exists_step_over (h : Boundary b i s) (hk : k < i) :
    ∃ (j : Nat) (t : ScanState) (hj : j < b.lexemes.size), Boundary b j t ∧ j ≤ k ∧
      k < (t.step b j b.lexemes[j]).next := by
  induction h with
  | start => exact absurd hk (Nat.not_lt_zero k)
  | @step i s h hi ih =>
      rcases Nat.lt_or_ge k i with hlt | hge
      · exact ih hlt
      · exact ⟨i, s, hi, h, hge, hk⟩

theorem openAt_of_passed (hb : b.Nested) (h : Boundary b i s) {next : Nat}
    (hpassed : s.PassesOver b i next) : b.pairs.openAt next = b.pairs.openAt i := by
  cases hpassed with
  | access hnext hword hcolon =>
      rw [hnext, hb.openAt_unpaired (hb.partner?_of_punctAt hcolon (by decide)),
        hb.openAt_unpaired (hb.partner?_of_name hword)]
  | label hnext hword hlabel =>
      rw [hnext, (h.aligned hb).openAt_labelEnd hb (hb.partner?_of_name hword) hlabel]
  | attributes hnext hclose =>
      have hpartner := Bracketed.partner?_of_closer? (Bracketed.closer?_of_attributeEnd? hclose)
      rw [hnext, hb.openAt_group hpartner (Bracketed.lt_of_attributeEnd? hclose)]

/-- The walk stops at the opener of a group that ends right before a place where it stops. -/
theorem exists_at_opener (hb : b.Nested) (h : Boundary b (c + 1) s) (hc : b.closer? k = some c) :
    ∃ t, Boundary b k t := by
  have hkc := Pairing.lt_of_closer? hc
  obtain ⟨j, t, hj, ht, hjk, hnext⟩ := h.exists_step_over (k := k) (by omega)
  rcases Nat.eq_or_lt_of_le hjk with rfl | hlt
  · exact ⟨t, ht⟩
  have hle := ht.next_le h (by omega) hj
  have hpassed := ScanState.passesOver (s := t) (Array.getElem?_eq_getElem hj) (by omega)
  rcases Nat.eq_or_lt_of_le hle with heq | hinside
  · -- the step ends with the closer of the group, so it would be the group itself
    have hback := hb.partner_symm (Bracketed.partner?_of_closer? hc)
    cases hpassed with
    | access hnext' => omega
    | @label colon hnext' hword hlabel =>
        obtain rfl : colon = c := by omega
        have hcolon := Bracketed.punctAt_of_labelEnd? (ScanState.labelEnd?_bracketed hlabel)
        rw [hb.partner?_of_punctAt hcolon (by decide)] at hback
        cases hback
    | @attributes close hnext' hclose =>
        obtain rfl : close = c := by omega
        have hback' := hb.partner_symm
          (Bracketed.partner?_of_closer? (Bracketed.closer?_of_attributeEnd? hclose))
        rw [hback] at hback'
        cases hback'
        omega
  · have hopen : k ∈ b.pairs.openAt (t.step b j b.lexemes[j]).next :=
      Pairing.mem_openAt.2 ⟨hnext, c, Bracketed.partner?_of_closer? hc, by omega⟩
    rw [ht.openAt_of_passed hb hpassed] at hopen
    exact absurd (Pairing.mem_openAt.1 hopen).1 (by omega)

/-- The walk stops at a brace if since some place where it stopped no bracket is left open. -/
theorem exists_at_brace (h : Boundary b i s) (hik : i ≤ k)
    (hbrace : b.punctAt k "\x7b" = true)
    (hgroups : ∀ p c, i ≤ p → p < k → b.closer? p = some c → c < k) : ∃ t, Boundary b k t := by
  have hsize := Bracketed.lt_size_of_punctAt hbrace
  obtain ⟨e, u, hu, he⟩ := h.exists_end
  obtain ⟨j, t, hj, ht, hjk, hnext⟩ := hu.exists_step_over (Nat.lt_of_lt_of_le hsize he)
  rcases Nat.eq_or_lt_of_le hjk with rfl | hlt
  · exact ⟨t, ht⟩
  have hij : i ≤ j := by
    refine Nat.le_of_not_lt fun hji => ?_
    have := ht.next_le h hji hj
    omega
  have hpassed := ScanState.passesOver (s := t) (Array.getElem?_eq_getElem hj) (by omega)
  cases hpassed with
  | access heq hword hcolon =>
      obtain rfl : k = j + 1 := by omega
      rw [Bracketed.punctAt_unique hbrace (by decide)] at hcolon
      cases hcolon
  | @label colon heq hword hlabel =>
      have := Bracketed.lt_of_labelEnd?_brace (ScanState.labelEnd?_bracketed hlabel) hlt hbrace
        fun p c hp => hgroups p c (Nat.le_trans hij hp)
      omega
  | attributes heq hclose =>
      have := hgroups j _ hij hlt (Bracketed.closer?_of_attributeEnd? hclose)
      omega

end Boundary

end CxxFloor
