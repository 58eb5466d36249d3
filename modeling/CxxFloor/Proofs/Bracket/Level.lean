/-
# What a walk past groups does not reach

Matchers walk a declaration along its top level.  A walk that starts outside a
pair of braces jumps over it whole and stops nowhere inside: template headers,
attributes and the words at the top level all lie outside (`topLevel_outside`).
Template argument lists are walked by counting angles, but a brace ends the
count, so they do not lead into braces either.

One walk does reach further.  Behind the word `operator` the parameters are
looked for at every level, for the operator's own symbol may be a pair of
brackets.  A parameter list is outside all braces, or `operator` stands before
it (`operator_or_outside`).
-/
import CxxFloor.Declarator.Function
import CxxFloor.Proofs.Bracket.Slice

namespace CxxFloor

namespace Bracketed

variable {b : Bracketed} {p q i j k c stop : Nat}

/-! ## Tokens that open no brace -/

theorem ne_of_punctAt (hp : b.opensAt p .curly) {s : String} (hi : b.punctAt i s = true)
    (hs : s ≠ "\x7b") : i ≠ p := by
  rintro rfl
  have hbrace := punctAt_unique (punctAt_of_opensAt hp) hs
  rw [hbrace] at hi
  cases hi

theorem ne_of_wordAt (hp : b.opensAt p .curly) {s : String} (hi : b.wordAt i s = true) : i ≠ p := by
  rintro rfl
  obtain ⟨t, ht, hword⟩ := (Option.any_eq_true _ _).1 hi
  simp only [Lexeme.isWord, Bool.and_eq_true, beq_iff_eq] at hword
  have := (bracket_text ht (.inl hp)).1
  rw [hword.1] at this
  cases this

theorem punctInAt_brace (hp : b.opensAt p .curly) {ss : List String} (hs : "\x7b" ∈ ss) :
    b.punctInAt p ss = true := punctInAt_of_punctAt (punctAt_of_opensAt hp) hs

/-- The place is in no braces, but it may be that of an opening one. -/
def OutsideBraces (b : Bracketed) (k : Nat) : Prop :=
  ∀ p q, b.opensAt p .curly → b.closer? p = some q → k ≤ p ∨ q < k

/-! ## Groups -/

namespace Nested

theorem outside_behind (hb : b.Nested) (hpq : b.closer? p = some q) (hi : i ≤ p ∨ q < i)
    (hc : b.closer? i = some c) : c + 1 ≤ p ∨ q < c + 1 := by
  have hlt := Pairing.lt_of_closer? hpq
  have hic := Pairing.lt_of_closer? hc
  rcases Nat.lt_trichotomy i p with hbefore | rfl | hbehind
  · rcases Nat.lt_trichotomy c p with hcp | rfl | hpc
    · exact .inl hcp
    · -- no closer opens a pair
      have := hb.partner_symm (partner?_of_closer? hc)
      rw [partner?_of_closer? hpq] at this
      cases this
      omega
    · have := (hb.inside (partner?_of_closer? hc) (partner?_of_closer? hpq) hbefore hpc).2
      omega
  · rw [hpq] at hc
    cases hc
    exact .inr (Nat.lt_succ_self q)
  · exact .inr (by omega)

theorem angleFrom?_outside (hb : b.Nested) (hp : b.opensAt p .curly) (hpq : b.closer? p = some q)
    {depth : Int} (hi : i ≤ p) (h : b.angleFrom? i depth = some j) : j < p ∨ q < j := by
  fun_induction angleFrom? b i depth with
  | case1 i depth _ hless ih =>
      have := ne_of_punctAt hp hless (by decide)
      exact ih (by omega) h
  | case2 i _ _ hgreater =>
      have := ne_of_punctAt hp hgreater (by decide)
      cases h
      exact .inl (by omega)
  | case3 i depth _ _ hgreater _ ih =>
      have := ne_of_punctAt hp hgreater (by decide)
      exact ih (by omega) h
  | case4 i depth _ _ _ _ c hc ih =>
      rcases hb.outside_behind hpq (.inl hi) hc with hbefore | hbehind
      · exact ih hbefore h
      · have := le_of_angleFrom? h
        exact .inr (by omega)
  | case5 => cases h
  | case6 => cases h
  | case7 i depth _ _ _ _ hstop ih =>
      have hne : i ≠ p := by
        rintro rfl
        exact hstop (punctInAt_brace hp (by simp))
      exact ih (by omega) h
  | case8 => cases h

/-! ## Walks -/

theorem skipHeaders_outside (hb : b.Nested) (hp : b.opensAt p .curly) (hpq : b.closer? p = some q)
    (hi : i ≤ p ∨ q < i) : b.skipHeaders i ≤ p ∨ q < b.skipHeaders i := by
  fun_induction skipHeaders b i with
  | case1 i hsize c hc ih =>
      have hheader := hc
      unfold templateHeaderEnd? at hheader
      split at hheader
      next hword =>
        simp only [Bool.and_eq_true] at hword
        have hangle := (Option.filter_eq_some_iff.1 hheader).1
        have hne := ne_of_wordAt hp hword.1.1
        have hlt := lt_of_templateHeaderEnd? hc
        refine ih ?_
        rcases hi with hi | hi
        · have := hb.angleFrom?_outside hp hpq (by omega) hangle
          omega
        · omega
      next => cases hheader
  | case2 i hsize _ c hc ih => exact ih (hb.outside_behind hpq hi (closer?_of_attributeEnd? hc))
  | case3 => exact hi
  | case4 => exact hi

/-- The walk along the top level meets nothing in a group but its opener. -/
theorem topLevel_outside (hb : b.Nested) (hp : b.opensAt p .curly) (hpq : b.closer? p = some q)
    (hi : i ≤ p ∨ q < i) (hk : k ∈ b.topLevel i stop) : k ≤ p ∨ q < k := by
  fun_induction topLevel b i stop with
  | case1 i hlt c hc ih =>
      have hcloser : b.closer? i = some c := by
        unfold groupEnd? at hc
        split at hc
        · exact hc
        · cases hc
      rcases List.mem_cons.1 hk with rfl | hk
      · exact hi
      · exact ih (hb.outside_behind hpq hi hcloser) hk
  | case2 i hlt hnone ih =>
      have hne : i ≠ p := by
        rintro rfl
        have hopen : (b.at? i).any (·.opens?.isSome) = true := by
          obtain ⟨t, ht, hopens⟩ := Option.bind_eq_some_iff.1 hp
          simp [ht, hopens]
        rw [groupEnd?, if_pos hopen, hpq] at hnone
        cases hnone
      rcases List.mem_cons.1 hk with rfl | hk
      · exact hi
      · exact ih (by omega) hk
  | case3 => exact absurd hk List.not_mem_nil

end Nested

/-! ## Parameter lists -/

theorem punctAt_of_roundEnd? (h : b.roundEnd? i = some c) : b.punctAt i "(" = true := by
  unfold roundEnd? at h
  split at h
  next hround => exact hround
  next => cases h

theorem opener_of_operatorParameterList? {o : Nat} (h : b.operatorParameterList? i = some (o, c)) :
    i ≤ o ∧ b.punctAt o "(" = true := by
  obtain ⟨k, hk, h⟩ := Option.bind_eq_some_iff.1 h
  obtain ⟨c', hc', h⟩ := Option.bind_eq_some_iff.1 h
  obtain ⟨rfl, -⟩ := Prod.mk.inj (Option.some.inj h)
  refine ⟨?_, punctAt_of_roundEnd? hc'⟩
  unfold operatorParametersAt? at hk
  split at hk
  next d hd =>
    have := lt_of_operandEnd? hd
    cases hk
    omega
  next => exact (List.mem_range'_1.1 (List.mem_of_find?_eq_some hk)).1

def OperatorWithin (b : Bracketed) (i o : Nat) : Prop :=
  ∃ k, i ≤ k ∧ k < o ∧ b.wordAt k "operator" = true

theorem OperatorWithin.mono {o : Nat} (h : b.OperatorWithin j o) (hij : i ≤ j) :
    b.OperatorWithin i o := by
  obtain ⟨k, hk, hlt, hword⟩ := h
  exact ⟨k, Nat.le_trans hij hk, hlt, hword⟩

/-- A parameter list opens behind a name or an angle, or the word `operator` stands before it. -/
theorem opener_of_parameterListFrom? {o : Nat} (h : b.parameterListFrom? i = some (o, c)) :
    b.punctAt o "(" = true ∧ (b.OperatorWithin i o ∨ b.declaratorBefore o = true) := by
  fun_induction parameterListFrom? b i with
  | case1 i _ hword =>
      obtain ⟨hlt, hround⟩ := opener_of_operatorParameterList? h
      exact ⟨hround, .inl ⟨i, Nat.le_refl i, hlt, hword⟩⟩
  | case2 => cases h
  | case3 i _ _ _ d hd hopens =>
      obtain ⟨rfl, -⟩ := Prod.mk.inj (Option.some.inj h)
      rw [Bool.and_eq_true] at hopens
      exact ⟨hopens.1, .inr hopens.2⟩
  | case4 i _ _ _ d hd _ ih =>
      have := Pairing.lt_of_closer? hd
      exact (ih h).imp_right fun hcase => hcase.imp_left (·.mono (by omega))
  | case5 => cases h
  | case6 i _ _ _ _ d hd ih =>
      have := le_of_angleEnd? hd
      exact (ih h).imp_right fun hcase => hcase.imp_left (·.mono (by omega))
  | case7 => cases h
  | case8 i _ _ _ _ _ ih =>
      exact (ih h).imp_right fun hcase => hcase.imp_left (·.mono (by omega))
  | case9 => cases h

/-- A parameter list stands outside a pair of braces, or the word `operator` stands before it. -/
theorem Nested.operator_or_outside (hb : b.Nested) (hp : b.opensAt p .curly)
    (hpq : b.closer? p = some q) {o : Nat} (hi : i ≤ p ∨ q < i)
    (h : b.parameterListFrom? i = some (o, c)) : b.OperatorWithin i o ∨ o ≤ p ∨ q < o := by
  fun_induction parameterListFrom? b i with
  | case1 i _ hword => exact .inl ⟨i, Nat.le_refl i, (opener_of_operatorParameterList? h).1, hword⟩
  | case2 => cases h
  | case3 i _ _ _ d hd hopens =>
      obtain ⟨rfl, -⟩ := Prod.mk.inj (Option.some.inj h)
      exact .inr hi
  | case4 i _ _ _ d hd _ ih =>
      have := Pairing.lt_of_closer? hd
      exact (ih (hb.outside_behind hpq hi hd) h).imp_left (·.mono (by omega))
  | case5 => cases h
  | case6 i _ _ _ hangle d hd ih =>
      have := le_of_angleEnd? hd
      have hbehind : d + 1 ≤ p ∨ q < d + 1 := by
        rcases hi with hi | hi
        · have := hb.angleFrom?_outside hp hpq hi hd
          omega
        · omega
      exact (ih hbehind h).imp_left (·.mono (by omega))
  | case7 => cases h
  | case8 i _ _ hopens _ _ ih =>
      have hne : i ≠ p := by
        rintro rfl
        obtain ⟨t, ht, hopen⟩ := Option.bind_eq_some_iff.1 hp
        exact hopens (by simp [ht, hopen])
      exact (ih (by omega) h).imp_left (·.mono (by omega))
  | case9 => cases h

/-! ## Slices -/

theorem Nested.slice (hb : b.Nested) {start : Nat} (hstop : stop ≤ b.size) :
    (b.slice start stop).Nested := by
  have hpairs : ∀ {i j : Nat}, (b.slice start stop).pairs.partner? i = some j →
      b.pairs.partner? (start + i) = some (start + j) ∧ start + i < stop ∧ start + j < stop :=
    Pairing.partner?_restrict.1
  have hat : ∀ {i : Nat}, start + i < stop → (b.slice start stop).at? i = b.at? (start + i) := by
    intro i hi
    show (b.lexemes.extract start stop)[i]? = _
    rw [Array.getElem?_extract, if_pos (by have : stop ≤ b.lexemes.size := hstop; omega)]
    rfl
  refine ⟨?_, ?_, ?_, ?_, ?_⟩
  · intro i j h
    obtain ⟨-, -, hj⟩ := hpairs h
    show j < (b.lexemes.extract start stop).size
    rw [Array.size_extract]
    have : stop ≤ b.lexemes.size := hstop
    omega
  · intro i j h
    obtain ⟨hij, hi, hj⟩ := hpairs h
    exact Pairing.partner?_restrict.2 ⟨hb.partner_symm hij, hj, hi⟩
  · rintro i j h rfl
    exact hb.partner_ne (hpairs h).1 rfl
  · intro i j h hlt
    obtain ⟨hij, hi, hj⟩ := hpairs h
    rw [hat hi, hat hj]
    exact hb.matched hij (by omega)
  · intro i j k l h h' hik hkj
    have := hb.inside (hpairs h).1 (hpairs h').1 (by omega) (by omega)
    omega

end Bracketed

end CxxFloor
