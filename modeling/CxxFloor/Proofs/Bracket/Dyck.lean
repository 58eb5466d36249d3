/-
# Balanced lexemes

When brackets are balanced is said without a pass and without a table: every
bracket stands at the end of a group, and a group is an opener, balanced
lexemes, and a closer of the same kind (`Dyck`).  The two brackets of a group
are partners (`DyckPartner`).

The pass goes over balanced lexemes without a trace in what it has pending or
has given up (`Matching.steps_of_dyck`), whatever stands around them.  So the
brackets of a group are always paired with each other.  Back from the table to
the lexemes leads `Bracketed.Nested.dyck_between`: a stretch that holds the
partner of each of its brackets is balanced.  Together they say that nothing
is given up exactly in balanced lexemes (`allOrphans_eq_nil_iff`), where the
table holds the partners and nothing else (`Dyck.partner?_iff`).
-/
import CxxFloor.Proofs.Bracket.Orphans

namespace CxxFloor

/-- The brackets are balanced.  Lexemes that are no brackets may stand anywhere. -/
inductive Dyck : List Lexeme → Prop
  | nil : Dyck []
  | other {t : Lexeme} {ts : List Lexeme} (hopens : t.opens? = none) (hcloses : t.closes? = none)
      (rest : Dyck ts) : Dyck (t :: ts)
  | group {t u : Lexeme} {k : Bracket} {ts us : List Lexeme} (hopens : t.opens? = some k)
      (inner : Dyck ts) (hcloses : u.closes? = some k) (rest : Dyck us) :
      Dyck (t :: (ts ++ u :: us))

/-- The lexemes at the indices `i` and `j` are the ends of a group. -/
def DyckPartner (ts : List Lexeme) (i j : Nat) : Prop :=
  ∃ (front inner rest : List Lexeme) (t u : Lexeme) (k : Bracket),
    ts = front ++ t :: (inner ++ u :: rest) ∧ front.length = i ∧ i + inner.length + 1 = j ∧
      t.opens? = some k ∧ Dyck inner ∧ u.closes? = some k

/-! ## The pass over balanced lexemes -/

namespace Matching

/-- Behind the opener of a group stands what leaves no trace, so its closer takes it. -/
theorem steps_group {m : Matching} {i : Nat} {t u : Lexeme} {k : Bracket} {inner : List Lexeme}
    (hopens : t.opens? = some k) (hcloses : u.closes? = some k)
    (hinner : ∀ m : Matching, ∃ pairs,
      m.steps (i + 1) inner = { m with pairs := pairs ++ m.pairs })
    (rest : List Lexeme) :
    ∃ pairs, m.steps i (t :: (inner ++ u :: rest)) =
      steps { m with pairs := (i, i + inner.length + 1) :: (pairs ++ m.pairs) }
        (i + inner.length + 2) rest := by
  have hpush : m.step i t = { m with pending := ⟨i, k⟩ :: m.pending } := by simp [step, hopens]
  have htake : ∀ (pairs : List (Nat × Nat)) (j : Nat),
      step { m with pending := ⟨i, k⟩ :: m.pending, pairs := pairs } j u =
        { m with pairs := (i, j) :: pairs } := by
    intro pairs j
    have hnone : u.opens? = none := Option.eq_none_iff_forall_ne_some.2 fun _ =>
      Lexeme.not_opens?_of_closes? hcloses
    simp [step, hnone, hcloses, close]
  obtain ⟨pairs, hpairs⟩ := hinner { m with pending := ⟨i, k⟩ :: m.pending }
  refine ⟨pairs, ?_⟩
  have hindex : i + 1 + inner.length = i + inner.length + 1 := by omega
  rw [steps, hpush, steps_append, hpairs, steps, htake, hindex]

/-- Balanced lexemes leave nothing behind but their pairs. -/
theorem steps_of_dyck {ts : List Lexeme} (h : Dyck ts) (m : Matching) (i : Nat) :
    ∃ pairs, m.steps i ts = { m with pairs := pairs ++ m.pairs } := by
  induction h generalizing m i with
  | nil => exact ⟨[], rfl⟩
  | @other t ts hopens hcloses _ ih =>
      have hskip : m.step i t = m := by simp [step, hopens, hcloses]
      rw [steps, hskip]
      exact ih m (i + 1)
  | @group t u k inner rest hopens _ hcloses _ ihInner ihRest =>
      obtain ⟨pairs, hgroup⟩ := steps_group (m := m) hopens hcloses (ihInner · (i + 1)) rest
      obtain ⟨pairs', hrest⟩ := ihRest
        { m with pairs := (i, i + inner.length + 1) :: (pairs ++ m.pairs) } (i + inner.length + 2)
      refine ⟨pairs' ++ (i, i + inner.length + 1) :: pairs, ?_⟩
      rw [hgroup, hrest, List.append_assoc, List.cons_append]

end Matching

/-- The ends of a group are paired, whatever stands around it. -/
theorem DyckPartner.partner? {ts : List Lexeme} {i j : Nat} (h : DyckPartner ts i j) :
    (Pairing.ofLexemes ts).partner? i = some j := by
  obtain ⟨front, inner, rest, t, u, k, rfl, rfl, rfl, hopens, hinner, hcloses⟩ := h
  refine (Pairing.partner?_ofLexemes _ _ _).2 (.inl ?_)
  obtain ⟨pairs, hgroup⟩ := Matching.steps_group (m := Matching.ofLexemes front)
    (i := front.length) hopens hcloses (Matching.steps_of_dyck hinner · _) rest
  rw [Matching.ofLexemes, Matching.steps_append, Nat.zero_add]
  change _ ∈ ((Matching.ofLexemes front).steps _ _).pairs
  rw [hgroup]
  exact (Matching.pairs_subset_steps _ _ rest).1 List.mem_cons_self

theorem Dyck.allOrphans_eq_nil {ts : List Lexeme} (h : Dyck ts) :
    (Matching.ofLexemes ts).allOrphans = [] := by
  obtain ⟨pairs, hpairs⟩ := Matching.steps_of_dyck h {} 0
  rw [Matching.ofLexemes, hpairs]
  rfl

/-! ## Stretches of the table -/

namespace Bracketed

variable {b : Bracketed} {i j : Nat}

theorem between_cons {t : Lexeme} (ht : b.at? i = some t) (hij : i < j) :
    b.between i j = t :: b.between (i + 1) j := by
  have hself : b.between i i = [] := by simp [between]
  rw [between_append (Nat.le_succ i) hij, between_succ (Nat.le_refl i) ht, hself]
  rfl

theorem between_group {t u : Lexeme} {p : Nat} (ht : b.at? i = some t) (hu : b.at? p = some u)
    (hip : i < p) (hpj : p < j) :
    b.between i j = t :: (b.between (i + 1) p ++ u :: b.between (p + 1) j) := by
  rw [between_cons ht (Nat.lt_trans hip hpj), between_append hip (Nat.le_of_lt hpj),
    between_cons hu hpj]

/-- Each bracket of the stretch has its partner in it. -/
def PairedWithin (b : Bracketed) (i j : Nat) : Prop :=
  ∀ k t, i ≤ k → k < j → b.at? k = some t → t.isBracket = true →
    ∃ l, b.pairs.partner? k = some l ∧ i ≤ l ∧ l < j

theorem Nested.isBracket_of_partner (hb : b.Nested) {t : Lexeme} (ht : b.at? i = some t)
    (h : b.pairs.partner? i = some j) : t.isBracket = true := by
  rcases Nat.lt_or_gt_of_ne (hb.partner_ne h) with hlt | hgt
  · obtain ⟨k, hopens, -⟩ := hb.matched h hlt
    rw [ht, Option.bind_some] at hopens
    simp [Lexeme.isBracket, hopens]
  · obtain ⟨k, -, hcloses⟩ := hb.matched (hb.partner_symm h) hgt
    rw [ht, Option.bind_some] at hcloses
    simp [Lexeme.isBracket, hcloses]

theorem Nested.pairedWithin_inside (hb : b.Nested) (hij : b.pairs.partner? i = some j)
    (hpaired : ∀ k t, i < k → k < j → b.at? k = some t → t.isBracket = true →
      ∃ l, b.pairs.partner? k = some l) : b.PairedWithin (i + 1) j := by
  intro k t hik hkj ht hbracket
  obtain ⟨l, hl⟩ := hpaired k t hik hkj ht hbracket
  obtain ⟨hil, hlj⟩ := hb.inside hij hl hik hkj
  exact ⟨l, hl, hil, hlj⟩

theorem PairedWithin.tail (h : b.PairedWithin i j) (hb : b.Nested) {t : Lexeme}
    (ht : b.at? i = some t) (hbracket : t.isBracket = false) : b.PairedWithin (i + 1) j := by
  intro k u hik hkj hu hbracket'
  obtain ⟨l, hl, hil, hlj⟩ := h k u (by omega) hkj hu hbracket'
  refine ⟨l, hl, Nat.lt_of_le_of_ne hil ?_, hlj⟩
  rintro rfl
  rw [hb.isBracket_of_partner ht (hb.partner_symm hl)] at hbracket
  cases hbracket

theorem PairedWithin.behind {p : Nat} (h : b.PairedWithin i j) (hb : b.Nested)
    (hp : b.pairs.partner? i = some p) (hip : i < p) : b.PairedWithin (p + 1) j := by
  intro k t hpk hkj ht hbracket
  obtain ⟨l, hl, hil, hlj⟩ := h k t (by omega) hkj ht hbracket
  refine ⟨l, hl, ?_, hlj⟩
  have hsymm := hb.partner_symm hl
  by_contra hlp
  -- the partner would be an end of the pair or stand inside it, and so would its own partner, `k`
  have hne : l ≠ i ∧ l ≠ p := by
    constructor <;> rintro rfl
    · rw [hp] at hsymm
      cases hsymm
      omega
    · rw [hb.partner_symm hp] at hsymm
      cases hsymm
      omega
  have := hb.inside hp hsymm (by omega) (by omega)
  omega

theorem Nested.dyck_between (hb : b.Nested) (hj : j ≤ b.size) (h : b.PairedWithin i j) :
    Dyck (b.between i j) := by
  induction hn : j - i using Nat.strong_induction_on generalizing i j with
  | _ n ih =>
      rcases Nat.lt_or_ge i j with hij | hji
      · have hi : i < b.lexemes.size := Nat.lt_of_lt_of_le hij hj
        obtain ⟨t, ht⟩ : ∃ t, b.at? i = some t := ⟨_, Array.getElem?_eq_getElem hi⟩
        cases hbracket : t.isBracket with
        | false =>
            obtain ⟨hopens, hcloses⟩ := Lexeme.isBracket_eq_false_iff.1 hbracket
            rw [between_cons ht hij]
            exact .other hopens hcloses
              (ih (j - (i + 1)) (by omega) hj (h.tail hb ht hbracket) rfl)
        | true =>
            obtain ⟨p, hp, hip, hpj⟩ := h i t (Nat.le_refl i) hij ht hbracket
            have hlt : i < p := Nat.lt_of_le_of_ne hip (hb.partner_ne hp)
            obtain ⟨k, hopens, hcloses⟩ := hb.matched hp hlt
            obtain ⟨u, hu, hcloses⟩ := Option.bind_eq_some_iff.1 hcloses
            rw [ht, Option.bind_some] at hopens
            have hinner : b.PairedWithin (i + 1) p :=
              hb.pairedWithin_inside hp fun k t hik hkp ht hbracket =>
                (h k t (by omega) (by omega) ht hbracket).imp fun l hl => hl.1
            have hrest : b.PairedWithin (p + 1) j := h.behind hb hp hlt
            rw [between_group ht hu hlt hpj]
            exact .group hopens (ih (p - (i + 1)) (by omega) (by omega) hinner rfl) hcloses
              (ih (j - (p + 1)) (by omega) hj hrest rfl)
      · have hnil : b.between i j = [] := by
          rw [between, Array.toList_eq_nil_iff, Array.extract_empty_of_stop_le_start hji]
        rw [hnil]
        exact .nil

end Bracketed

/-! ## Files without an orphan -/

section Lexemes

variable {ts : List Lexeme}

theorem at?_ofLexemes (ts : List Lexeme) (k : Nat) :
    (Bracketed.ofLexemes ts.toArray).at? k = ts[k]? := by
  simp [Bracketed.at?, Bracketed.ofLexemes]

theorem between_ofLexemes (ts : List Lexeme) :
    (Bracketed.ofLexemes ts.toArray).between 0 ts.length = ts := by
  simp [Bracketed.between, Bracketed.ofLexemes]

theorem allOrphans_eq_nil_iff : (Matching.ofLexemes ts).allOrphans = [] ↔ Dyck ts := by
  refine ⟨fun h => ?_, Dyck.allOrphans_eq_nil⟩
  have hb := Bracketed.nested_ofLexemes ts.toArray
  have hpaired : (Bracketed.ofLexemes ts.toArray).PairedWithin 0 ts.length := by
    intro k t _ _ ht hbracket
    rw [at?_ofLexemes] at ht
    obtain ⟨l, hl⟩ := exists_partner h ht (Lexeme.weight_ne_zero_iff.2 hbracket)
    exact ⟨l, hl, Nat.zero_le l, hb.partner_lt hl⟩
  have hdyck := hb.dyck_between (j := ts.length) (Nat.le_refl _) hpaired
  rwa [between_ofLexemes] at hdyck

theorem Dyck.exists_partner (h : Dyck ts) {k : Nat} {t : Lexeme} (ht : ts[k]? = some t)
    (hbracket : t.isBracket = true) : ∃ l, (Pairing.ofLexemes ts).partner? k = some l :=
  CxxFloor.exists_partner h.allOrphans_eq_nil ht (Lexeme.weight_ne_zero_iff.2 hbracket)

theorem Dyck.partner?_iff (h : Dyck ts) {i j : Nat} (hij : i < j) :
    (Pairing.ofLexemes ts).partner? i = some j ↔ DyckPartner ts i j := by
  refine ⟨fun hp => ?_, DyckPartner.partner?⟩
  have hb := Bracketed.nested_ofLexemes ts.toArray
  have hj : j < ts.length := hb.partner_lt hp
  obtain ⟨k, hopens, hcloses⟩ := hb.matched hp hij
  obtain ⟨t, ht, hopens⟩ := Option.bind_eq_some_iff.1 hopens
  obtain ⟨u, hu, hcloses⟩ := Option.bind_eq_some_iff.1 hcloses
  have hpaired := hb.pairedWithin_inside hp fun k t _ _ ht hbracket =>
    h.exists_partner (at?_ofLexemes ts k ▸ ht) hbracket
  have hinner := hb.dyck_between (Nat.le_of_lt hj) hpaired
  let b := Bracketed.ofLexemes ts.toArray
  have hi : i ≤ b.size := Nat.le_of_lt (Nat.lt_trans hij hj)
  refine ⟨b.between 0 i, b.between (i + 1) j, b.between (j + 1) ts.length, t, u, k, ?_, ?_, ?_,
    hopens, hinner, hcloses⟩
  · calc ts = b.between 0 ts.length := (between_ofLexemes ts).symm
      _ = b.between 0 i ++ b.between i ts.length := Bracketed.between_append (Nat.zero_le i) hi
      _ = _ := by rw [Bracketed.between_group ht hu hij hj]
  · exact Bracketed.length_between hi
  · rw [Bracketed.length_between (Nat.le_of_lt hj)]
    omega

end Lexemes

end CxxFloor
