/-
# The brackets that are open at a place

The openers before an index whose closers stand at or behind it
(`Pairing.openAt`).  They are read off the table of a whole file and know
nothing of a walk, so they are what the memory of a walk can be compared with.

In a nested table the list changes at its end only: an opener is added there
(`openAt_opener`) and a closer removes it from there (`openAt_closer`).  A
stretch whose brackets are paired among themselves changes nothing
(`openAt_stretch`), however it is passed over.
-/
import CxxFloor.Proofs.Bracket.Nesting
import Mathlib.Data.List.Sort

namespace CxxFloor

/-! ## Openers and closers -/

namespace Lexeme

theorem opens?_eq_some {t : Lexeme} {k : Bracket} (h : t.opens? = some k) :
    t.isPunct k.opener = true := by
  have := List.find?_some h
  simpa using this

theorem closes?_eq_some {t : Lexeme} {k : Bracket} (h : t.closes? = some k) :
    t.isPunct k.closer = true := by
  have := List.find?_some h
  simpa using this

theorem isPunct_unique {t : Lexeme} {s s' : String} (h : t.isPunct s = true)
    (h' : t.isPunct s' = true) : s = s' := by
  simp only [isPunct, Bool.and_eq_true, beq_iff_eq] at h h'
  exact h.2.symm.trans h'.2

theorem opens?_of_isPunct {t : Lexeme} {k : Bracket} (h : t.isPunct k.opener = true) :
    t.opens? = some k := by
  unfold opens?
  cases hf : Bracket.all.find? fun b => t.isPunct b.opener with
  | none =>
      have := List.find?_eq_none.1 hf k (by cases k <;> simp [Bracket.all])
      exact absurd h this
  | some k' =>
      have := isPunct_unique h (opens?_eq_some hf)
      cases k <;> cases k' <;> simp_all [Bracket.opener]

theorem closes?_of_isPunct {t : Lexeme} {k : Bracket} (h : t.isPunct k.closer = true) :
    t.closes? = some k := by
  unfold closes?
  cases hf : Bracket.all.find? fun b => t.isPunct b.closer with
  | none =>
      have := List.find?_eq_none.1 hf k (by cases k <;> simp [Bracket.all])
      exact absurd h this
  | some k' =>
      have := isPunct_unique h (closes?_eq_some hf)
      cases k <;> cases k' <;> simp_all [Bracket.closer]

theorem not_opens?_of_closes? {t : Lexeme} {k k' : Bracket} (h : t.closes? = some k) :
    t.opens? ≠ some k' := by
  intro h'
  have := isPunct_unique (closes?_eq_some h) (opens?_eq_some h')
  cases k <;> cases k' <;> simp [Bracket.opener, Bracket.closer] at this

end Lexeme

namespace Bracketed

def opensAt (b : Bracketed) (i : Nat) (k : Bracket) : Prop :=
  (b.at? i).bind Lexeme.opens? = some k

def closesAt (b : Bracketed) (i : Nat) (k : Bracket) : Prop :=
  (b.at? i).bind Lexeme.closes? = some k

variable {b : Bracketed} {i j : Nat} {k : Bracket}

theorem punctAt_iff {s : String} :
    b.punctAt i s = true ↔ ∃ t, b.at? i = some t ∧ t.isPunct s = true := by
  simp [punctAt, Option.any_eq_true]

theorem punctAt_unique {s s' : String} (h : b.punctAt i s = true)
    (hne : s' ≠ s) : b.punctAt i s' = false := by
  obtain ⟨t, ht, hp⟩ := punctAt_iff.1 h
  refine Bool.eq_false_iff.2 fun h' => hne ?_
  obtain ⟨u, hu, hp'⟩ := punctAt_iff.1 h'
  rw [ht] at hu
  cases hu
  exact Lexeme.isPunct_unique hp' hp

theorem opensAt_of_punctAt (h : b.punctAt i k.opener = true) : b.opensAt i k := by
  obtain ⟨t, ht, hp⟩ := punctAt_iff.1 h
  simp [opensAt, ht, Lexeme.opens?_of_isPunct hp]

theorem punctAt_of_opensAt (h : b.opensAt i k) : b.punctAt i k.opener = true := by
  obtain ⟨t, ht, hp⟩ := Option.bind_eq_some_iff.1 h
  exact punctAt_iff.2 ⟨t, ht, Lexeme.opens?_eq_some hp⟩

theorem closesAt_of_punctAt (h : b.punctAt i k.closer = true) : b.closesAt i k := by
  obtain ⟨t, ht, hp⟩ := punctAt_iff.1 h
  simp [closesAt, ht, Lexeme.closes?_of_isPunct hp]

theorem punctAt_of_closesAt (h : b.closesAt i k) : b.punctAt i k.closer = true := by
  obtain ⟨t, ht, hp⟩ := Option.bind_eq_some_iff.1 h
  exact punctAt_iff.2 ⟨t, ht, Lexeme.closes?_eq_some hp⟩

theorem punctInAt_of_punctAt {s : String} {ss : List String} (h : b.punctAt i s = true)
    (hs : s ∈ ss) : b.punctInAt i ss = true := by
  obtain ⟨t, ht, hp⟩ := punctAt_iff.1 h
  simp only [Lexeme.isPunct, Bool.and_eq_true, beq_iff_eq] at hp
  simp [punctInAt, ht, Lexeme.isPunctIn, hp.1, hp.2, hs]

theorem wordInAt_of_punctAt {s : String} {words : List String} (h : b.punctAt i s = true) :
    b.wordInAt i words = false := by
  obtain ⟨t, ht, hpunct⟩ := punctAt_iff.1 h
  simp only [Lexeme.isPunct, Bool.and_eq_true, beq_iff_eq] at hpunct
  simp [wordInAt, ht, Lexeme.isWordIn, hpunct.1]

theorem opensAt_unique {k' : Bracket} (h : b.opensAt i k) (h' : b.opensAt i k') : k = k' := by
  unfold opensAt at h h'
  exact Option.some.inj (h.symm.trans h')

theorem not_opensAt_of_closesAt {k' : Bracket} (h : b.closesAt i k) : ¬ b.opensAt i k' := by
  intro h'
  obtain ⟨t, ht, hc⟩ := Option.bind_eq_some_iff.1 h
  obtain ⟨u, hu, ho⟩ := Option.bind_eq_some_iff.1 h'
  rw [ht] at hu
  cases hu
  exact Lexeme.not_opens?_of_closes? hc ho

theorem partner?_of_closer? (h : b.closer? i = some j) : b.pairs.partner? i = some j :=
  (Option.filter_eq_some_iff.1 h).1

theorem closer?_of_operandEnd? (h : b.operandEnd? i = some j) : b.closer? i = some j := by
  unfold operandEnd? at h
  split at h
  · exact h
  · cases h

theorem closer?_of_attributeEnd? (h : b.attributeEnd? i = some j) : b.closer? i = some j := by
  unfold attributeEnd? at h
  split at h
  · exact h
  · cases h

theorem operandEnd?_of_opensAt (ho : b.opensAt i k) (hk : k ≠ .curly) :
    b.operandEnd? i = b.closer? i := by
  have hmem : k.opener ∈ ["(", "["] := by
    cases k with
    | round => simp [Bracket.opener]
    | square => simp [Bracket.opener]
    | curly => exact absurd rfl hk
  unfold operandEnd?
  rw [if_pos (punctInAt_of_punctAt (punctAt_of_opensAt ho) hmem)]

namespace Nested

theorem lt_of_opensAt (hb : b.Nested) (h : b.pairs.partner? i = some j) (ho : b.opensAt i k) :
    i < j := by
  rcases Nat.lt_trichotomy i j with hlt | heq | hgt
  · exact hlt
  · exact absurd heq (hb.partner_ne h)
  · obtain ⟨k', -, hc⟩ := hb.matched (hb.partner_symm h) hgt
    exact absurd ho (not_opensAt_of_closesAt hc)

theorem gt_of_closesAt (hb : b.Nested) (h : b.pairs.partner? i = some j) (hc : b.closesAt i k) :
    j < i := by
  rcases Nat.lt_trichotomy i j with hlt | heq | hgt
  · obtain ⟨k', ho, -⟩ := hb.matched h hlt
    exact absurd ho (not_opensAt_of_closesAt hc)
  · exact absurd heq (hb.partner_ne h)
  · exact hgt

theorem opensAt_of_closesAt (hb : b.Nested) (h : b.pairs.partner? i = some j)
    (hc : b.closesAt i k) : b.opensAt j k := by
  obtain ⟨k', ho, hc'⟩ := hb.matched (hb.partner_symm h) (hb.gt_of_closesAt h hc)
  have : k' = k := Option.some.inj (hc'.symm.trans hc)
  rw [← this]
  exact ho

theorem closesAt_of_opensAt (hb : b.Nested) (h : b.pairs.partner? i = some j)
    (ho : b.opensAt i k) : b.closesAt j k := by
  obtain ⟨k', ho', hc⟩ := hb.matched h (hb.lt_of_opensAt h ho)
  obtain rfl := opensAt_unique ho' ho
  exact hc

theorem closer?_of_opensAt (hb : b.Nested) (h : b.pairs.partner? i = some j)
    (ho : b.opensAt i k) : b.closer? i = some j :=
  Option.filter_eq_some_iff.2 ⟨h, by simpa using hb.lt_of_opensAt h ho⟩

theorem lt_size (hb : b.Nested) (h : b.pairs.partner? i = some j) : i < b.size :=
  hb.partner_lt (hb.partner_symm h)

end Nested

theorem Nested.bracket_of_partner (hb : b.Nested) (h : b.pairs.partner? i = some j) :
    ∃ k, b.opensAt i k ∨ b.closesAt i k := by
  rcases Nat.lt_or_gt_of_ne (hb.partner_ne h) with hlt | hgt
  · obtain ⟨k, ho, -⟩ := hb.matched h hlt
    exact ⟨k, Or.inl ho⟩
  · obtain ⟨k, -, hc⟩ := hb.matched (hb.partner_symm h) hgt
    exact ⟨k, Or.inr hc⟩

theorem bracket_text {t : Lexeme} (ht : b.at? i = some t)
    (h : b.opensAt i k ∨ b.closesAt i k) :
    t.kind = .punctuator ∧ t.text ∈ ["(", "[", "\x7b", ")", "]", "\x7d"] := by
  have hpunct : t.isPunct k.opener = true ∨ t.isPunct k.closer = true := by
    rcases h with h | h
    · obtain ⟨u, hu, hp⟩ := punctAt_iff.1 (punctAt_of_opensAt h)
      rw [ht] at hu
      cases hu
      exact Or.inl hp
    · obtain ⟨u, hu, hp⟩ := punctAt_iff.1 (punctAt_of_closesAt h)
      rw [ht] at hu
      cases hu
      exact Or.inr hp
  simp only [Lexeme.isPunct, Bool.and_eq_true, beq_iff_eq] at hpunct
  rcases hpunct with ⟨hk, ht⟩ | ⟨hk, ht⟩ <;> refine ⟨hk, ?_⟩ <;> rw [ht] <;> cases k <;>
    simp [Bracket.opener, Bracket.closer]

theorem Nested.partner?_eq_none (hb : b.Nested) {t : Lexeme} (ht : b.at? i = some t)
    (h : ¬ (t.kind = .punctuator ∧ t.text ∈ ["(", "[", "\x7b", ")", "]", "\x7d"])) :
    b.pairs.partner? i = none := by
  cases hp : b.pairs.partner? i with
  | none => rfl
  | some j =>
      obtain ⟨k, hk⟩ := hb.bracket_of_partner hp
      exact absurd (bracket_text ht hk) h

theorem Nested.partner?_of_punctAt (hb : b.Nested) {s : String} (h : b.punctAt i s = true)
    (hs : s ∉ ["(", "[", "\x7b", ")", "]", "\x7d"]) : b.pairs.partner? i = none := by
  obtain ⟨t, ht, hp⟩ := punctAt_iff.1 h
  simp only [Lexeme.isPunct, Bool.and_eq_true, beq_iff_eq] at hp
  refine hb.partner?_eq_none ht fun hbracket => hs ?_
  rw [← hp.2]
  exact hbracket.2

theorem Nested.partner?_of_name (hb : b.Nested) (h : b.nameAt i = true) :
    b.pairs.partner? i = none := by
  obtain ⟨t, ht, hname⟩ := (Option.any_eq_true _ _).1 h
  refine hb.partner?_eq_none ht fun hbracket => ?_
  rw [show t.kind = .word by simpa [Lexeme.isName] using hname] at hbracket
  exact absurd hbracket.1 (by decide)

theorem nameAt_of_wordAt {word : String} (h : b.wordAt i word = true) : b.nameAt i = true := by
  obtain ⟨t, ht, hword⟩ := (Option.any_eq_true _ _).1 h
  simp only [Lexeme.isWord, Bool.and_eq_true] at hword
  exact (Option.any_eq_true _ _).2 ⟨t, ht, hword.1⟩

end Bracketed

/-! ## Open brackets -/

namespace Pairing

/-- The openers before index `i` whose closers stand at `i` or behind it, in order. -/
def openAt (p : Pairing) (i : Nat) : List Nat :=
  (List.range i).filter fun o => (p.closer? o).any (i ≤ ·)

theorem closer?_eq_some {p : Pairing} {i j : Nat} :
    p.closer? i = some j ↔ p.partner? i = some j ∧ i < j := by
  simp [closer?, Option.filter_eq_some_iff]

theorem mem_openAt {p : Pairing} {i o : Nat} :
    o ∈ p.openAt i ↔ o < i ∧ ∃ c, p.partner? o = some c ∧ i ≤ c := by
  simp only [openAt, List.mem_filter, List.mem_range, Option.any_eq_true, closer?_eq_some,
    decide_eq_true_eq]
  constructor
  · rintro ⟨ho, c, ⟨hc, -⟩, hi⟩
    exact ⟨ho, c, hc, hi⟩
  · rintro ⟨ho, c, hc, hi⟩
    exact ⟨ho, c, ⟨hc, Nat.lt_of_lt_of_le ho hi⟩, hi⟩

theorem openAt_sorted (p : Pairing) (i : Nat) : (p.openAt i).Pairwise (· < ·) :=
  List.pairwise_lt_range.filter _

theorem openAt_eq {p : Pairing} {i : Nat} {os : List Nat} (hsorted : os.Pairwise (· < ·))
    (hmem : ∀ o, o ∈ p.openAt i ↔ o ∈ os) : p.openAt i = os :=
  List.Pairwise.eq_of_mem_iff (p.openAt_sorted i) hsorted (fun {o} => hmem o)

end Pairing

namespace Bracketed.Nested

variable {b : Bracketed} {i j o c : Nat}

/-- A stretch whose brackets are paired among themselves leaves the open brackets as they are. -/
theorem openAt_stretch (hb : b.Nested) (hij : i ≤ j)
    (hclosed : ∀ k l, i ≤ k → k < j → b.pairs.partner? k = some l → i ≤ l ∧ l < j) :
    b.pairs.openAt j = b.pairs.openAt i := by
  refine Pairing.openAt_eq (b.pairs.openAt_sorted i) ?_
  intro o
  rw [Pairing.mem_openAt, Pairing.mem_openAt]
  constructor
  · rintro ⟨hoj, c, hc, hjc⟩
    have hoi : o < i := by
      rcases Nat.lt_or_ge o i with h | h
      · exact h
      · have := hclosed o c h hoj hc
        omega
    exact ⟨hoi, c, hc, Nat.le_trans hij hjc⟩
  · rintro ⟨hoi, c, hc, hic⟩
    refine ⟨Nat.lt_of_lt_of_le hoi hij, c, hc, ?_⟩
    rcases Nat.lt_or_ge c j with h | h
    · have := hclosed c o hic h (hb.partner_symm hc)
      omega
    · exact h

theorem openAt_unpaired (hb : b.Nested) (h : b.pairs.partner? i = none) :
    b.pairs.openAt (i + 1) = b.pairs.openAt i := by
  refine hb.openAt_stretch (Nat.le_succ i) ?_
  intro k l hik hki hk
  have : k = i := by omega
  rw [this, h] at hk
  cases hk

theorem openAt_group (hb : b.Nested) (h : b.pairs.partner? i = some c) (hic : i < c) :
    b.pairs.openAt (c + 1) = b.pairs.openAt i := by
  refine hb.openAt_stretch (by omega) ?_
  intro k l hik hkc hk
  rcases Nat.lt_trichotomy i k with hlt | heq | hgt
  · rcases Nat.lt_or_ge k c with hkc' | hkc'
    · have := hb.inside h hk hlt hkc'
      omega
    · have hkc : k = c := by omega
      have := hb.partner_symm h
      rw [hkc, this] at hk
      cases hk
      omega
  · rw [← heq, h] at hk
    cases hk
    omega
  · omega

theorem openAt_opener (hb : b.Nested) (h : b.pairs.partner? i = some c) (hic : i < c) :
    b.pairs.openAt (i + 1) = b.pairs.openAt i ++ [i] := by
  have hsorted : (b.pairs.openAt i ++ [i]).Pairwise (· < ·) := by
    refine List.pairwise_append.2 ⟨b.pairs.openAt_sorted i, List.pairwise_singleton _ _, ?_⟩
    intro o ho j hj
    rw [List.mem_singleton] at hj
    exact hj ▸ (Pairing.mem_openAt.1 ho).1
  refine Pairing.openAt_eq hsorted ?_
  intro o
  rw [List.mem_append, List.mem_singleton, Pairing.mem_openAt, Pairing.mem_openAt]
  constructor
  · rintro ⟨ho, d, hd, hid⟩
    rcases Nat.lt_or_ge o i with hlt | hge
    · exact Or.inl ⟨hlt, d, hd, Nat.le_of_succ_le hid⟩
    · exact Or.inr (by omega)
  · rintro (⟨ho, d, hd, hid⟩ | rfl)
    · refine ⟨Nat.lt_succ_of_lt ho, d, hd, ?_⟩
      -- `o` is not the partner of `i`, whose partner stands behind it
      have hne : i ≠ d := by
        rintro rfl
        have := hb.partner_symm hd
        rw [h] at this
        cases this
        omega
      omega
    · exact ⟨Nat.lt_succ_self o, c, h, hic⟩

theorem openAt_closer (hb : b.Nested) (h : b.pairs.partner? i = some o) (hoi : o < i) :
    b.pairs.openAt i = b.pairs.openAt (i + 1) ++ [o] := by
  have ho := hb.partner_symm h
  -- an opener behind `o` is closed before `i`
  have hbefore : ∀ q d, b.pairs.partner? q = some d → q < i → i < d → q < o := by
    intro q d hd hqi hid
    rcases Nat.lt_trichotomy q o with hlt | heq | hgt
    · exact hlt
    · rw [heq, ho] at hd
      cases hd
      omega
    · have := hb.inside ho hd hgt hqi
      omega
  have hsorted : (b.pairs.openAt (i + 1) ++ [o]).Pairwise (· < ·) := by
    refine List.pairwise_append.2 ⟨b.pairs.openAt_sorted _, List.pairwise_singleton _ _, ?_⟩
    intro q hq j hj
    obtain ⟨hqi, d, hd, hid⟩ := Pairing.mem_openAt.1 hq
    rw [List.mem_singleton] at hj
    subst hj
    have hne : q ≠ i := by
      rintro rfl
      rw [h] at hd
      cases hd
      omega
    exact hbefore q d hd (by omega) hid
  refine Pairing.openAt_eq hsorted ?_
  intro q
  rw [List.mem_append, List.mem_singleton, Pairing.mem_openAt, Pairing.mem_openAt]
  constructor
  · rintro ⟨hqi, d, hd, hid⟩
    rcases Nat.eq_or_lt_of_le hid with rfl | hlt
    · have := hb.partner_symm hd
      rw [h] at this
      cases this
      exact Or.inr rfl
    · exact Or.inl ⟨Nat.lt_succ_of_lt hqi, d, hd, hlt⟩
  · rintro (⟨hqi, d, hd, hid⟩ | rfl)
    · refine ⟨?_, d, hd, Nat.le_of_succ_le hid⟩
      have hne : q ≠ i := by
        rintro rfl
        rw [h] at hd
        cases hd
        omega
      omega
    · exact ⟨hoi, i, ho, Nat.le_refl i⟩

theorem openAt_size (hb : b.Nested) : b.pairs.openAt b.size = [] := by
  refine Pairing.openAt_eq List.Pairwise.nil ?_
  intro o
  rw [Pairing.mem_openAt]
  constructor
  · rintro ⟨-, c, hc, hsize⟩
    exact absurd (hb.partner_lt hc) (Nat.not_lt_of_le hsize)
  · intro h
    simp at h

end Bracketed.Nested

end CxxFloor
