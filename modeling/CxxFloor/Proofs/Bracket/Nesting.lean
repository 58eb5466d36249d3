/-
# The brackets of a file are nested

The pass over the lexemes keeps a stack of pending openers, and a closer may
reach down that stack and give up what lies above.  However wrong the brackets
of a file are, the pairs that come out are nested: of two pairs one lies
inside the other or they do not touch (`Bracketed.Nested`,
`nested_ofLexemes`).  Every walk that looks ahead or remembers open brackets
rests on this.

The invariant of the pass is `Matching.Sound`.  Its one clause that is not
about pairs alone does the work: a pending opener stands inside no pair.  A
closer takes a pending opener, so the new pair cannot cut into an old one.
-/
import CxxFloor.Bracket.Walk

namespace CxxFloor

/-! ## Pairs that do not cross -/

/-- The pair `p` was closed after the pair `q`, and lies behind it or around it. -/
def ClosedAfter (p q : Nat × Nat) : Prop :=
  q.2 < p.2 ∧ (q.2 < p.1 ∨ p.1 < q.1)

theorem ClosedAfter.ends_ne {p q : Nat × Nat} (h : ClosedAfter p q) (hq : q.1 < q.2) :
    (q.1 ≠ p.1 ∧ q.2 ≠ p.1) ∧ (q.1 ≠ p.2 ∧ q.2 ≠ p.2) := by
  unfold ClosedAfter at h
  omega

theorem closedAfter_or {pairs : List (Nat × Nat)} (h : pairs.Pairwise ClosedAfter)
    {p q : Nat × Nat} (hp : p ∈ pairs) (hq : q ∈ pairs) :
    p = q ∨ ClosedAfter p q ∨ ClosedAfter q p := by
  let related (p q : Nat × Nat) : Prop := p = q ∨ ClosedAfter p q ∨ ClosedAfter q p
  have hself : ∀ p ∈ pairs, related p p := fun _ _ => Or.inl rfl
  have hfront : pairs.Pairwise related := h.imp fun h => Or.inr (Or.inl h)
  have hback : pairs.Pairwise (flip related) := h.imp fun h => Or.inr (Or.inr h)
  exact hfront.forall_of_forall_of_flip hself hback hp hq

/-- The lexemes at the ends of a pair open and close the same kind of bracket. -/
def MatchedIn (ts : List Lexeme) (p : Nat × Nat) : Prop :=
  ∃ b : Bracket, ts[p.1]?.bind Lexeme.opens? = some b ∧ ts[p.2]?.bind Lexeme.closes? = some b

namespace Matching

/-- What holds of the pass when the lexemes before index `i` have been read. -/
structure Sound (ts : List Lexeme) (i : Nat) (m : Matching) : Prop where
  /-- The pending openers are listed from the last to the first. -/
  pending_sorted : m.pending.Pairwise fun o q => q.index < o.index
  pending_lt : ∀ o ∈ m.pending, o.index < i
  pending_opens : ∀ o ∈ m.pending, ts[o.index]?.bind Lexeme.opens? = some o.bracket
  /-- A pending opener stands inside no pair. -/
  pending_outside : ∀ o ∈ m.pending, ∀ p ∈ m.pairs, o.index < p.1 ∨ p.2 < o.index
  pairs_closed : m.pairs.Pairwise ClosedAfter
  pairs_lt : ∀ p ∈ m.pairs, p.1 < p.2 ∧ p.2 < i
  pairs_matched : ∀ p ∈ m.pairs, MatchedIn ts p

theorem sound_start (ts : List Lexeme) : Sound ts 0 {} where
  pending_sorted := List.Pairwise.nil
  pending_lt := by simp
  pending_opens := by simp
  pending_outside := by simp
  pairs_closed := List.Pairwise.nil
  pairs_lt := by simp
  pairs_matched := by simp

section Step

variable {ts : List Lexeme} {i : Nat} {m : Matching} {b : Bracket}

theorem Sound.skip (h : Sound ts i m) : Sound ts (i + 1) m where
  pending_sorted := h.pending_sorted
  pending_lt := fun o ho => Nat.lt_succ_of_lt (h.pending_lt o ho)
  pending_opens := h.pending_opens
  pending_outside := h.pending_outside
  pairs_closed := h.pairs_closed
  pairs_lt := fun p hp => ⟨(h.pairs_lt p hp).1, Nat.lt_succ_of_lt (h.pairs_lt p hp).2⟩
  pairs_matched := h.pairs_matched

theorem Sound.push (h : Sound ts i m) (hb : ts[i]?.bind Lexeme.opens? = some b) :
    Sound ts (i + 1) { m with pending := ⟨i, b⟩ :: m.pending } where
  pending_sorted := List.pairwise_cons.2 ⟨h.pending_lt, h.pending_sorted⟩
  pending_lt := by
    intro o ho
    rcases List.mem_cons.1 ho with rfl | ho
    · exact Nat.lt_succ_self i
    · exact Nat.lt_succ_of_lt (h.pending_lt o ho)
  pending_opens := by
    intro o ho
    rcases List.mem_cons.1 ho with rfl | ho
    · exact hb
    · exact h.pending_opens o ho
  pending_outside := by
    intro o ho p hp
    rcases List.mem_cons.1 ho with rfl | ho
    · exact Or.inr (h.pairs_lt p hp).2
    · exact h.pending_outside o ho p hp
  pairs_closed := h.pairs_closed
  pairs_lt := h.skip.pairs_lt
  pairs_matched := h.pairs_matched

/-- What the pass knows when a closer at index `i` takes the pending opener `top`, the openers
above it given up. -/
theorem Sound.take {top : OpenBracket} {rest skipped : List OpenBracket}
    {orphans : List Orphan} (h : Sound ts i m) (hp : m.pending = skipped ++ top :: rest)
    (ht : top.bracket = b) (hb : ts[i]?.bind Lexeme.closes? = some b) :
    Sound ts (i + 1) ⟨rest, (top.index, i) :: m.pairs, orphans⟩ := by
  have hrest : ∀ o ∈ rest, o ∈ m.pending := by
    intro o ho
    rw [hp]
    exact List.mem_append_right _ (List.mem_cons_of_mem _ ho)
  have htop : top ∈ m.pending := by
    rw [hp]
    exact List.mem_append_right _ List.mem_cons_self
  have hsorted := h.pending_sorted
  rw [hp, List.pairwise_append, List.pairwise_cons] at hsorted
  obtain ⟨-, ⟨hbelow, hsorted⟩, -⟩ := hsorted
  refine ⟨hsorted, ?_, ?_, ?_, ?_, ?_, ?_⟩
  · intro o ho
    exact Nat.lt_succ_of_lt (h.pending_lt o (hrest o ho))
  · intro o ho
    exact h.pending_opens o (hrest o ho)
  · intro o ho p hpair
    rcases List.mem_cons.1 hpair with rfl | hpair
    · exact Or.inl (hbelow o ho)
    · exact h.pending_outside o (hrest o ho) p hpair
  · refine List.pairwise_cons.2 ⟨?_, h.pairs_closed⟩
    intro p hpair
    have hlt := (h.pairs_lt p hpair).2
    exact ⟨hlt, (h.pending_outside top htop p hpair).symm⟩
  · intro p hpair
    rcases List.mem_cons.1 hpair with rfl | hpair
    · exact ⟨h.pending_lt top htop, Nat.lt_succ_self i⟩
    · exact h.skip.pairs_lt p hpair
  · intro p hpair
    rcases List.mem_cons.1 hpair with rfl | hpair
    · exact ⟨b, ht ▸ h.pending_opens top htop, hb⟩
    · exact h.pairs_matched p hpair

theorem Sound.close (h : Sound ts i m) (hb : ts[i]?.bind Lexeme.closes? = some b) :
    Sound ts (i + 1) (m.close i b) := by
  unfold Matching.close
  split
  next =>
    -- no pending opener of this kind: only the orphans change
    exact ⟨h.pending_sorted, h.skip.pending_lt, h.pending_opens, h.pending_outside,
      h.pairs_closed, h.skip.pairs_lt, h.pairs_matched⟩
  next top rest hdrop =>
    have hsplit : m.pending = m.pending.takeWhile (·.bracket ≠ b) ++ top :: rest := by
      rw [← hdrop, List.takeWhile_append_dropWhile]
    have htop : top.bracket = b := by
      have := List.head?_dropWhile_not (fun o : OpenBracket => decide (o.bracket ≠ b)) m.pending
      rw [hdrop] at this
      simpa using this
    exact h.take hsplit htop hb

theorem Sound.step {t : Lexeme} (h : Sound ts i m) (ht : ts[i]? = some t) :
    Sound ts (i + 1) (m.step i t) := by
  unfold Matching.step
  split
  next b hb => exact h.push (by simp [ht, hb])
  next =>
    split
    next b hb => exact h.close (by simp [ht, hb])
    next => exact h.skip

end Step

theorem Sound.steps {ts : List Lexeme} {i : Nat} {m : Matching} {us : List Lexeme}
    (h : Sound ts i m) (hus : ts.drop i = us) : Sound ts (i + us.length) (m.steps i us) := by
  induction us generalizing i m with
  | nil => exact h
  | cons t us ih =>
    have ht : ts[i]? = some t := by
      have := congrArg List.head? hus
      simpa using this
    have hus' : ts.drop (i + 1) = us := by
      have := congrArg List.tail hus
      simpa using this
    have := ih (h.step ht) hus'
    rw [List.length_cons, Nat.add_comm us.length 1, ← Nat.add_assoc]
    exact this

theorem sound_ofLexemes (ts : List Lexeme) : Sound ts ts.length (ofLexemes ts) := by
  have := (sound_start ts).steps List.drop_zero
  rwa [Nat.zero_add] at this

end Matching

/-! ## The table of nested pairs -/

namespace Pairing

def link (table : Array (Option Nat)) (p : Nat × Nat) : Array (Option Nat) :=
  (table.setIfInBounds p.1 (some p.2)).setIfInBounds p.2 (some p.1)

theorem foldl_link_of_not_end {i : Nat} (pairs : List (Nat × Nat)) (table : Array (Option Nat))
    (h : ∀ p ∈ pairs, p.1 ≠ i ∧ p.2 ≠ i) : (pairs.foldl link table)[i]? = table[i]? := by
  induction pairs generalizing table with
  | nil => rfl
  | cons p pairs ih =>
    obtain ⟨h₁, h₂⟩ := h p List.mem_cons_self
    rw [List.foldl_cons, ih _ fun q hq => h q (List.mem_cons_of_mem _ hq)]
    simp [link, h₁, h₂]

/-- Both ends of a pair hold each other. -/
theorem foldl_link_of_mem {size : Nat} {pairs : List (Nat × Nat)} {p : Nat × Nat}
    (hclosed : pairs.Pairwise ClosedAfter) (hlt : ∀ q ∈ pairs, q.1 < q.2 ∧ q.2 < size)
    (hp : p ∈ pairs) (table : Array (Option Nat)) (hsize : table.size = size) :
    (pairs.foldl link table)[p.1]? = some (some p.2) ∧
      (pairs.foldl link table)[p.2]? = some (some p.1) := by
  induction pairs generalizing table with
  | nil => simp at hp
  | cons q pairs ih =>
    obtain ⟨hafter, hclosed⟩ := List.pairwise_cons.1 hclosed
    obtain ⟨hq, hqsize⟩ := hlt q List.mem_cons_self
    have hlt' : ∀ r ∈ pairs, r.1 < r.2 ∧ r.2 < size := fun r hr =>
      hlt r (List.mem_cons_of_mem _ hr)
    rw [List.foldl_cons]
    rcases List.mem_cons.1 hp with rfl | hp
    · have hne : ∀ r ∈ pairs, (r.1 ≠ p.1 ∧ r.2 ≠ p.1) ∧ (r.1 ≠ p.2 ∧ r.2 ≠ p.2) :=
        fun r hr => (hafter r hr).ends_ne (hlt' r hr).1
      rw [foldl_link_of_not_end pairs _ fun r hr => (hne r hr).1,
        foldl_link_of_not_end pairs _ fun r hr => (hne r hr).2]
      have hsnd : p.2 < table.size := hsize ▸ hqsize
      have hfst : p.1 < table.size := Nat.lt_trans hq hsnd
      constructor
      · simp [link, hfst, Nat.ne_of_gt hq]
      · simp [link, hsnd]
    · exact ih hclosed hlt' hp _ (by simp [link, hsize])

/-- The table of pairs that do not cross holds exactly these, both ways. -/
theorem partner?_ofPairs {size : Nat} {pairs : List (Nat × Nat)}
    (hclosed : pairs.Pairwise ClosedAfter) (hlt : ∀ p ∈ pairs, p.1 < p.2 ∧ p.2 < size)
    (i j : Nat) :
    (ofPairs size pairs).partner? i = some j ↔ (i, j) ∈ pairs ∨ (j, i) ∈ pairs := by
  have htable : (ofPairs size pairs).table = pairs.foldl link (Array.replicate size none) := rfl
  unfold partner?
  rw [htable]
  constructor
  · intro h
    by_cases hend : ∃ p ∈ pairs, p.1 = i ∨ p.2 = i
    · obtain ⟨p, hp, hi⟩ := hend
      obtain ⟨h₁, h₂⟩ :=
        foldl_link_of_mem hclosed hlt hp (Array.replicate size none) (Array.size_replicate ..)
      rcases hi with rfl | rfl
      · rw [h₁] at h
        cases h
        exact Or.inl hp
      · rw [h₂] at h
        cases h
        exact Or.inr hp
    · have hnot : ∀ p ∈ pairs, p.1 ≠ i ∧ p.2 ≠ i := by
        intro p hp
        exact ⟨fun hi => hend ⟨p, hp, Or.inl hi⟩, fun hi => hend ⟨p, hp, Or.inr hi⟩⟩
      rw [foldl_link_of_not_end pairs _ hnot] at h
      simp only [Array.getElem?_replicate] at h
      split at h <;> simp at h
  · rintro (hp | hp)
    · obtain ⟨h, -⟩ :=
        foldl_link_of_mem hclosed hlt hp (Array.replicate size none) (Array.size_replicate ..)
      simp [h]
    · obtain ⟨-, h⟩ :=
        foldl_link_of_mem hclosed hlt hp (Array.replicate size none) (Array.size_replicate ..)
      simp [h]

theorem partner?_ofLexemes (ts : List Lexeme) (i j : Nat) :
    (ofLexemes ts).partner? i = some j ↔
      (i, j) ∈ (Matching.ofLexemes ts).pairs ∨ (j, i) ∈ (Matching.ofLexemes ts).pairs :=
  partner?_ofPairs (Matching.sound_ofLexemes ts).pairs_closed
    (Matching.sound_ofLexemes ts).pairs_lt i j

end Pairing

/-! ## Nested brackets -/

namespace Bracketed

/-- What a walk may rely on about the table of a file's brackets. -/
structure Nested (b : Bracketed) : Prop where
  partner_lt : ∀ {i j : Nat}, b.pairs.partner? i = some j → j < b.size
  partner_symm : ∀ {i j : Nat}, b.pairs.partner? i = some j → b.pairs.partner? j = some i
  partner_ne : ∀ {i j : Nat}, b.pairs.partner? i = some j → i ≠ j
  /-- A pair opens and closes the same kind of bracket. -/
  matched : ∀ {i j : Nat}, b.pairs.partner? i = some j → i < j →
    ∃ k : Bracket, (b.at? i).bind Lexeme.opens? = some k ∧ (b.at? j).bind Lexeme.closes? = some k
  /-- Two pairs of which one opens inside the other lie inside each other. -/
  inside : ∀ {i j k l : Nat}, b.pairs.partner? i = some j → b.pairs.partner? k = some l →
    i < k → k < j → i < l ∧ l < j

theorem nested_ofLexemes (ts : Array Lexeme) : (ofLexemes ts).Nested := by
  have h := Matching.sound_ofLexemes ts.toList
  have hlt : ∀ p ∈ (Matching.ofLexemes ts.toList).pairs, p.1 < p.2 ∧ p.2 < ts.toList.length :=
    h.pairs_lt
  have hpartner : ∀ i j, (ofLexemes ts).pairs.partner? i = some j ↔
      (i, j) ∈ (Matching.ofLexemes ts.toList).pairs ∨
        (j, i) ∈ (Matching.ofLexemes ts.toList).pairs :=
    Pairing.partner?_ofLexemes ts.toList
  have hside : ∀ {i j : Nat}, (ofLexemes ts).pairs.partner? i = some j → i < j →
      (i, j) ∈ (Matching.ofLexemes ts.toList).pairs := by
    intro i j hij hlt'
    rcases (hpartner i j).1 hij with hp | hp
    · exact hp
    · exact absurd (hlt _ hp).1 (Nat.lt_asymm hlt')
  refine ⟨?_, ?_, ?_, ?_, ?_⟩
  · intro i j hij
    rcases (hpartner i j).1 hij with hp | hp
    · exact (hlt _ hp).2
    · exact Nat.lt_trans (hlt _ hp).1 (hlt _ hp).2
  · intro i j hij
    exact (hpartner j i).2 ((hpartner i j).1 hij).symm
  · rintro i j hij rfl
    rcases (hpartner i i).1 hij with hp | hp <;> exact Nat.lt_irrefl i (hlt _ hp).1
  · intro i j hij hlt'
    obtain ⟨k, hopen, hclose⟩ := h.pairs_matched _ (hside hij hlt')
    exact ⟨k, by simpa [at?, ofLexemes] using hopen, by simpa [at?, ofLexemes] using hclose⟩
  · intro i j k l hij hkl hik hkj
    have hp := hside hij (Nat.lt_trans hik hkj)
    -- the second pair, opener first
    rcases (hpartner k l).1 hkl with hq | hq
    all_goals
      have hapart := closedAfter_or h.pairs_closed hp hq
      have := (hlt _ hq).1
      simp only [ClosedAfter, Prod.mk.injEq] at hapart this
      omega

end Bracketed

end CxxFloor
