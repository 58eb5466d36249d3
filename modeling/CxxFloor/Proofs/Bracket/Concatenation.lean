/-
# The brackets of two files in a row

Where the first of two files leaves no orphan, the pass over both goes into
the second with no pending opener, and does there what it does on the second
file alone (`ofLexemes_append`).  So the table of both files is the table of
the first with that of the second behind it (`partner?_append_left`,
`partner?_append_right`), and the orphans are those of the second, moved.
-/
import CxxFloor.Proofs.Bracket.Nesting
import CxxFloor.Proofs.Token.Concatenation

namespace CxxFloor

def OpenBracket.shift (d : Nat) (o : OpenBracket) : OpenBracket := ⟨d + o.index, o.bracket⟩

/-- The orphan moved on by `d`. -/
def Orphan.shift (d : Nat) : Orphan → Orphan
  | unbalanced i b => unbalanced (d + i) b
  | unclosed i b => unclosed (d + i) b

@[simp] theorem Orphan.index_shift (d : Nat) (o : Orphan) : (o.shift d).index = d + o.index := by
  cases o <;> rfl

@[simp] theorem Orphan.message_shift (d : Nat) (o : Orphan) : (o.shift d).message = o.message := by
  cases o <;> rfl

namespace Matching

/-- What the pass knows `d` lexemes further on, behind a file with these pairs and no orphan. -/
def behind (d : Nat) (pairs : List (Nat × Nat)) (m : Matching) : Matching where
  pending := m.pending.map (OpenBracket.shift d)
  pairs := (m.pairs.map fun p => (d + p.1, d + p.2)) ++ pairs
  orphans := m.orphans.map (Orphan.shift d)

variable {d : Nat} {pairs : List (Nat × Nat)}

theorem close_behind (m : Matching) (i : Nat) (b : Bracket) :
    (m.behind d pairs).close (d + i) b = (m.close i b).behind d pairs := by
  have hbracket : (fun o : OpenBracket => decide (o.bracket ≠ b)) ∘ OpenBracket.shift d
      = fun o => decide (o.bracket ≠ b) := rfl
  unfold close
  simp only [behind, List.takeWhile_map, List.dropWhile_map, hbracket]
  cases m.pending.dropWhile (·.bracket ≠ b) with
  | nil => simp [Orphan.shift]
  | cons top rest =>
      simp only [List.map_cons, List.isEmpty_map]
      split
      · simp [OpenBracket.shift]
      · simp [OpenBracket.shift, Orphan.shift, Function.comp_def]

theorem step_behind (m : Matching) (i : Nat) (t : Lexeme) :
    (m.behind d pairs).step (d + i) t = (m.step i t).behind d pairs := by
  unfold step
  split
  · rfl
  · split
    · exact close_behind m i _
    · rfl

theorem steps_behind (m : Matching) (i : Nat) (ts : List Lexeme) :
    (m.behind d pairs).steps (d + i) ts = (m.steps i ts).behind d pairs := by
  induction ts generalizing m i with
  | nil => rfl
  | cons t ts ih => rw [steps, steps, step_behind, Nat.add_assoc, ih]

theorem steps_append (m : Matching) (i : Nat) (us vs : List Lexeme) :
    m.steps i (us ++ vs) = (m.steps i us).steps (i + us.length) vs := by
  induction us generalizing m i with
  | nil => rfl
  | cons u us ih =>
      rw [List.cons_append, steps, steps, ih, List.length_cons, Nat.add_assoc, Nat.add_comm 1]

theorem ofLexemes_append {us : List Lexeme} (h : (ofLexemes us).allOrphans = [])
    (vs : List Lexeme) :
    ofLexemes (us ++ vs) = (ofLexemes vs).behind us.length (ofLexemes us).pairs := by
  obtain ⟨horphans, hpending⟩ := List.append_eq_nil_iff.1 h
  have hstart : ofLexemes us = ({} : Matching).behind us.length (ofLexemes us).pairs := by
    rw [List.map_eq_nil_iff, List.reverse_eq_nil_iff] at hpending
    calc ofLexemes us
        = ⟨(ofLexemes us).pending, (ofLexemes us).pairs, (ofLexemes us).orphans⟩ := rfl
      _ = ⟨[], (ofLexemes us).pairs, []⟩ := by rw [hpending, horphans]
  calc ofLexemes (us ++ vs)
      = (ofLexemes us).steps (us.length + 0) vs := by rw [ofLexemes, steps_append, Nat.zero_add]; rfl
    _ = (({} : Matching).behind us.length (ofLexemes us).pairs).steps (us.length + 0) vs := by
        rw [← hstart]
    _ = (ofLexemes vs).behind us.length (ofLexemes us).pairs := steps_behind _ _ _

theorem allOrphans_behind (m : Matching) :
    (m.behind d pairs).allOrphans = m.allOrphans.map (Orphan.shift d) := by
  simp [allOrphans, behind, OpenBracket.shift, Orphan.shift, Function.comp_def]

theorem mem_pairs_behind {m : Matching} {p : Nat × Nat} :
    p ∈ (m.behind d pairs).pairs ↔ (∃ q ∈ m.pairs, p = (d + q.1, d + q.2)) ∨ p ∈ pairs := by
  simp only [behind, List.mem_append, List.mem_map, eq_comm]

/-! ## Where orphans stand -/

def Before (i : Nat) (m : Matching) : Prop :=
  (∀ o ∈ m.pending, o.index < i) ∧ ∀ o ∈ m.orphans, o.index < i

theorem Before.close {m : Matching} {i : Nat} (h : m.Before i) (b : Bracket) :
    (m.close i b).Before (i + 1) := by
  have hpending : ∀ o ∈ m.pending, o.index < i + 1 := fun o ho => Nat.lt_succ_of_lt (h.1 o ho)
  have horphans : ∀ o ∈ m.orphans, o.index < i + 1 := fun o ho => Nat.lt_succ_of_lt (h.2 o ho)
  unfold Matching.close
  dsimp only
  split
  next =>
    refine ⟨hpending, fun o ho => ?_⟩
    rcases List.mem_append.1 ho with ho | ho
    · exact horphans o ho
    · rw [List.mem_singleton.1 ho]
      exact Nat.lt_succ_self i
  next top rest hdrop =>
    refine ⟨fun o ho => ?_, fun o ho => ?_⟩
    · refine hpending o (List.dropWhile_subset (·.bracket ≠ b) ?_)
      rw [hdrop]
      exact List.mem_cons_of_mem _ ho
    · rcases List.mem_append.1 ho with ho | ho
      · exact horphans o ho
      split at ho
      · simp at ho
      rcases List.mem_cons.1 ho with rfl | ho
      · exact Nat.lt_succ_self i
      · obtain ⟨p, hp, rfl⟩ := List.mem_map.1 ho
        exact hpending p (List.takeWhile_subset _ (List.mem_reverse.1 hp))

theorem Before.step {m : Matching} {i : Nat} (h : m.Before i) (t : Lexeme) :
    (m.step i t).Before (i + 1) := by
  have hpending : ∀ o ∈ m.pending, o.index < i + 1 := fun o ho => Nat.lt_succ_of_lt (h.1 o ho)
  have horphans : ∀ o ∈ m.orphans, o.index < i + 1 := fun o ho => Nat.lt_succ_of_lt (h.2 o ho)
  unfold Matching.step
  split
  · refine ⟨fun o ho => ?_, horphans⟩
    rcases List.mem_cons.1 ho with rfl | ho
    · exact Nat.lt_succ_self i
    · exact hpending o ho
  · split
    · exact h.close _
    · exact ⟨hpending, horphans⟩

theorem Before.steps {m : Matching} {i : Nat} (h : m.Before i) (ts : List Lexeme) :
    (m.steps i ts).Before (i + ts.length) := by
  induction ts generalizing m i with
  | nil => exact h
  | cons t ts ih =>
      rw [Matching.steps, List.length_cons, Nat.add_comm ts.length, ← Nat.add_assoc]
      exact ih (h.step t)

theorem index_lt_of_mem_allOrphans {ts : List Lexeme} {o : Orphan}
    (h : o ∈ (ofLexemes ts).allOrphans) : o.index < ts.length := by
  have hstart : ({} : Matching).Before 0 := by simp [Before]
  have hend := hstart.steps ts
  rw [Nat.zero_add] at hend
  rcases List.mem_append.1 h with h | h
  · exact hend.2 o h
  · obtain ⟨p, hp, rfl⟩ := List.mem_map.1 h
    exact hend.1 p (List.mem_reverse.1 hp)

end Matching

/-! ## The table -/

namespace Pairing

variable {us : List Lexeme}

theorem partner?_append_left (h : (Matching.ofLexemes us).allOrphans = []) (vs : List Lexeme)
    {i : Nat} (hi : i < us.length) :
    (ofLexemes (us ++ vs)).partner? i = (ofLexemes us).partner? i := by
  refine Option.ext ?_
  intro j
  rw [partner?_ofLexemes, partner?_ofLexemes, Matching.ofLexemes_append h,
    Matching.mem_pairs_behind, Matching.mem_pairs_behind]
  -- a pair of the second file stands behind the first
  have hfront : ∀ p q : Nat × Nat, p.1 = i ∨ p.2 = i →
      p ≠ (us.length + q.1, us.length + q.2) := by
    rintro p q hp rfl
    omega
  constructor
  · rintro ((⟨q, -, hq⟩ | hp) | (⟨q, -, hq⟩ | hp))
    · exact absurd hq (hfront _ q (Or.inl rfl))
    · exact Or.inl hp
    · exact absurd hq (hfront _ q (Or.inr rfl))
    · exact Or.inr hp
  · rintro (hp | hp)
    · exact Or.inl (Or.inr hp)
    · exact Or.inr (Or.inr hp)

theorem partner?_append_right (h : (Matching.ofLexemes us).allOrphans = []) (vs : List Lexeme)
    (i : Nat) : (ofLexemes (us ++ vs)).partner? (us.length + i) =
      ((ofLexemes vs).partner? i).map (us.length + ·) := by
  refine Option.ext ?_
  intro j
  have hus := (Matching.sound_ofLexemes us).pairs_lt
  rw [partner?_ofLexemes, Option.map_eq_some_iff, Matching.ofLexemes_append h,
    Matching.mem_pairs_behind, Matching.mem_pairs_behind]
  simp only [partner?_ofLexemes, Prod.mk.injEq, Nat.add_left_cancel_iff]
  constructor
  · rintro ((⟨q, hq, rfl, rfl⟩ | hp) | (⟨q, hq, rfl, rfl⟩ | hp))
    · exact ⟨q.2, Or.inl hq, rfl⟩
    · have := hus _ hp
      omega
    · exact ⟨q.1, Or.inr hq, rfl⟩
    · have := hus _ hp
      omega
  · rintro ⟨k, hk | hk, rfl⟩
    · exact Or.inl (Or.inl ⟨_, hk, rfl, rfl⟩)
    · exact Or.inr (Or.inl ⟨_, hk, rfl, rfl⟩)

end Pairing

/-! ## Remarks -/

theorem allOrphans_eq_nil {ts : List Token} (h : bracketDiagnostics ts = []) :
    (Matching.ofLexemes (ts.map (·.toLexeme))).allOrphans = [] := by
  refine List.eq_nil_iff_forall_not_mem.2 ?_
  intro o ho
  have hlt := Matching.index_lt_of_mem_allOrphans ho
  rw [List.length_map] at hlt
  have hnone := List.filterMap_eq_nil_iff.1 h o ho
  simp [hlt] at hnone

/-- The remarks on the brackets of two files in a row, the first of which has none. -/
theorem bracketDiagnostics_append {ts : List Token} (h : bracketDiagnostics ts = [])
    (us : List Token) (n l : Nat) :
    bracketDiagnostics (ts ++ us.map (Token.shift n l)) =
      (bracketDiagnostics us).map (Diagnostic.shift l) := by
  have hlexemes : (ts ++ us.map (Token.shift n l)).map (·.toLexeme) =
      ts.map (·.toLexeme) ++ us.map (·.toLexeme) := by
    rw [List.map_append, List.map_map]
    rfl
  unfold bracketDiagnostics
  dsimp only
  rw [hlexemes, Matching.ofLexemes_append (allOrphans_eq_nil h), Matching.allOrphans_behind,
    List.filterMap_map, List.map_filterMap, List.length_map]
  refine congrArg (List.filterMap · _) (funext fun o => ?_)
  have hat : (ts ++ us.map (Token.shift n l))[ts.length + o.index]? =
      us[o.index]?.map (Token.shift n l) := by
    rw [List.getElem?_append_right (Nat.le_add_right _ _), Nat.add_sub_cancel_left,
      List.getElem?_map]
  simp [hat, Token.shift, Position.shift, Diagnostic.shift, Function.comp_def]

end CxxFloor
