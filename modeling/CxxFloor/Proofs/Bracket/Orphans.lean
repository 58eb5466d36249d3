/-
# Every bracket is accounted for once

A bracket that the pass leaves without a partner is remarked on, and no
bracket is remarked on twice.  The invariant (`Matching.Accounted`) is about
the indices that have been given up together with those that still may be, the
pending ones: no index stands there twice, and the opener of a pair does not
stand there at all.  A closer may: it is remarked on when it reaches over other
openers, and paired all the same.

So where no two tokens share a place, the number of remarks at a token's place
is one for a bracket without a partner (`countP_bracketDiagnostics`).
-/
import CxxFloor.Proofs.Bracket.Depth

namespace CxxFloor

def Diagnostic.isAt (d : Diagnostic) (p : Position) : Bool :=
  d.line == p.line && d.column == p.column

def Lexeme.isBracket (t : Lexeme) : Bool := t.opens?.isSome || t.closes?.isSome

theorem Lexeme.weight_ne_zero_iff {t : Lexeme} : t.weight ≠ 0 ↔ t.isBracket = true := by
  unfold weight isBracket
  cases t.opens? <;> cases t.closes? <;> simp

theorem Lexeme.isBracket_eq_false_iff {t : Lexeme} :
    t.isBracket = false ↔ t.opens? = none ∧ t.closes? = none := by
  unfold isBracket
  cases t.opens? <;> cases t.closes? <;> simp

namespace Matching

/-- The indices given up so far, and those that wait for a closer. -/
def unpaired (m : Matching) : List Nat :=
  m.orphans.map Orphan.index ++ m.pending.map OpenBracket.index

/-- What holds of these indices when the lexemes before index `i` have been read. -/
structure Accounted (i : Nat) (m : Matching) : Prop where
  once : m.unpaired.Nodup
  before : ∀ k ∈ m.unpaired, k < i
  opener_lt : ∀ p ∈ m.pairs, p.1 < i
  /-- The opener of a pair has not been given up. -/
  opener_paired : ∀ p ∈ m.pairs, p.1 ∉ m.unpaired

theorem accounted_start : ({} : Matching).Accounted 0 where
  once := List.nodup_nil
  before := by simp [unpaired]
  opener_lt := by simp
  opener_paired := by simp

variable {m : Matching} {i : Nat}

/-- A closer is given up, or takes an opener from what waits. -/
theorem unpaired_close (m : Matching) (i : Nat) (b : Bracket) :
    ((m.close i b).pairs = m.pairs ∧ ((m.close i b).unpaired).Subperm (i :: m.unpaired)) ∨
      ∃ k, (m.close i b).pairs = (k, i) :: m.pairs ∧
        (k :: (m.close i b).unpaired).Subperm (i :: m.unpaired) := by
  cases hdrop : m.pending.dropWhile (·.bracket ≠ b) with
  | nil =>
      left
      simp only [Matching.close, hdrop, unpaired, List.map_append, true_and]
      refine List.Perm.subperm ?_
      rw [List.append_assoc]
      exact List.perm_middle
  | cons top rest =>
      right
      have hpending : m.pending = m.pending.takeWhile (·.bracket ≠ b) ++ top :: rest := by
        rw [← hdrop, List.takeWhile_append_dropWhile]
      refine ⟨top.index, by simp only [Matching.close, hdrop], ?_⟩
      have hbefore : m.unpaired = m.orphans.map Orphan.index ++
          ((m.pending.takeWhile (·.bracket ≠ b)).map OpenBracket.index ++
            top.index :: rest.map OpenBracket.index) := by
        rw [unpaired, hpending, List.map_append, List.map_cons, ← hpending]
      rw [hbefore]
      simp only [unpaired, Matching.close, hdrop]
      split
      next hempty =>
        -- nothing lies above the opener
        rw [List.isEmpty_iff.1 hempty, List.append_nil]
        exact List.perm_middle.symm.subperm.trans (List.sublist_cons_self _ _).subperm
      next =>
        rw [List.map_append, List.map_cons, List.map_map, List.map_reverse]
        refine (List.perm_iff_count.2 fun k => ?_).subperm
        simp only [List.count_append, List.count_cons, List.count_reverse]
        have hgiven : ∀ os : List OpenBracket,
            os.map (Orphan.index ∘ fun o => .unclosed o.index o.bracket) =
              os.map OpenBracket.index := fun _ => rfl
        have hcloser : (Orphan.unbalanced i b).index = i := rfl
        rw [hgiven, hcloser]
        omega

/-- A lexeme adds its own index at most, and pairs with it at most. -/
theorem unpaired_step (m : Matching) (i : Nat) (t : Lexeme) :
    ((m.step i t).pairs = m.pairs ∧ ((m.step i t).unpaired).Subperm (i :: m.unpaired)) ∨
      ∃ k, (m.step i t).pairs = (k, i) :: m.pairs ∧
        (k :: (m.step i t).unpaired).Subperm (i :: m.unpaired) := by
  unfold Matching.step
  split
  next b hb =>
    refine .inl ⟨rfl, List.Perm.subperm ?_⟩
    exact List.perm_middle
  split
  next b hb => exact unpaired_close m i b
  next => exact .inl ⟨rfl, List.Sublist.subperm (List.sublist_cons_self _ _)⟩

theorem nodup_of_subperm {ks ls : List Nat} (h : ks.Subperm ls) (hls : ls.Nodup) : ks.Nodup := by
  obtain ⟨ks', hperm, hsub⟩ := h
  exact hperm.nodup_iff.1 (hls.sublist hsub)

theorem Accounted.step (h : m.Accounted i) (t : Lexeme) : (m.step i t).Accounted (i + 1) := by
  have hnew : (i :: m.unpaired).Nodup :=
    List.nodup_cons.2 ⟨fun hi => Nat.lt_irrefl i (h.before i hi), h.once⟩
  have hlt : ∀ k ∈ i :: m.unpaired, k < i + 1 := by
    intro k hk
    rcases List.mem_cons.1 hk with rfl | hk
    · exact Nat.lt_succ_self k
    · exact Nat.lt_succ_of_lt (h.before k hk)
  have hkept : ∀ p ∈ m.pairs, p.1 ∉ i :: m.unpaired := by
    intro p hp hmem
    rcases List.mem_cons.1 hmem with hi | hmem
    · exact absurd (h.opener_lt p hp) (by omega)
    · exact h.opener_paired p hp hmem
  have hopener : ∀ p ∈ m.pairs, p.1 < i + 1 := fun p hp => Nat.lt_succ_of_lt (h.opener_lt p hp)
  rcases unpaired_step m i t with ⟨hpairs, hsub⟩ | ⟨k, hpairs, hsub⟩
  · rw [← hpairs] at hkept hopener
    exact ⟨nodup_of_subperm hsub hnew, fun k hk => hlt k (hsub.subset hk), hopener,
      fun p hp hmem => hkept p hp (hsub.subset hmem)⟩
  · obtain ⟨hk, hnodup⟩ := List.nodup_cons.1 (nodup_of_subperm hsub hnew)
    have hsub' : ∀ l ∈ (m.step i t).unpaired, l ∈ i :: m.unpaired := fun l hl =>
      hsub.subset (List.mem_cons_of_mem k hl)
    refine ⟨hnodup, fun l hl => hlt l (hsub' l hl), ?_, ?_⟩
    all_goals
      intro p hp
      rw [hpairs] at hp
      rcases List.mem_cons.1 hp with rfl | hp
    · exact hlt k (hsub.subset List.mem_cons_self)
    · exact hopener p hp
    · exact hk
    · exact fun hmem => hkept p hp (hsub' _ hmem)

theorem Accounted.steps (h : m.Accounted i) (ts : List Lexeme) :
    (m.steps i ts).Accounted (i + ts.length) := by
  induction ts generalizing m i with
  | nil => exact h
  | cons t ts ih =>
      rw [Matching.steps, List.length_cons, Nat.add_comm ts.length, ← Nat.add_assoc]
      exact ih (h.step t)

theorem accounted_ofLexemes (ts : List Lexeme) : (ofLexemes ts).Accounted ts.length := by
  have := accounted_start.steps ts
  rwa [Nat.zero_add] at this

theorem index_allOrphans (m : Matching) : (m.allOrphans.map Orphan.index).Perm m.unpaired := by
  rw [allOrphans, List.map_append, List.map_map, List.map_reverse]
  exact (List.reverse_perm _).append_left _

end Matching

section Remarks

variable {ts : List Lexeme} {k l : Nat}

theorem count_allOrphans_le (ts : List Lexeme) (k : Nat) :
    ((Matching.ofLexemes ts).allOrphans.map Orphan.index).count k ≤ 1 := by
  rw [(Matching.index_allOrphans _).count_eq]
  exact List.nodup_iff_count_le_one.1 (Matching.accounted_ofLexemes ts).once k

theorem count_allOrphans_of_paired (h : (Pairing.ofLexemes ts).partner? k = some l) (hkl : k < l) :
    ((Matching.ofLexemes ts).allOrphans.map Orphan.index).count k = 0 := by
  have hpair : (k, l) ∈ (Matching.ofLexemes ts).pairs := by
    rcases (Pairing.partner?_ofLexemes ts k l).1 h with hp | hp
    · exact hp
    · exact absurd ((Matching.sound_ofLexemes ts).pairs_lt _ hp).1 (Nat.lt_asymm hkl)
  rw [(Matching.index_allOrphans _).count_eq]
  exact List.count_eq_zero.2 ((Matching.accounted_ofLexemes ts).opener_paired _ hpair)

theorem count_allOrphans_of_unpaired {t : Lexeme} (ht : ts[k]? = some t) (hbracket : t.isBracket = true)
    (h : (Pairing.ofLexemes ts).partner? k = none) :
    ((Matching.ofLexemes ts).allOrphans.map Orphan.index).count k = 1 := by
  have hnodup := (Matching.index_allOrphans _).nodup_iff.2 (Matching.accounted_ofLexemes ts).once
  refine List.count_eq_one_of_mem hnodup ?_
  refine (partner_or_orphan ht (Lexeme.weight_ne_zero_iff.2 hbracket)).resolve_left ?_
  rintro ⟨l, hl⟩
  rw [h] at hl
  cases hl

/-- Where no two tokens share a place, a token's place has as many remarks as its index was given
up. -/
theorem countP_bracketDiagnostics {ts : List Token} {t : Token}
    (hplaces : (ts.map fun t => (t.start.line, t.start.column)).Nodup) (ht : ts[k]? = some t) :
    (bracketDiagnostics ts).countP (·.isAt t.start) =
      ((Matching.ofLexemes (ts.map (·.toLexeme))).allOrphans.map Orphan.index).count k := by
  rw [bracketDiagnostics, List.countP_filterMap, List.count, List.countP_map]
  refine List.countP_congr fun o ho => ?_
  have hlt : o.index < ts.length := by
    have := Matching.index_lt_of_mem_allOrphans ho
    rwa [List.length_map] at this
  obtain ⟨hk, rfl⟩ := List.getElem?_eq_some_iff.1 ht
  have hsame : (ts[o.index].start.line = ts[k].start.line ∧
      ts[o.index].start.column = ts[k].start.column) ↔ o.index = k := by
    have := @List.Nodup.getElem_inj_iff _ _ hplaces o.index (by simpa) k (by simpa)
    simpa using this
  simpa [hlt, Diagnostic.isAt, Int.ofNat_inj] using hsame

end Remarks

end CxxFloor
