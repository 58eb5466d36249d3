/-
# The brackets of a run of lexemes

The pass over a file enters a run of its lexemes with openers pending from
before.  Over the run alone it starts with none.  As long as no opener of the
run is given up for one from before, the openers from before stay below those
of the run and are not looked at (`Matching.Above`), so the two passes make the
same pairs.  The table of the run alone is then the table of the file,
restricted to the run (`Bracketed.slice_eq_ofLexemes`), whatever the brackets
in front of the run and behind it.

Two conditions are enough for that: everything that is open in front of the run
is still open behind it (`Bracketed.KeepsOpen`), or the file leaves no orphan.
Each of them says less than that the run is balanced: it may open brackets and
leave them open, and it may hold closers without an opener.
-/
import CxxFloor.Proofs.Bracket.Concatenation
import CxxFloor.Proofs.Bracket.Open
import Mathlib.Data.List.TakeWhile

namespace CxxFloor

namespace Matching

/-! ## What the pass adds -/

section Growth

variable {m : Matching} {i : Nat}

theorem pairs_subset_step (m : Matching) (i : Nat) (t : Lexeme) :
    m.pairs ⊆ (m.step i t).pairs ∧ m.orphans ⊆ (m.step i t).orphans := by
  unfold step
  split
  · exact ⟨List.Subset.refl _, List.Subset.refl _⟩
  split
  · unfold close
    dsimp only
    split
    · exact ⟨List.Subset.refl _, List.subset_append_left _ _⟩
    · exact ⟨List.subset_cons_self _ _, List.subset_append_left _ _⟩
  · exact ⟨List.Subset.refl _, List.Subset.refl _⟩

theorem pairs_subset_steps (m : Matching) (i : Nat) (ts : List Lexeme) :
    m.pairs ⊆ (m.steps i ts).pairs ∧ m.orphans ⊆ (m.steps i ts).orphans := by
  induction ts generalizing m i with
  | nil => exact ⟨List.Subset.refl _, List.Subset.refl _⟩
  | cons t ts ih =>
      obtain ⟨hpairs, horphans⟩ := pairs_subset_step m i t
      obtain ⟨hpairs', horphans'⟩ := ih (m.step i t) (i + 1)
      exact ⟨List.Subset.trans hpairs hpairs', List.Subset.trans horphans horphans'⟩

/-- A step pairs with its own lexeme only. -/
theorem mem_pairs_step {p : Nat × Nat} {t : Lexeme} (h : p ∈ (m.step i t).pairs) :
    p ∈ m.pairs ∨ p.2 = i := by
  unfold step at h
  split at h
  · exact .inl h
  split at h
  · unfold close at h
    dsimp only at h
    split at h
    · exact .inl h
    · rcases List.mem_cons.1 h with rfl | h
      · exact .inr rfl
      · exact .inl h
  · exact .inl h

theorem mem_pairs_steps {p : Nat × Nat} {ts : List Lexeme} (h : p ∈ (m.steps i ts).pairs) :
    p ∈ m.pairs ∨ i ≤ p.2 := by
  induction ts generalizing m i with
  | nil => exact .inl h
  | cons t ts ih =>
      rcases ih h with h | h
      · rcases mem_pairs_step h with h | h
        · exact .inl h
        · exact .inr (Nat.le_of_eq h.symm)
      · exact .inr (Nat.le_of_succ_le h)

end Growth

/-! ## The pass above pending openers -/

/-- From index `d` on the pass `g` made the pairs that `m` made from the start, and what was pending
at `d` and still is lies below the openers that `m` has pending. -/
structure Above (d : Nat) (g m : Matching) : Prop where
  pending : ∃ below, g.pending = m.pending.map (OpenBracket.shift d) ++ below ∧
    ∀ o ∈ below, o.index < d
  pairs : ∀ p, d ≤ p.1 → (p ∈ g.pairs ↔ ∃ q ∈ m.pairs, p = (d + q.1, d + q.2))

/-- Where a bracket from before index `d` is closed before index `stop`, no bracket in between was
given up. -/
def Apart (m : Matching) (d stop : Nat) : Prop :=
  ∀ p ∈ m.pairs, p.1 < d → d ≤ p.2 → p.2 < stop → ∀ o ∈ m.orphans, o.index < d ∨ p.2 ≤ o.index

theorem Apart.mono {m m' : Matching} {d stop stop' : Nat} (h : m'.Apart d stop')
    (hpairs : m.pairs ⊆ m'.pairs) (horphans : m.orphans ⊆ m'.orphans) (hstop : stop ≤ stop') :
    m.Apart d stop :=
  fun p hp hlt hle hlast o ho => h p (hpairs hp) hlt hle (Nat.lt_of_lt_of_le hlast hstop) o (horphans ho)

section Run

variable {d i : Nat} {g m : Matching}

theorem Above.skip_pair {k l : Nat} (h : Above d g m) (hk : k < d) :
    ∀ p : Nat × Nat, d ≤ p.1 →
      (p ∈ (k, l) :: g.pairs ↔ ∃ q ∈ m.pairs, p = (d + q.1, d + q.2)) := by
  intro p hp
  rw [← h.pairs p hp, List.mem_cons]
  refine or_iff_right ?_
  rintro rfl
  exact Nat.lt_irrefl k (Nat.lt_of_lt_of_le hk hp)

theorem Above.add_pair {k l : Nat} (h : Above d g m) :
    ∀ p : Nat × Nat, d ≤ p.1 →
      (p ∈ (d + k, d + l) :: g.pairs ↔ ∃ q ∈ (k, l) :: m.pairs, p = (d + q.1, d + q.2)) := by
  intro p hp
  rw [List.mem_cons, h.pairs p hp, List.exists_mem_cons_iff]

/-- An opener that a closer reaches over is given up. -/
theorem unclosed_mem_close {b : Bracket} {o top : OpenBracket} {rest : List OpenBracket}
    (ho : o ∈ g.pending.takeWhile (·.bracket ≠ b))
    (hdrop : g.pending.dropWhile (·.bracket ≠ b) = top :: rest) :
    .unclosed o.index o.bracket ∈ (g.close i b).orphans := by
  unfold Matching.close
  simp only [hdrop]
  rw [if_neg (by simpa using List.ne_nil_of_mem ho)]
  refine List.mem_append_right _ (List.mem_cons_of_mem _ ?_)
  exact List.mem_map.2 ⟨o, List.mem_reverse.2 ho, rfl⟩

theorem Above.close (h : Above d g m) (hbefore : m.Before i) {b : Bracket}
    (hapart : (g.close (d + i) b).Apart d (d + i + 1)) :
    Above d (g.close (d + i) b) (m.close i b) := by
  obtain ⟨below, hpending, hbelow⟩ := h.pending
  have hshift : (fun o : OpenBracket => decide (o.bracket ≠ b)) ∘ OpenBracket.shift d
      = fun o => decide (o.bracket ≠ b) := rfl
  cases hdrop : m.pending.dropWhile (·.bracket ≠ b) with
  | cons top rest =>
      -- the opener is one of the run
      have hdrop' : g.pending.dropWhile (·.bracket ≠ b) =
          top.shift d :: (rest.map (OpenBracket.shift d) ++ below) := by
        rw [hpending, List.dropWhile_append, List.dropWhile_map, hshift, hdrop]
        rfl
      unfold Matching.close
      simp only [hdrop, hdrop']
      exact ⟨⟨below, rfl, hbelow⟩, h.add_pair⟩
  | nil =>
      have hdrop' : g.pending.dropWhile (·.bracket ≠ b) = below.dropWhile (·.bracket ≠ b) := by
        rw [hpending, List.dropWhile_append, List.dropWhile_map, hshift, hdrop]
        rfl
      cases hfrom : below.dropWhile (·.bracket ≠ b) with
      | nil =>
          -- a closer without an opener, in the file as in the run
          rw [hfrom] at hdrop'
          unfold Matching.close
          simp only [hdrop, hdrop']
          exact ⟨⟨below, hpending, hbelow⟩, h.pairs⟩
      | cons top rest =>
          rw [hfrom] at hdrop'
          have hmem : ∀ o ∈ top :: rest, o ∈ below := by
            intro o ho
            rw [← hfrom] at ho
            exact List.dropWhile_subset _ ho
          have htop : top.index < d := hbelow top (hmem top List.mem_cons_self)
          -- the opener is from before, so the run has none pending that would be given up
          have hnone : m.pending = [] := by
            refine List.eq_nil_iff_forall_not_mem.2 fun o ho => ?_
            have hskipped : o.shift d ∈ g.pending.takeWhile (·.bracket ≠ b) := by
              rw [hpending, List.takeWhile_append_of_pos]
              · exact List.mem_append_left _ (List.mem_map_of_mem ho)
              · intro o' ho'
                obtain ⟨o'', ho'', rfl⟩ := List.mem_map.1 ho'
                exact List.dropWhile_eq_nil_iff.1 hdrop o'' ho''
            have hpair : (top.index, d + i) ∈ (g.close (d + i) b).pairs := by
              unfold Matching.close
              simp only [hdrop']
              exact List.mem_cons_self
            have hcut := hapart _ hpair htop (Nat.le_add_right d i) (Nat.lt_succ_self _) _
              (unclosed_mem_close hskipped hdrop')
            have hlt := hbefore.1 o ho
            simp only [Orphan.index, OpenBracket.shift] at hcut
            omega
          unfold Matching.close
          simp only [hdrop, hdrop']
          refine ⟨⟨rest, ?_, fun o ho => hbelow o (hmem o (List.mem_cons_of_mem _ ho))⟩,
            h.skip_pair htop⟩
          rw [hnone]
          rfl

theorem Above.step (h : Above d g m) (hbefore : m.Before i) {t : Lexeme}
    (hapart : (g.step (d + i) t).Apart d (d + i + 1)) :
    Above d (g.step (d + i) t) (m.step i t) := by
  unfold Matching.step at hapart ⊢
  split at hapart
  next =>
    obtain ⟨below, hpending, hbelow⟩ := h.pending
    refine ⟨⟨below, ?_, hbelow⟩, h.pairs⟩
    simp [hpending, OpenBracket.shift]
  next =>
    split at hapart
    next => exact h.close hbefore hapart
    next => exact h

theorem Above.steps (h : Above d g m) (hbefore : m.Before i) {ts : List Lexeme}
    (hapart : (g.steps (d + i) ts).Apart d (d + i + ts.length)) :
    Above d (g.steps (d + i) ts) (m.steps i ts) := by
  induction ts generalizing g m i with
  | nil => exact h
  | cons t ts ih =>
      obtain ⟨hpairs, horphans⟩ := pairs_subset_steps (g.step (d + i) t) (d + i + 1) ts
      have hstep := h.step (t := t) hbefore
        (hapart.mono hpairs horphans (by rw [List.length_cons]; omega))
      refine ih hstep (hbefore.step t) ?_
      have hlength : d + (i + 1) + ts.length = d + i + (t :: ts).length := by
        rw [List.length_cons]
        omega
      rw [hlength]
      exact hapart

end Run

theorem above_start {m : Matching} {d : Nat} {ts : List Lexeme} (h : Sound ts d m) :
    Above d m {} where
  pending := ⟨m.pending, rfl, h.pending_lt⟩
  pairs := by
    intro p hp
    constructor
    · intro hmem
      have := h.pairs_lt p hmem
      omega
    · rintro ⟨q, hq, -⟩
      cases hq

/-- The pairs inside a run are those that the pass over the run alone makes. -/
theorem mem_pairs_run {us vs ws : List Lexeme}
    (hapart : (ofLexemes (us ++ vs ++ ws)).Apart us.length (us.length + vs.length)) (p : Nat × Nat) :
    p ∈ (ofLexemes vs).pairs ↔ (us.length + p.1, us.length + p.2) ∈ (ofLexemes (us ++ vs ++ ws)).pairs ∧
      us.length + p.2 < us.length + vs.length := by
  have hfile : ofLexemes (us ++ vs ++ ws) =
      (((ofLexemes us).steps us.length vs).steps (us.length + vs.length) ws) := by
    rw [ofLexemes, steps_append, steps_append, Nat.zero_add, List.length_append, Nat.zero_add]
    rfl
  have hstart : Above us.length (ofLexemes us) {} := above_start (sound_ofLexemes us)
  have hgrowth := pairs_subset_steps ((ofLexemes us).steps us.length vs) (us.length + vs.length) ws
  rw [← hfile] at hgrowth
  have hempty : ({} : Matching).Before 0 := by simp [Before]
  have habove : Above us.length ((ofLexemes us).steps (us.length + 0) vs) (ofLexemes vs) :=
    hstart.steps hempty (hapart.mono hgrowth.1 hgrowth.2 (Nat.le_refl _))
  have hrun := habove.pairs (us.length + p.1, us.length + p.2) (Nat.le_add_right _ _)
  have hiff : (∃ q ∈ (ofLexemes vs).pairs,
      (us.length + p.1, us.length + p.2) = (us.length + q.1, us.length + q.2)) ↔
      p ∈ (ofLexemes vs).pairs := by
    constructor
    · rintro ⟨q, hq, heq⟩
      obtain ⟨h₁, h₂⟩ := Prod.mk.inj heq
      obtain rfl : p = q := Prod.ext (Nat.add_left_cancel h₁) (Nat.add_left_cancel h₂)
      exact hq
    · intro hp
      exact ⟨p, hp, rfl⟩
  rw [← hiff, ← hrun]
  constructor
  · intro hp
    refine ⟨hgrowth.1 hp, ?_⟩
    obtain ⟨q, hq, heq⟩ := hrun.1 hp
    have hlt := ((sound_ofLexemes vs).pairs_lt q hq).2
    have := (Prod.mk.inj heq).2
    omega
  · rintro ⟨hp, hlt⟩
    rw [hfile] at hp
    rcases mem_pairs_steps hp with hp | hle
    · exact hp
    · simp only at hle hlt
      omega

end Matching

/-! ## Tables -/

namespace Pairing

theorem size_ofPairs (size : Nat) (pairs : List (Nat × Nat)) :
    (ofPairs size pairs).table.size = size := by
  have hfold : ∀ table : Array (Option Nat), (pairs.foldl link table).size = table.size := by
    induction pairs with
    | nil => exact fun _ => rfl
    | cons p pairs ih =>
        intro table
        rw [List.foldl_cons, ih]
        simp [link]
  exact (hfold _).trans (Array.size_replicate ..)

theorem size_restrict (p : Pairing) (start stop : Nat) :
    (p.restrict start stop).table.size = stop - start := by
  simp [restrict]

theorem ext_partner? {p q : Pairing} (hsize : p.table.size = q.table.size)
    (h : ∀ i j, i < p.table.size → (p.partner? i = some j ↔ q.partner? i = some j)) : p = q := by
  obtain ⟨table⟩ := p
  obtain ⟨table'⟩ := q
  refine congrArg Pairing.mk (Array.ext hsize fun i hi hi' => ?_)
  have hpartner : (⟨table⟩ : Pairing).partner? i = (⟨table'⟩ : Pairing).partner? i :=
    Option.ext fun j => h i j hi
  simpa [partner?, Array.getElem?_eq_getElem, hi, hi'] using hpartner

theorem partner?_restrict {p : Pairing} {start stop i j : Nat} :
    (p.restrict start stop).partner? i = some j ↔
      p.partner? (start + i) = some (start + j) ∧ start + i < stop ∧ start + j < stop := by
  unfold restrict partner?
  simp only [List.map_toArray, List.getElem?_toArray, List.getElem?_map]
  rcases Nat.lt_or_ge i (stop - start) with hi | hi
  · rw [List.getElem?_range hi]
    simp only [Option.map_some, Option.join_some, Option.bind_eq_some_iff]
    constructor
    · rintro ⟨k, hk, hj⟩
      split at hj
      next hin =>
        simp only [Bool.and_eq_true, decide_eq_true_eq] at hin
        obtain rfl := Option.some.inj hj
        rw [Nat.add_sub_cancel' hin.1]
        exact ⟨hk, by omega, hin.2⟩
      next => cases hj
    · rintro ⟨hj, -, hstop⟩
      refine ⟨start + j, hj, ?_⟩
      rw [if_pos (by simpa using hstop), Nat.add_sub_cancel_left]
  · rw [List.getElem?_eq_none (by simpa using hi)]
    constructor
    · intro h
      cases h
    · rintro ⟨-, hi', -⟩
      omega

theorem ofLexemes_run {us vs ws : List Lexeme}
    (hapart : (Matching.ofLexemes (us ++ vs ++ ws)).Apart us.length (us.length + vs.length)) :
    ofLexemes vs = (ofLexemes (us ++ vs ++ ws)).restrict us.length (us.length + vs.length) := by
  have hsize : (ofLexemes vs).table.size = vs.length := size_ofPairs _ _
  refine ext_partner? ?_ ?_
  · rw [hsize, size_restrict, Nat.add_sub_cancel_left]
  · intro i j hi
    rw [hsize] at hi
    rw [partner?_restrict, partner?_ofLexemes, partner?_ofLexemes,
      Matching.mem_pairs_run hapart (i, j), Matching.mem_pairs_run hapart (j, i)]
    have hlt := (Matching.sound_ofLexemes (us ++ vs ++ ws)).pairs_lt
    constructor
    · rintro (⟨hp, hj⟩ | ⟨hp, hi⟩)
      · exact ⟨.inl hp, by omega, hj⟩
      · have := (hlt _ hp).1
        exact ⟨.inr hp, hi, by omega⟩
    · rintro ⟨hp | hp, hi, hj⟩
      · exact .inl ⟨hp, hj⟩
      · exact .inr ⟨hp, hi⟩

theorem partner?_append {us : List Lexeme} {i j : Nat} (h : (ofLexemes us).partner? i = some j)
    (vs : List Lexeme) : (ofLexemes (us ++ vs)).partner? i = some j := by
  have hpairs : (Matching.ofLexemes us).pairs ⊆ (Matching.ofLexemes (us ++ vs)).pairs := by
    rw [Matching.ofLexemes, Matching.ofLexemes, Matching.steps_append]
    exact (Matching.pairs_subset_steps _ _ vs).1
  rw [partner?_ofLexemes] at h ⊢
  exact h.imp (fun h => hpairs h) fun h => hpairs h

end Pairing

/-! ## Slices -/

namespace Bracketed

/-- What is open in front of the run from `start` to `stop` is still open behind it. -/
def KeepsOpen (b : Bracketed) (start stop : Nat) : Prop :=
  ∀ o ∈ b.pairs.openAt start, o ∈ b.pairs.openAt stop

variable {start stop : Nat}

theorem KeepsOpen.of_eq {b : Bracketed} (h : b.pairs.openAt stop = b.pairs.openAt start) :
    b.KeepsOpen start stop := fun _ ho => h ▸ ho

theorem KeepsOpen.mono {b : Bracketed} (h : b.KeepsOpen start stop) {k : Nat} (hk : start ≤ k)
    (hstop : k ≤ stop) : b.KeepsOpen start k := by
  intro o ho
  obtain ⟨hlt, -⟩ := Pairing.mem_openAt.1 ho
  obtain ⟨-, c, hc, hle⟩ := Pairing.mem_openAt.1 (h o ho)
  exact Pairing.mem_openAt.2 ⟨Nat.lt_of_lt_of_le hlt hk, c, hc, Nat.le_trans hstop hle⟩

theorem KeepsOpen.not_closed {b : Bracketed} (h : b.KeepsOpen start stop) {i j : Nat}
    (hi : start ≤ i) (hstop : i < stop) (hp : b.pairs.partner? j = some i) : start ≤ j := by
  rcases Nat.lt_or_ge j start with hlt | hge
  · obtain ⟨-, c, hc, hle⟩ := Pairing.mem_openAt.1 (h j (Pairing.mem_openAt.2 ⟨hlt, i, hp, hi⟩))
    rw [hp] at hc
    cases hc
    omega
  · exact hge

theorem slice_of_apart {ts : Array Lexeme} (hle : start ≤ stop) (hstop : stop ≤ ts.size)
    (hapart : (Matching.ofLexemes ts.toList).Apart start stop) :
    (ofLexemes ts).slice start stop = ofLexemes (ts.extract start stop) := by
  have hlength : (ts.toList.take start).length = start := by
    rw [List.length_take, Array.length_toList]
    omega
  have hrun : (ts.extract start stop).toList.length = stop - start := by
    rw [Array.length_toList, Array.size_extract]
    omega
  have hsplit : ts.toList =
      ts.toList.take start ++ (ts.extract start stop).toList ++ ts.toList.drop stop := by
    rw [Array.toList_extract, List.extract_eq_take_drop]
    have hdrop : ts.toList.drop stop = (ts.toList.drop start).drop (stop - start) := by
      rw [List.drop_drop, Nat.add_sub_cancel' hle]
    rw [hdrop, List.append_assoc, List.take_append_drop, List.take_append_drop]
  have hends : (ts.toList.take start).length + (ts.extract start stop).toList.length = stop := by
    rw [hlength, hrun]
    omega
  have htable : Pairing.ofLexemes (ts.extract start stop).toList =
      (Pairing.ofLexemes (ts.toList.take start ++ (ts.extract start stop).toList ++
        ts.toList.drop stop)).restrict (ts.toList.take start).length
          ((ts.toList.take start).length + (ts.extract start stop).toList.length) := by
    refine Pairing.ofLexemes_run ?_
    rw [← hsplit, hends, hlength]
    exact hapart
  rw [← hsplit, hends, hlength] at htable
  exact congrArg (Bracketed.mk (ts.extract start stop)) htable.symm

/-- A run over which everything stays open has the brackets of the file, whatever the brackets
elsewhere. -/
theorem slice_eq_ofLexemes {ts : Array Lexeme} (hle : start ≤ stop) (hstop : stop ≤ ts.size)
    (h : (ofLexemes ts).KeepsOpen start stop) :
    (ofLexemes ts).slice start stop = ofLexemes (ts.extract start stop) := by
  refine slice_of_apart hle hstop ?_
  intro p hp hlt hge hlast
  have hpartner : (ofLexemes ts).pairs.partner? p.1 = some p.2 :=
    (Pairing.partner?_ofLexemes ts.toList p.1 p.2).2 (.inl hp)
  have := h.not_closed hge hlast hpartner
  omega

/-- A group is closed alike in every run that it starts. -/
theorem partner?_of_group {ts : Array Lexeme} {i c : Nat}
    (h : (ofLexemes ts).pairs.partner? i = some c) (hic : i < c) (hc : c < stop)
    (hstop : stop ≤ ts.size) :
    (ofLexemes (ts.extract i stop)).pairs.partner? 0 = some (c - i) := by
  have hgroup : (ofLexemes ts).slice i (c + 1) = ofLexemes (ts.extract i (c + 1)) :=
    slice_eq_ofLexemes (by omega) (by omega) (.of_eq ((nested_ofLexemes ts).openAt_group h hic))
  have hpartner : (ofLexemes (ts.extract i (c + 1))).pairs.partner? 0 = some (c - i) := by
    rw [← hgroup]
    refine Pairing.partner?_restrict.2 ⟨?_, by omega, by omega⟩
    rw [Nat.add_zero, Nat.add_sub_cancel' (Nat.le_of_lt hic)]
    exact h
  have hsplit : (ts.extract i stop).toList =
      (ts.extract i (c + 1)).toList ++ (ts.extract (c + 1) stop).toList := by
    rw [← Array.toList_append, Array.extract_append_extract, Nat.min_eq_left (by omega),
      Nat.max_eq_right (by omega)]
  show (Pairing.ofLexemes (ts.extract i stop).toList).partner? 0 = some (c - i)
  rw [hsplit]
  exact Pairing.partner?_append hpartner _

theorem slice_eq_ofLexemes_of_orphans {ts : Array Lexeme} (hle : start ≤ stop)
    (hstop : stop ≤ ts.size) (h : (Matching.ofLexemes ts.toList).allOrphans = []) :
    (ofLexemes ts).slice start stop = ofLexemes (ts.extract start stop) := by
  refine slice_of_apart hle hstop ?_
  intro p _ _ _ _ o ho
  rw [(List.append_eq_nil_iff.1 h).1] at ho
  cases ho

end Bracketed

end CxxFloor
