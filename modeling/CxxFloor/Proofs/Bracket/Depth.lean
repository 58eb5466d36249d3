/-
# Counting brackets

Two parts of the library read lexemes without a table of brackets and count as
they go: the attributes in front of a parameter are skipped by counting square
brackets, and a list is split where no bracket counted from its start is open.
Both are told by the depth that a run of lexemes adds (`depthOf`).

Leading attributes add nothing as a whole and something up to every place in
them where no attribute starts (`depth_leadingAttributes`), so there is one
place only at which a run of attributes before a given token can have started.
A part of a split starts where the lexemes before it add nothing
(`depth_of_mem_split`).

In a file whose brackets are all paired the depth that is counted is that of
the table (`Bracketed.Nested.length_openAt`).
-/
import CxxFloor.Proofs.Bracket.Slice
import CxxFloor.Proofs.Bracket.Split

namespace CxxFloor

/-- The depth that the lexemes add, each of them by its weight. -/
def depthOf (weight : Lexeme → Int) : List Lexeme → Int
  | [] => 0
  | t :: ts => weight t + depthOf weight ts

def Lexeme.squareWeight (t : Lexeme) : Int :=
  if t.isPunct "[" then 1 else if t.isPunct "]" then -1 else 0

def Lexeme.weight (t : Lexeme) : Int :=
  if t.opens?.isSome then 1 else if t.closes?.isSome then -1 else 0

section Depth

variable {weight : Lexeme → Int}

@[simp] theorem depthOf_nil : depthOf weight [] = 0 := rfl

@[simp] theorem depthOf_cons (t : Lexeme) (ts : List Lexeme) :
    depthOf weight (t :: ts) = weight t + depthOf weight ts := rfl

@[simp] theorem depthOf_append (ts us : List Lexeme) :
    depthOf weight (ts ++ us) = depthOf weight ts + depthOf weight us := by
  induction ts with
  | nil => simp
  | cons t ts ih => rw [List.cons_append, depthOf_cons, depthOf_cons, ih, Int.add_assoc]

end Depth

/-! ## Attributes -/

/-- The square bracket that closes `depth` open ones is the first place at which all are closed. -/
theorem depth_closingSquare? {ts : List Lexeme} {depth n : Nat} (hpos : 0 < depth)
    (h : closingSquare? depth ts = some n) :
    depthOf Lexeme.squareWeight (ts.take n) = -depth ∧
      ∀ m < n, 0 < depth + depthOf Lexeme.squareWeight (ts.take m) := by
  induction ts generalizing depth n with
  | nil => cases h
  | cons t ts ih =>
      -- the depth behind the first lexeme, and the number of lexemes left
      have hstep : ∀ {depth' n' : Nat}, 0 < depth' → closingSquare? depth' ts = some n' →
          (depth : Int) + t.squareWeight = depth' → n = 1 + n' →
          depthOf Lexeme.squareWeight ((t :: ts).take n) = -depth ∧
            ∀ m < n, 0 < depth + depthOf Lexeme.squareWeight ((t :: ts).take m) := by
        rintro depth' n' hpos' h' hdepth rfl
        obtain ⟨hend, hbefore⟩ := ih hpos' h'
        rw [Nat.add_comm 1 n']
        refine ⟨?_, fun m hm => ?_⟩
        · rw [List.take_succ_cons, depthOf_cons, hend]
          omega
        · cases m with
          | zero =>
              rw [List.take_zero, depthOf_nil]
              omega
          | succ m =>
              have := hbefore m (by omega)
              rw [List.take_succ_cons, depthOf_cons]
              omega
      simp only [closingSquare?] at h
      split at h
      next hopen =>
        obtain ⟨n', h', rfl⟩ := Option.map_eq_some_iff.1 h
        exact hstep (Nat.succ_pos depth) h' (by simp [Lexeme.squareWeight, hopen]) rfl
      next hopen =>
      split at h
      next hclose =>
        have hweight : t.squareWeight = -1 := by simp [Lexeme.squareWeight, hopen, hclose]
        split at h
        next hone =>
          cases h
          refine ⟨by simp [hweight, hone], fun m hm => ?_⟩
          obtain rfl : m = 0 := by omega
          simpa using hpos
        next hone =>
          obtain ⟨n', h', rfl⟩ := Option.map_eq_some_iff.1 h
          exact hstep (by omega) h' (by omega) rfl
      next hclose =>
        obtain ⟨n', h', rfl⟩ := Option.map_eq_some_iff.1 h
        exact hstep hpos h' (by simp [Lexeme.squareWeight, hopen, hclose]) rfl

/-- Leading attributes close all they open, and not before the next one starts. -/
theorem depth_leadingAttributes (ts : List Lexeme) :
    depthOf Lexeme.squareWeight (ts.take (leadingAttributes ts)) = 0 ∧
      ∀ m < leadingAttributes ts, (∀ t, ts[m]? = some t → t.isPunct "[" = false) →
        0 < depthOf Lexeme.squareWeight (ts.take m) := by
  fun_induction leadingAttributes ts with
  | case1 t u rest hopen n hn ih =>
      simp only [Bool.and_eq_true] at hopen
      obtain ⟨hend, hbefore⟩ := depth_closingSquare? (Nat.succ_pos 1) hn
      have hweights : t.squareWeight = 1 ∧ u.squareWeight = 1 := by
        simp [Lexeme.squareWeight, hopen.1, hopen.2]
      have hbehind : ∀ k, rest.take (n + k) = rest.take n ++ (rest.drop n).take k := fun k =>
        List.take_add
      have hlength : 2 + n + leadingAttributes (rest.drop n) =
          n + leadingAttributes (rest.drop n) + 1 + 1 := by omega
      rw [hlength]
      refine ⟨?_, fun m hm hstart => ?_⟩
      · rw [List.take_succ_cons, List.take_succ_cons, hbehind, depthOf_cons, depthOf_cons,
          depthOf_append, hend, ih.1]
        omega
      · match m with
        | 0 =>
            have := hstart t rfl
            rw [hopen.1] at this
            cases this
        | 1 =>
            have := hstart u rfl
            rw [hopen.2] at this
            cases this
        | m + 2 =>
            rw [List.take_succ_cons, List.take_succ_cons, depthOf_cons, depthOf_cons]
            rcases Nat.lt_or_ge m n with hlt | hge
            · have := hbefore m hlt
              omega
            · obtain ⟨k, rfl⟩ := Nat.exists_eq_add_of_le hge
              have := ih.2 k (by omega) fun t' ht' => by
                rw [List.getElem?_drop] at ht'
                exact hstart t' ht'
              rw [hbehind, depthOf_append, hend]
              omega
  | case2 t u rest hopen hn => exact ⟨rfl, fun m hm => by omega⟩
  | case3 => exact ⟨rfl, fun m hm => by omega⟩
  | case4 => exact ⟨rfl, fun m hm => by omega⟩

/-! ## Splits -/

theorem SplitState.depth_next (s : SplitState) (trackAngles : Bool) (t : Lexeme) :
    (s.next trackAngles t).depth = s.depth + t.weight := by
  unfold next Lexeme.weight
  dsimp only
  split
  · rfl
  split
  · rfl
  split
  · exact (Int.add_zero _).symm
  split <;> exact (Int.add_zero _).symm

theorem SplitState.depth_of_separates {s : SplitState} {separator : String} {trackAngles : Bool}
    {t : Lexeme} (h : s.separates separator trackAngles t = true) : s.depth = 0 ∧ t.weight = 0 := by
  simp only [separates, Bool.and_eq_true, beq_iff_eq, Option.isNone_iff_eq_none] at h
  obtain ⟨⟨⟨⟨⟨⟨⟨-, hopens⟩, hcloses⟩, -⟩, -⟩, -⟩, hdepth⟩, -⟩ := h
  exact ⟨hdepth, by simp [Lexeme.weight, hopens, hcloses]⟩

def SplitState.after (s : SplitState) (trackAngles : Bool) (ts : List Lexeme) : SplitState :=
  ts.foldl (·.next trackAngles) s

theorem SplitState.depth_after (s : SplitState) (trackAngles : Bool) (ts : List Lexeme) :
    (s.after trackAngles ts).depth = s.depth + depthOf Lexeme.weight ts := by
  induction ts generalizing s with
  | nil => exact (Int.add_zero _).symm
  | cons t ts ih =>
      rw [after, List.foldl_cons, depthOf_cons, ← Int.add_assoc, ← depth_next s trackAngles t]
      exact ih _

/-- In front of every part but the first stands a lexeme that separates. -/
theorem separates_before_splitFrom {separator : String} {trackAngles : Bool} {ts : List Lexeme} :
    ∀ {i : Nat} {s : SplitState}, ∀ p ∈ (splitFrom separator trackAngles i s ts).2,
      ∃ n t, p.start = i + n + 1 ∧ ts[n]? = some t ∧
        (s.after trackAngles (ts.take n)).separates separator trackAngles t = true := by
  induction ts with
  | nil =>
      intro i s p hp
      exact absurd hp List.not_mem_nil
  | cons t ts ih =>
      intro i s p hp
      have hlater : p ∈ (splitFrom separator trackAngles (i + 1) (s.next trackAngles t) ts).2 →
          ∃ n u, p.start = i + n + 1 ∧ (t :: ts)[n]? = some u ∧
            (s.after trackAngles ((t :: ts).take n)).separates separator trackAngles u = true := by
        intro hp
        obtain ⟨n, u, hn, hu, hseparates⟩ := ih p hp
        exact ⟨n + 1, u, by omega, hu, hseparates⟩
      rw [splitFrom] at hp
      dsimp only at hp
      split at hp
      next hseparates =>
        rcases List.mem_cons.1 hp with rfl | hp
        · exact ⟨0, t, Part.start_splitFrom .., rfl, hseparates⟩
        · exact hlater hp
      next => exact hlater hp

theorem depth_splitFrom {separator : String} {trackAngles : Bool} {ts : List Lexeme} {i : Nat}
    {s : SplitState} {p : Part} (hp : p ∈ (splitFrom separator trackAngles i s ts).2) :
    ∃ n ≤ ts.length, p.start = i + n ∧ s.depth + depthOf Lexeme.weight (ts.take n) = 0 := by
  obtain ⟨n, t, hn, ht, hseparates⟩ := separates_before_splitFrom p hp
  obtain ⟨hdepth, hweight⟩ := SplitState.depth_of_separates hseparates
  rw [SplitState.depth_after] at hdepth
  have hlt := (List.getElem?_eq_some_iff.1 ht).1
  refine ⟨n + 1, hlt, hn, ?_⟩
  rw [List.take_add_one, ht, Option.toList_some, depthOf_append, depthOf_cons, hweight,
    depthOf_nil, ← Int.add_assoc, hdepth]
  rfl

theorem depth_of_mem_split {separator : String} {trackAngles : Bool} {start : Nat}
    {ts : List Lexeme} {p : Part} (h : p ∈ splitTopLevel separator trackAngles start ts) :
    ∃ n ≤ ts.length, p.start = start + n ∧ depthOf Lexeme.weight (ts.take n) = 0 := by
  unfold splitTopLevel at h
  split at h
  · exact absurd h List.not_mem_nil
  · rcases List.mem_cons.1 h with rfl | h
    · exact ⟨0, Nat.zero_le _, Part.start_splitFrom .., rfl⟩
    · obtain ⟨n, hn, hstart, hdepth⟩ := depth_splitFrom h
      exact ⟨n, hn, hstart, by simpa using hdepth⟩

/-! ## Files without an orphan -/

namespace Matching

/-- The pass knows of the bracket at index `k`: it is pending, paired, or an orphan. -/
def Knows (m : Matching) (k : Nat) : Prop :=
  (∃ o ∈ m.pending, o.index = k) ∨ (∃ p ∈ m.pairs, p.1 = k ∨ p.2 = k) ∨ ∃ o ∈ m.orphans, o.index = k

variable {m : Matching} {i k : Nat}

theorem knows_close (m : Matching) (i : Nat) (b : Bracket) : (m.close i b).Knows i := by
  unfold Matching.close
  dsimp only
  split
  · exact .inr (.inr ⟨_, List.mem_append_right _ (List.mem_singleton_self _), rfl⟩)
  · exact .inr (.inl ⟨_, List.mem_cons_self, .inr rfl⟩)

theorem Knows.close (h : m.Knows k) (b : Bracket) : (m.close i b).Knows k := by
  rcases h with ⟨o, ho, rfl⟩ | ⟨p, hp, hk⟩ | ⟨o, ho, hk⟩
  · cases hdrop : m.pending.dropWhile (·.bracket ≠ b) with
    | nil =>
        refine .inl ⟨o, ?_, rfl⟩
        unfold Matching.close
        simp only [hdrop]
        exact ho
    | cons top rest =>
        have hsplit : o ∈ m.pending.takeWhile (·.bracket ≠ b) ++ top :: rest := by
          rw [← hdrop, List.takeWhile_append_dropWhile]
          exact ho
        rcases List.mem_append.1 hsplit with hskipped | hkept
        · exact .inr (.inr ⟨_, unclosed_mem_close hskipped hdrop, rfl⟩)
        · unfold Matching.close
          simp only [hdrop]
          rcases List.mem_cons.1 hkept with rfl | hkept
          · exact .inr (.inl ⟨_, List.mem_cons_self, .inl rfl⟩)
          · exact .inl ⟨o, hkept, rfl⟩
  · refine .inr (.inl ⟨p, ?_, hk⟩)
    unfold Matching.close
    dsimp only
    split
    · exact hp
    · exact List.mem_cons_of_mem _ hp
  · refine .inr (.inr ⟨o, ?_, hk⟩)
    unfold Matching.close
    dsimp only
    split <;> exact List.mem_append_left _ ho

theorem Knows.step (h : m.Knows k) (t : Lexeme) : (m.step i t).Knows k := by
  unfold Matching.step
  split
  · exact h.imp_left fun ⟨o, ho, hk⟩ => ⟨o, List.mem_cons_of_mem _ ho, hk⟩
  split
  · exact h.close _
  · exact h

theorem knows_step (m : Matching) (i : Nat) {t : Lexeme} (ht : t.weight ≠ 0) :
    (m.step i t).Knows i := by
  unfold Matching.step
  split
  · exact .inl ⟨_, List.mem_cons_self, rfl⟩
  next hopens =>
    split
    · exact knows_close m i _
    next hcloses => exact absurd (by simp [Lexeme.weight, hopens, hcloses]) ht

theorem knows_steps {ts : List Lexeme} {n : Nat} {t : Lexeme} (ht : ts[n]? = some t)
    (hweight : t.weight ≠ 0) : (m.steps i ts).Knows (i + n) := by
  have hkept : ∀ {us : List Lexeme} {m : Matching} {i k : Nat}, m.Knows k → (m.steps i us).Knows k := by
    intro us
    induction us with
    | nil => exact fun h => h
    | cons u us ih => exact fun h => ih (h.step u)
  induction ts generalizing m i n with
  | nil => cases ht
  | cons u us ih =>
      cases n with
      | zero =>
          obtain rfl : u = t := Option.some.inj ht
          show ((m.step i u).steps (i + 1) us).Knows i
          exact hkept (knows_step m i hweight)
      | succ n =>
          have hknown := ih (m := m.step i u) (i := i + 1) ht
          rw [show i + 1 + n = i + (n + 1) by omega] at hknown
          exact hknown

end Matching

theorem partner_or_orphan {ts : List Lexeme} {k : Nat} {t : Lexeme} (ht : ts[k]? = some t)
    (hweight : t.weight ≠ 0) : (∃ j, (Pairing.ofLexemes ts).partner? k = some j) ∨
      k ∈ (Matching.ofLexemes ts).allOrphans.map Orphan.index := by
  have hknown : (Matching.ofLexemes ts).Knows (0 + k) := Matching.knows_steps ht hweight
  rw [Nat.zero_add] at hknown
  rcases hknown with ⟨o, ho, rfl⟩ | ⟨⟨x, y⟩, hp, rfl | rfl⟩ | ⟨o, ho, rfl⟩
  · have hmem := List.mem_map_of_mem (f := fun o => Orphan.unclosed o.index o.bracket)
      (List.mem_reverse.2 ho)
    exact .inr (List.mem_map.2 ⟨_, List.mem_append_right _ hmem, rfl⟩)
  · exact .inl ⟨y, (Pairing.partner?_ofLexemes ts x y).2 (.inl hp)⟩
  · exact .inl ⟨x, (Pairing.partner?_ofLexemes ts y x).2 (.inr hp)⟩
  · exact .inr (List.mem_map_of_mem (List.mem_append_left _ ho))

theorem exists_partner {ts : List Lexeme} (h : (Matching.ofLexemes ts).allOrphans = []) {k : Nat}
    {t : Lexeme} (ht : ts[k]? = some t) (hweight : t.weight ≠ 0) :
    ∃ j, (Pairing.ofLexemes ts).partner? k = some j := by
  refine (partner_or_orphan ht hweight).resolve_right ?_
  rw [h]
  exact List.not_mem_nil

namespace Bracketed

variable {b : Bracketed} {i j : Nat}

theorem between_succ {t : Lexeme} (hij : i ≤ j) (ht : b.at? j = some t) :
    b.between i (j + 1) = b.between i j ++ [t] := by
  obtain ⟨hj, rfl⟩ := Array.getElem?_eq_some_iff.1 ht
  rw [between, Array.extract_succ_right (Nat.lt_succ_of_le hij) hj, Array.toList_push]
  rfl

theorem between_append {k : Nat} (hij : i ≤ j) (hjk : j ≤ k) :
    b.between i k = b.between i j ++ b.between j k := by
  rw [between, between, between, ← Array.toList_append, Array.extract_append_extract,
    Nat.min_eq_left hij, Nat.max_eq_right hjk]

theorem take_between {n : Nat} (h : i + n ≤ j) : (b.between i j).take n = b.between i (i + n) := by
  rw [between, between, Array.toList_extract, Array.toList_extract, List.extract_eq_take_drop,
    List.extract_eq_take_drop, List.take_take, Nat.min_eq_left (by omega), Nat.add_sub_cancel_left]

theorem length_between (h : j ≤ b.size) : (b.between i j).length = j - i := by
  have hsize : j ≤ b.lexemes.size := h
  rw [between, Array.length_toList, Array.size_extract, Nat.min_eq_left hsize]

theorem weight_of_opensAt {t : Lexeme} {k : Bracket} (ht : b.at? i = some t)
    (h : b.opensAt i k) : t.weight = 1 := by
  rw [opensAt, ht, Option.bind_some] at h
  simp [Lexeme.weight, h]

theorem weight_of_closesAt {t : Lexeme} {k : Bracket} (ht : b.at? i = some t)
    (h : b.closesAt i k) : t.weight = -1 := by
  rw [closesAt, ht, Option.bind_some] at h
  have hopens : t.opens? = none := Option.eq_none_iff_forall_ne_some.2 fun _ =>
    Lexeme.not_opens?_of_closes? h
  simp [Lexeme.weight, h, hopens]

/-- Where all brackets are paired, as many are open as the depth says. -/
theorem Nested.length_openAt (hb : b.Nested)
    (hpaired : ∀ k t, b.at? k = some t → t.weight ≠ 0 → ∃ l, b.pairs.partner? k = some l)
    (hij : i ≤ j) (hj : j ≤ b.size) :
    ((b.pairs.openAt j).length : Int)
      = (b.pairs.openAt i).length + depthOf Lexeme.weight (b.between i j) := by
  induction j, hij using Nat.le_induction with
  | base => simp [between]
  | succ j hij ih =>
      have ht : b.at? j = some b.lexemes[j] := Array.getElem?_eq_getElem hj
      have hbefore := ih (Nat.le_of_succ_le hj)
      rw [between_succ hij ht, depthOf_append, depthOf_cons, depthOf_nil]
      cases hp : b.pairs.partner? j with
      | none =>
          have hweight : b.lexemes[j].weight = 0 := by
            by_contra hne
            obtain ⟨l, hl⟩ := hpaired j _ ht hne
            rw [hp] at hl
            cases hl
          rw [hb.openAt_unpaired hp]
          omega
      | some l =>
          rcases Nat.lt_or_gt_of_ne (hb.partner_ne hp) with hlt | hgt
          · obtain ⟨k, hopens, -⟩ := hb.matched hp hlt
            have hweight := weight_of_opensAt ht hopens
            rw [hb.openAt_opener hp hlt, List.length_append, List.length_singleton]
            omega
          · obtain ⟨k, -, hcloses⟩ := hb.matched (hb.partner_symm hp) hgt
            have hweight := weight_of_closesAt ht hcloses
            rw [hb.openAt_closer hp hgt, List.length_append, List.length_singleton] at hbefore
            omega

/-- Inside a group the depth never falls below that of its start. -/
theorem Nested.depth_nonneg (hb : b.Nested)
    (hpaired : ∀ k t, b.at? k = some t → t.weight ≠ 0 → ∃ l, b.pairs.partner? k = some l)
    {c k : Nat} (hc : b.closer? i = some c) (hik : i < k) (hkc : k ≤ c) :
    0 ≤ depthOf Lexeme.weight (b.between (i + 1) k) := by
  have hpartner := partner?_of_closer? hc
  have hlt := hb.partner_lt hpartner
  have hlength := hb.length_openAt hpaired (i := i + 1) (j := k) hik (by omega)
  have hsubset : b.pairs.openAt (i + 1) ⊆ b.pairs.openAt k := by
    intro o ho
    obtain ⟨hoi, d, hd, hid⟩ := Pairing.mem_openAt.1 ho
    refine Pairing.mem_openAt.2 ⟨by omega, d, hd, ?_⟩
    rcases Nat.lt_or_ge d k with hdk | hkd
    · -- a bracket that closes inside the group opens there
      have hcross : ¬ d < c := by
        intro hdc
        have := hb.inside hpartner (hb.partner_symm hd) (by omega) hdc
        omega
      omega
    · exact hkd
  have hnodup : (b.pairs.openAt (i + 1)).Nodup :=
    (b.pairs.openAt_sorted _).imp fun h => Nat.ne_of_lt h
  have := (List.subperm_of_subset hnodup hsubset).length_le
  omega

end Bracketed

end CxxFloor
