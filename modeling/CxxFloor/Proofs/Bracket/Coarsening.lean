/-
# Two ways to split a list

A parameter list is split at its commas with template argument lists tracked
and without, and an arity is only trusted where the two agree.  What each of
the two splits is, is said by the places that separate (`SeparatesAt`): a
separator outside all brackets and, where angles are tracked, outside all
template argument lists, both counted from the start of the list.  Between two
parts stands such a place, inside a part stands none, and nothing is lost
(`IsSplit`).

Brackets are counted alike in the two splits, and tracking only ever takes
places away.  So the parts of the split with angles are runs of the parts of
the plain one with the separators between them put back, and there are no more
of them (`splits_compare`).
-/
import CxxFloor.Proofs.Bracket.Depth
import Mathlib.Algebra.BigOperators.Group.List.Basic

namespace CxxFloor

/-! ## Places that separate -/

/-- How many template argument lists are open before index `n`.  Outside all brackets a `<` behind a
word opens one, and a `>` closes one. -/
def openAngles (ts : List Lexeme) : Nat → Nat
  | 0 => 0
  | n + 1 =>
    if depthOf Lexeme.weight (ts.take n) ≠ 0 then openAngles ts n
    else if ts[n]?.any (·.isPunct "<") && (ts.take n).getLast?.any (·.isName) then
      openAngles ts n + 1
    else if ts[n]?.any (·.isPunct ">") then openAngles ts n - 1
    else openAngles ts n

def nestingPunctuators : List String := ["(", ")", "[", "]", "\x7b", "\x7d", "<", ">"]

/-- Index `n` holds the separator outside all brackets and, where angles are tracked, outside all
template argument lists. -/
structure SeparatesAt (separator : String) (trackAngles : Bool) (ts : List Lexeme) (n : Nat) :
    Prop where
  lexeme : ts[n]? = some ⟨.punctuator, separator⟩
  depth : depthOf Lexeme.weight (ts.take n) = 0
  angles : trackAngles = true → openAngles ts n = 0

namespace SplitState

variable {separator : String} {trackAngles : Bool}

theorem eq_of_separates {s : SplitState} {t : Lexeme}
    (h : s.separates separator trackAngles t = true) : t = ⟨.punctuator, separator⟩ := by
  obtain ⟨kind, text⟩ := t
  simp only [separates, Bool.and_eq_true, beq_iff_eq] at h
  obtain ⟨⟨⟨⟨⟨⟨⟨rfl, -⟩, -⟩, -⟩, -⟩, rfl⟩, -⟩, -⟩ := h
  rfl

/-- A separator that is no bracket and no angle separates outside of brackets and angles. -/
theorem separates_iff (hsep : separator ∉ nestingPunctuators) {s : SplitState} {t : Lexeme} :
    s.separates separator trackAngles t = true ↔
      t = ⟨.punctuator, separator⟩ ∧ s.depth = 0 ∧ s.angles = 0 := by
  constructor
  · intro h
    refine ⟨eq_of_separates h, (depth_of_separates h).1, ?_⟩
    simp only [separates, Bool.and_eq_true, beq_iff_eq] at h
    exact h.2
  · rintro ⟨rfl, hdepth, hangles⟩
    simp only [nestingPunctuators, List.mem_cons, List.not_mem_nil, or_false, not_or] at hsep
    have hopens : Lexeme.opens? ⟨.punctuator, separator⟩ = none := by
      simp [Lexeme.opens?, Lexeme.isPunct, Bracket.all, Bracket.opener, hsep]
    have hcloses : Lexeme.closes? ⟨.punctuator, separator⟩ = none := by
      simp [Lexeme.closes?, Lexeme.isPunct, Bracket.all, Bracket.closer, hsep]
    simp [separates, hopens, hcloses, hsep, hdepth, hangles]

theorem previous_next (s : SplitState) (trackAngles : Bool) (t : Lexeme) :
    (s.next trackAngles t).previous = some t := by
  unfold next
  dsimp only
  split
  · rfl
  split
  · rfl
  split
  · rfl
  split <;> rfl

theorem isPunct_of_bracket {t : Lexeme} {k : Bracket} {s : String} (hs : s = "<" ∨ s = ">")
    (h : t.opens? = some k ∨ t.closes? = some k) : t.isPunct s = false := by
  have hne : s ≠ k.opener ∧ s ≠ k.closer := by
    rcases hs with rfl | rfl <;> cases k <;> decide
  refine Bool.eq_false_iff.2 fun hangle => ?_
  rcases h with hopens | hcloses
  · exact hne.1 (Lexeme.isPunct_unique hangle (Lexeme.opens?_eq_some hopens))
  · exact hne.2 (Lexeme.isPunct_unique hangle (Lexeme.closes?_eq_some hcloses))

theorem angles_next (s : SplitState) (trackAngles : Bool) (t : Lexeme) :
    (s.next trackAngles t).angles =
      if trackAngles = true ∧ s.depth = 0 then
        if t.isPunct "<" && s.previous.any (·.isName) then s.angles + 1
        else if t.isPunct ">" then s.angles - 1
        else s.angles
      else s.angles := by
  unfold next
  dsimp only
  split
  next hopens =>
    obtain ⟨k, hk⟩ := Option.isSome_iff_exists.1 hopens
    simp [isPunct_of_bracket (.inl rfl) (.inl hk), isPunct_of_bracket (.inr rfl) (.inl hk)]
  split
  next hcloses =>
    obtain ⟨k, hk⟩ := Option.isSome_iff_exists.1 hcloses
    simp [isPunct_of_bracket (.inl rfl) (.inr hk), isPunct_of_bracket (.inr rfl) (.inr hk)]
  by_cases htracked : trackAngles = true ∧ s.depth = 0
  · rw [if_pos htracked]
    simp only [htracked.1, htracked.2, beq_self_eq_true, Bool.true_and, Bool.and_eq_true,
      decide_eq_true_eq]
    split
    · rfl
    split
    next hclose => rw [if_pos hclose.1]
    next hclose =>
      split
      next hangle =>
        -- none is open, so none is closed
        have hnone : s.angles = 0 := Nat.eq_zero_of_not_pos fun hpos => hclose ⟨hangle, hpos⟩
        show s.angles = s.angles - 1
        rw [hnone]
      next => rfl
  · rw [if_neg htracked]
    have huntracked : (trackAngles && s.depth == 0) = false := by simpa using htracked
    simp [huntracked]

/-- A split counts the brackets and the angles before the place where it stands. -/
theorem after_take {ts : List Lexeme} {n : Nat} (h : n ≤ ts.length) :
    after {} trackAngles (ts.take n) =
      ⟨depthOf Lexeme.weight (ts.take n), if trackAngles then openAngles ts n else 0,
        (ts.take n).getLast?⟩ := by
  induction n with
  | zero => simp [after, openAngles]
  | succ n ih =>
      have ht : ts[n]? = some ts[n] := List.getElem?_eq_getElem h
      have hsplit : ts.take (n + 1) = ts.take n ++ [ts[n]] := (List.take_append_getElem h).symm
      have hstep : after {} trackAngles (ts.take (n + 1)) =
          (after {} trackAngles (ts.take n)).next trackAngles ts[n] := by
        rw [hsplit, after, List.foldl_append]
        rfl
      rw [hstep, ih (Nat.le_of_succ_le h)]
      have hparts : ∀ s : SplitState, s = ⟨s.depth, s.angles, s.previous⟩ := fun _ => rfl
      rw [hparts (next ..), depth_next, angles_next, previous_next, openAngles, ht, hsplit,
        depthOf_append, depthOf_cons, depthOf_nil, Int.add_zero, List.getLast?_concat]
      cases trackAngles <;> simp

end SplitState

/-! ## The parts -/

/-- The lexemes of the parts with one separator between each two of them. -/
def gather (separator : String) (parts : List Part) : List Lexeme :=
  [⟨.punctuator, separator⟩].intercalate (parts.map (·.lexemes))

section Gather

variable {separator : String} {t : Lexeme} {p : Part} {parts : List Part} {i : Nat}

theorem gather_separator (ht : t = ⟨.punctuator, separator⟩) :
    gather separator (⟨i, []⟩ :: p :: parts) = t :: gather separator (p :: parts) := by
  subst ht
  exact List.intercalate_cons_cons

theorem gather_lexeme :
    gather separator (⟨i, t :: p.lexemes⟩ :: parts) = t :: gather separator (p :: parts) := by
  cases parts with
  | nil => simp [gather]
  | cons q parts => simp [gather, List.intercalate_cons_cons]

end Gather

section Split

variable {separator : String} {trackAngles : Bool} {ts : List Lexeme}

theorem gather_splitFrom : ∀ {i : Nat} {s : SplitState},
    gather separator ((splitFrom separator trackAngles i s ts).1 ::
      (splitFrom separator trackAngles i s ts).2) = ts := by
  induction ts with
  | nil =>
      intro i s
      exact List.intercalate_singleton
  | cons t ts ih =>
      intro i s
      have hrest := ih (i := i + 1) (s := s.next trackAngles t)
      rw [splitFrom]
      dsimp only
      split
      next hseparates => rw [gather_separator (SplitState.eq_of_separates hseparates), hrest]
      next => rw [gather_lexeme, hrest]

/-- Inside a part no lexeme separates. -/
theorem not_separates_of_mem_splitFrom : ∀ {i : Nat} {s : SplitState},
    ∀ p ∈ (splitFrom separator trackAngles i s ts).1 ::
        (splitFrom separator trackAngles i s ts).2, ∀ k t, p.lexemes[k]? = some t →
      ∃ n, p.start + k = i + n ∧ ts[n]? = some t ∧
        (s.after trackAngles (ts.take n)).separates separator trackAngles t = false := by
  induction ts with
  | nil =>
      intro i s p hp k t ht
      obtain rfl := List.mem_singleton.1 hp
      cases ht
  | cons t ts ih =>
      intro i s p hp k u hu
      have hrest : ∀ q ∈ (splitFrom separator trackAngles (i + 1) (s.next trackAngles t) ts).1 ::
          (splitFrom separator trackAngles (i + 1) (s.next trackAngles t) ts).2,
          ∀ k, q.lexemes[k]? = some u → ∃ n, q.start + k = i + n ∧ (t :: ts)[n]? = some u ∧
            (s.after trackAngles ((t :: ts).take n)).separates separator trackAngles u = false := by
        intro q hq k hu
        obtain ⟨n, hn, hu, hinner⟩ := ih q hq k u hu
        exact ⟨n + 1, by omega, hu, hinner⟩
      rw [splitFrom] at hp
      dsimp only at hp
      split at hp
      next =>
        rcases List.mem_cons.1 hp with rfl | hp
        · cases hu
        · exact hrest p hp k hu
      next hinner =>
        rcases List.mem_cons.1 hp with rfl | hp
        · cases k with
          | zero =>
              obtain rfl := Option.some.inj hu
              exact ⟨0, rfl, rfl, Bool.eq_false_of_not_eq_true hinner⟩
          | succ k =>
              obtain ⟨n, hn, hfound⟩ := hrest _ List.mem_cons_self k hu
              rw [Part.start_splitFrom] at hn
              exact ⟨n, by dsimp only; omega, hfound⟩
        · exact hrest p (List.mem_cons_of_mem _ hp) k hu

end Split

/-- What a split separates is what separates at its place in the list. -/
theorem separates_after_iff {separator : String} {trackAngles : Bool} {ts : List Lexeme}
    (hsep : separator ∉ nestingPunctuators) {n : Nat} {t : Lexeme} (ht : ts[n]? = some t) :
    (SplitState.after {} trackAngles (ts.take n)).separates separator trackAngles t = true ↔
      SeparatesAt separator trackAngles ts n := by
  have hle : n ≤ ts.length := Nat.le_of_lt (List.getElem?_eq_some_iff.1 ht).1
  rw [SplitState.separates_iff hsep, SplitState.after_take hle]
  constructor
  · rintro ⟨rfl, hdepth, hangles⟩
    exact ⟨ht, hdepth, fun htrack => by simpa [htrack] using hangles⟩
  · rintro ⟨hlexeme, hdepth, hangles⟩
    refine ⟨Option.some.inj (ht.symm.trans hlexeme), hdepth, ?_⟩
    cases trackAngles with
    | false => rfl
    | true => exact hangles rfl

/-- The parts make up the list, the first of whose lexemes has index `start`, with one separator
between each two of them.  They are cut where a lexeme separates, and nowhere else. -/
structure IsSplit (separator : String) (trackAngles : Bool) (start : Nat) (ts : List Lexeme)
    (parts : List Part) : Prop where
  gathered : gather separator parts = ts
  nil_iff : parts = [] ↔ ts = []
  inside : ∀ p ∈ parts, ∀ k t, p.lexemes[k]? = some t →
    ∃ n, p.start + k = start + n ∧ ts[n]? = some t ∧ ¬ SeparatesAt separator trackAngles ts n
  between : ∀ p ∈ parts.tail,
    ∃ n, p.start = start + n + 1 ∧ SeparatesAt separator trackAngles ts n

theorem isSplit_splitTopLevel {separator : String} (hsep : separator ∉ nestingPunctuators)
    (trackAngles : Bool) (start : Nat) (ts : List Lexeme) :
    IsSplit separator trackAngles start ts (splitTopLevel separator trackAngles start ts) := by
  unfold splitTopLevel
  split
  next hnil =>
    obtain rfl := List.isEmpty_iff.1 hnil
    exact ⟨rfl, by simp, by simp, by simp⟩
  next hne =>
    refine ⟨gather_splitFrom, ?_, fun p hp k t ht => ?_, fun p hp => ?_⟩
    · exact ⟨nofun, fun hnil => absurd (List.isEmpty_iff.2 hnil) hne⟩
    · obtain ⟨n, hn, ht', hseparates⟩ := not_separates_of_mem_splitFrom p hp k t ht
      refine ⟨n, hn, ht', fun hat => ?_⟩
      rw [(separates_after_iff hsep ht').2 hat] at hseparates
      cases hseparates
    · obtain ⟨n, t, hn, ht, hseparates⟩ := separates_before_splitFrom p hp
      exact ⟨n, hn, (separates_after_iff hsep ht).1 hseparates⟩

/-! ## With angles and without -/

/-- A run of parts as one part, the separators between them put back. -/
def Part.merge (separator : String) (run : List Part) : Part :=
  ⟨(run.head?.map (·.start)).getD 0, gather separator run⟩

theorem SplitState.separates_plain {separator : String} {s s' : SplitState} {t : Lexeme}
    (hdepth : s.depth = s'.depth) (hangles : s'.angles = 0)
    (h : s.separates separator true t = true) : s'.separates separator false t = true := by
  simp only [separates, Bool.and_eq_true] at h ⊢
  obtain ⟨⟨⟨⟨⟨⟨⟨hkind, hopens⟩, hcloses⟩, -⟩, -⟩, htext⟩, hat⟩, -⟩ := h
  exact ⟨⟨⟨⟨⟨⟨⟨hkind, hopens⟩, hcloses⟩, rfl⟩, rfl⟩, htext⟩, hdepth ▸ hat⟩, beq_iff_eq.2 hangles⟩

theorem SplitState.angles_next_plain {s : SplitState} (h : s.angles = 0) (t : Lexeme) :
    (s.next false t).angles = 0 := by
  rw [angles_next, if_neg (by simp), h]

/-- The parts with angles tracked are runs of the parts without, from any two states that count
brackets alike. -/
theorem exists_runs_splitFrom (separator : String) (ts : List Lexeme) :
    ∀ (i : Nat) (s s' : SplitState), s.depth = s'.depth → s'.angles = 0 →
      ∃ (run : List Part) (runs : List (List Part)), (∀ r ∈ runs, r ≠ []) ∧
        (splitFrom separator false i s' ts).2 = run ++ runs.flatten ∧
        (splitFrom separator true i s ts).1 =
          Part.merge separator ((splitFrom separator false i s' ts).1 :: run) ∧
        (splitFrom separator true i s ts).2 = runs.map (Part.merge separator) := by
  induction ts with
  | nil =>
      intro i s s' _ _
      exact ⟨[], [], by simp, rfl, by simp [splitFrom, Part.merge, gather], rfl⟩
  | cons t ts ih =>
      intro i s s' hdepth hangles
      have hdepth' : (s.next true t).depth = (s'.next false t).depth := by
        rw [SplitState.depth_next, SplitState.depth_next, hdepth]
      obtain ⟨run, runs, hne, hplain, hfirst, hlater⟩ :=
        ih (i + 1) _ _ hdepth' (SplitState.angles_next_plain hangles t)
      rw [splitFrom, splitFrom]
      generalize splitFrom separator false (i + 1) (s'.next false t) ts = plain at hplain hfirst
      generalize splitFrom separator true (i + 1) (s.next true t) ts = tracked at hfirst hlater
      obtain ⟨part, later⟩ := plain
      obtain ⟨part', later'⟩ := tracked
      dsimp only at hplain hfirst hlater ⊢
      by_cases htracked : s.separates separator true t = true
      · -- both splits cut here, and the run in progress is a whole one
        rw [if_pos htracked, if_pos (SplitState.separates_plain hdepth hangles htracked)]
        refine ⟨[], (part :: run) :: runs, ?_, ?_, ?_, ?_⟩
        · exact List.forall_mem_cons.2 ⟨List.cons_ne_nil part run, hne⟩
        · rw [hplain, List.nil_append, List.flatten_cons, List.cons_append]
        · simp [Part.merge, gather]
        · rw [hfirst, hlater, List.map_cons]
      · rw [if_neg htracked]
        split
        next hseparates =>
          -- only the plain split cuts here, so its part joins the run in progress
          refine ⟨part :: run, runs, hne, ?_, ?_, hlater⟩
          · rw [hplain, List.cons_append]
          · rw [Part.merge, gather_separator (SplitState.eq_of_separates hseparates), hfirst]
            rfl
        next =>
          refine ⟨run, runs, hne, hplain, ?_, hlater⟩
          rw [Part.merge, gather_lexeme, hfirst]
          rfl

theorem exists_runs (separator : String) (start : Nat) (ts : List Lexeme) :
    ∃ runs : List (List Part), (∀ run ∈ runs, run ≠ []) ∧
      splitTopLevel separator false start ts = runs.flatten ∧
      splitTopLevel separator true start ts = runs.map (Part.merge separator) := by
  unfold splitTopLevel
  split
  · exact ⟨[], by simp, rfl, rfl⟩
  · obtain ⟨run, runs, hne, hplain, hfirst, hlater⟩ :=
      exists_runs_splitFrom separator ts start {} {} rfl rfl
    dsimp only
    refine ⟨((splitFrom separator false start {} ts).1 :: run) :: runs,
      List.forall_mem_cons.2 ⟨List.cons_ne_nil _ _, hne⟩, ?_, ?_⟩
    · rw [hplain, List.flatten_cons, List.cons_append]
    · rw [hfirst, hlater, List.map_cons]

/-- A split at a separator that is neither a bracket nor an angle loses nothing and cuts exactly
where the separator stands at the top level, with template argument lists tracked and without.  The
parts with angles are the parts without, run by run with the separators put back, so there are no
more of them. -/
theorem splits_compare {separator : String} (hsep : separator ∉ nestingPunctuators) (start : Nat)
    (ts : List Lexeme) :
    (∀ trackAngles, IsSplit separator trackAngles start ts
      (splitTopLevel separator trackAngles start ts)) ∧
    (∃ runs : List (List Part), (∀ run ∈ runs, run ≠ []) ∧
      splitTopLevel separator false start ts = runs.flatten ∧
      splitTopLevel separator true start ts = runs.map (Part.merge separator)) ∧
    (splitTopLevel separator true start ts).length ≤
      (splitTopLevel separator false start ts).length := by
  have hruns := exists_runs separator start ts
  refine ⟨fun trackAngles => isSplit_splitTopLevel hsep trackAngles start ts, hruns, ?_⟩
  obtain ⟨runs, hne, hplain, htracked⟩ := hruns
  have hcount : ∀ n ∈ runs.map List.length, 1 ≤ n := by
    intro n hn
    obtain ⟨run, hrun, rfl⟩ := List.mem_map.1 hn
    exact List.length_pos_iff.2 (hne run hrun)
  rw [hplain, htracked, List.length_flatten]
  simpa using List.length_le_sum_of_one_le _ hcount

/-- The parameters of `(A<B, C> x, int y)`: two of them, or three if angles are not tracked. -/
theorem splits_compare_parameters :
    ∃ ts : List Lexeme, ts = [⟨.word, "A"⟩, ⟨.punctuator, "<"⟩, ⟨.word, "B"⟩, ⟨.punctuator, ","⟩,
        ⟨.word, "C"⟩, ⟨.punctuator, ">"⟩, ⟨.word, "x"⟩, ⟨.punctuator, ","⟩, ⟨.word, "int"⟩,
        ⟨.word, "y"⟩] ∧
      "," ∉ nestingPunctuators ∧
      IsSplit "," true 1 ts (splitTopLevel "," true 1 ts) ∧
      IsSplit "," false 1 ts (splitTopLevel "," false 1 ts) ∧
      (splitTopLevel "," true 1 ts).map (·.start) = [1, 9] ∧
      (splitTopLevel "," false 1 ts).map (·.start) = [1, 5, 9] ∧
      (splitTopLevel "," true 1 ts).length ≤ (splitTopLevel "," false 1 ts).length := by
  have hsep : "," ∉ nestingPunctuators := by decide
  refine ⟨_, rfl, hsep, (splits_compare hsep 1 _).1 true, (splits_compare hsep 1 _).1 false,
    by decide, by decide, (splits_compare hsep 1 _).2.2⟩

end CxxFloor
