/-
# A file inside a longer one

The lexemes of a file stand somewhere in a longer file, their brackets paired
among themselves (`Bracketed.Embeds`).  Whatever is read at an index of the
file is then read at the moved index of the longer one, provided that the
reading does not run over an end of the file.  What keeps it inside is a word
at the front and a semicolon at the end: nothing looks back over the semicolon
before the word, and nothing that starts before a semicolon looks on behind
it.  An index where both files read the same is visible
(`Bracketed.Visible`), and the index behind a visible one is visible too
unless that one holds the semicolon (`Embeds.visible_succ`).  So is the index
behind every cut (`StepCut.visible`).
-/
import CxxFloor.Proofs.Scope.Range

namespace CxxFloor

namespace Bracketed

/-- The lexemes end with a semicolon, and there is no `requires` among them. -/
structure Closed (b : Bracketed) : Prop where
  last : b.punctAt (b.size - 1) ";" = true
  unconstrained : ∀ i, b.wordAt i "requires" = false

/-- The lexemes of `b` stand in `b'` from index `d` on. -/
structure Embeds (b b' : Bracketed) (d : Nat) : Prop where
  nested : b.Nested
  nested' : b'.Nested
  at?_of_lt : ∀ {i}, i < b.size → b'.at? (d + i) = b.at? i
  partner?_of_lt : ∀ {i}, i < b.size →
    b'.pairs.partner? (d + i) = (b.pairs.partner? i).map (d + ·)
  size_le : d + b.size ≤ b'.size
  /-- Nothing stands before them but what ends with a semicolon. -/
  before : d = 0 ∨ b'.punctAt (d - 1) ";" = true
  first : 0 < b.size → b.nameAt 0 = true
  /-- Nothing stands behind them unless they end with a semicolon themselves. -/
  behind : d + b.size = b'.size ∨ b.Closed

/-- Nothing is read at index `i` of `b` that is not read at `d + i` of `b'`. -/
def Visible (b b' : Bracketed) (d i : Nat) : Prop := i < b.size ∨ d + b.size = b'.size

theorem punctAt_eq_false {b : Bracketed} {i : Nat} {s : String} {ss : List String}
    (h : b.punctInAt i ss = false) (hs : s ∈ ss) : b.punctAt i s = false :=
  Bool.eq_false_iff.2 fun hp => Bool.eq_false_iff.1 h (punctInAt_of_punctAt hp hs)

/-! ## Walks without their bounds

A walk that jumps over groups keeps the bound of each jump for its termination.  Where it is
rewritten the bounds are in the way. -/

theorem topLevel_def (b : Bracketed) (i stop : Nat) :
    b.topLevel i stop =
      if i < stop then i :: b.topLevel ((b.groupEnd? i).getD i + 1) stop else [] := by
  rw [topLevel]
  split
  · split
    next hj => rw [hj]; rfl
    next hj => rw [hj]; rfl
  · rfl

theorem angleFrom?_def (b : Bracketed) (i : Nat) (depth : Int) :
    b.angleFrom? i depth =
      if i < b.size then
        if b.punctAt i "<" then b.angleFrom? (i + 1) (depth + 1)
        else if b.punctAt i ">" then
          if depth = 1 then some i else b.angleFrom? (i + 1) (depth - 1)
        else if b.punctInAt i ["(", "["] then
          (b.closer? i).bind fun j => b.angleFrom? (j + 1) depth
        else if b.punctInAt i [";", "\x7b", "\x7d", ")", "]"] then none
        else b.angleFrom? (i + 1) depth
      else none := by
  rw [angleFrom?]
  repeat' split
  all_goals try rfl
  next hj => rw [hj]; rfl
  next hj => rw [hj]; rfl

namespace Embeds

variable {b b' : Bracketed} {d i j : Nat}

/-! ## Single lexemes -/

theorem visible_of_lt (hi : i < b.size) : b.Visible b' d i := Or.inl hi

theorem at?_eq (h : b.Embeds b' d) (hi : b.Visible b' d i) : b'.at? (d + i) = b.at? i := by
  rcases Nat.lt_or_ge i b.size with hlt | hge
  · exact h.at?_of_lt hlt
  · rcases hi with hlt | hsize
    · exact h.at?_of_lt hlt
    · have hnone : b.at? i = none := Array.getElem?_eq_none hge
      have hnone' : b'.at? (d + i) = none := by
        refine Array.getElem?_eq_none ?_
        have hle : b'.size ≤ d + i := by omega
        exact hle
      rw [hnone, hnone']

theorem partner?_eq (h : b.Embeds b' d) (hi : b.Visible b' d i) :
    b'.pairs.partner? (d + i) = (b.pairs.partner? i).map (d + ·) := by
  rcases Nat.lt_or_ge i b.size with hlt | hge
  · exact h.partner?_of_lt hlt
  · have hsize : d + b.size = b'.size := hi.resolve_left (Nat.not_lt_of_le hge)
    have hnone : b.pairs.partner? i = none := by
      cases hp : b.pairs.partner? i with
      | none => rfl
      | some j => exact absurd (h.nested.lt_size hp) (Nat.not_lt_of_le hge)
    have hnone' : b'.pairs.partner? (d + i) = none := by
      cases hp : b'.pairs.partner? (d + i) with
      | none => rfl
      | some j =>
          have := h.nested'.lt_size hp
          omega
    rw [hnone, hnone']
    rfl

theorem isSome_partner? (h : b.Embeds b' d) (hi : b.Visible b' d i) :
    (b'.pairs.partner? (d + i)).isSome = (b.pairs.partner? i).isSome := by
  rw [h.partner?_eq hi, Option.isSome_map]

section Reads

variable (h : b.Embeds b' d) (hi : b.Visible b' d i)
include h hi

theorem punctAt_eq (s : String) : b'.punctAt (d + i) s = b.punctAt i s := by
  rw [punctAt, punctAt, h.at?_eq hi]

theorem punctInAt_eq (ss : List String) : b'.punctInAt (d + i) ss = b.punctInAt i ss := by
  rw [punctInAt, punctInAt, h.at?_eq hi]

theorem wordAt_eq (s : String) : b'.wordAt (d + i) s = b.wordAt i s := by
  rw [wordAt, wordAt, h.at?_eq hi]

theorem wordInAt_eq (ss : List String) : b'.wordInAt (d + i) ss = b.wordInAt i ss := by
  rw [wordInAt, wordInAt, h.at?_eq hi]

theorem nameAt_eq : b'.nameAt (d + i) = b.nameAt i := by
  rw [nameAt, nameAt, h.at?_eq hi]

theorem textInAt_eq (ss : List String) : b'.textInAt (d + i) ss = b.textInAt i ss := by
  rw [textInAt, textInAt, h.at?_eq hi]

theorem closer?_eq : b'.closer? (d + i) = (b.closer? i).map (d + ·) := by
  unfold closer? Pairing.closer?
  rw [h.partner?_eq hi]
  cases b.pairs.partner? i with
  | none => rfl
  | some j =>
      simp only [Option.map_some, Option.filter_some, Nat.add_lt_add_iff_left]
      split <;> rfl

theorem groupEnd?_eq : b'.groupEnd? (d + i) = (b.groupEnd? i).map (d + ·) := by
  unfold groupEnd?
  rw [h.at?_eq hi, h.closer?_eq hi]
  split <;> rfl

theorem operandEnd?_eq : b'.operandEnd? (d + i) = (b.operandEnd? i).map (d + ·) := by
  unfold operandEnd?
  rw [h.punctInAt_eq hi, h.closer?_eq hi]
  split <;> rfl

theorem roundEnd?_eq : b'.roundEnd? (d + i) = (b.roundEnd? i).map (d + ·) := by
  unfold roundEnd?
  rw [h.punctAt_eq hi, h.closer?_eq hi]
  split <;> rfl

end Reads

/-! ## The next lexeme -/

theorem visible_succ (h : b.Embeds b' d) (hi : b.Visible b' d i)
    (hne : b.punctAt i ";" = false) : b.Visible b' d (i + 1) := by
  rcases h.behind with hsize | hclosed
  · exact Or.inr hsize
  rcases hi with hlt | hsize
  · rcases Nat.lt_or_ge (i + 1) b.size with hlt' | hge
    · exact Or.inl hlt'
    · have hlast : i = b.size - 1 := by omega
      rw [hlast, hclosed.last] at hne
      cases hne
  · exact Or.inr hsize

theorem visible_succ_of_punctAt (h : b.Embeds b' d) {s : String} (hp : b.punctAt i s = true)
    (hs : ";" ≠ s) : b.Visible b' d (i + 1) :=
  h.visible_succ (Or.inl (lt_size_of_punctAt hp)) (punctAt_unique hp hs)

theorem visible_succ_of_text (h : b.Embeds b' d) {t : Lexeme} (ht : b.at? i = some t)
    (hne : t.isPunct ";" = false) : b.Visible b' d (i + 1) := by
  have hlt : i < b.size := (Array.getElem?_eq_some_iff.1 ht).1
  refine h.visible_succ (Or.inl hlt) ?_
  rw [punctAt, ht]
  exact hne

theorem visible_succ_of_name (h : b.Embeds b' d) (hname : b.nameAt i = true) :
    b.Visible b' d (i + 1) := by
  obtain ⟨t, ht, hword⟩ := (Option.any_eq_true _ _).1 hname
  refine h.visible_succ_of_text ht ?_
  simp only [Lexeme.isName, beq_iff_eq] at hword
  simp [Lexeme.isPunct, hword]

theorem visible_succ_of_wordInAt (h : b.Embeds b' d) {ss : List String}
    (hword : b.wordInAt i ss = true) : b.Visible b' d (i + 1) := by
  obtain ⟨t, ht, hp⟩ := (Option.any_eq_true _ _).1 hword
  refine h.visible_succ_of_text ht ?_
  simp only [Lexeme.isWordIn, Bool.and_eq_true, beq_iff_eq] at hp
  simp [Lexeme.isPunct, hp.1]

theorem visible_succ_of_wordAt (h : b.Embeds b' d) {s : String} (hword : b.wordAt i s = true) :
    b.Visible b' d (i + 1) := by
  obtain ⟨t, ht, hp⟩ := (Option.any_eq_true _ _).1 hword
  refine h.visible_succ_of_text ht ?_
  simp only [Lexeme.isWord, Bool.and_eq_true, beq_iff_eq] at hp
  simp [Lexeme.isPunct, hp.1]

theorem visible_succ_of_textInAt (h : b.Embeds b' d) {ss : List String}
    (htext : b.textInAt i ss = true) (hs : ";" ∉ ss) : b.Visible b' d (i + 1) := by
  obtain ⟨t, ht, hp⟩ := (Option.any_eq_true _ _).1 htext
  refine h.visible_succ_of_text ht (Bool.eq_false_iff.2 fun hpunct => hs ?_)
  simp only [Lexeme.isPunct, Bool.and_eq_true, beq_iff_eq] at hpunct
  rw [← hpunct.2]
  simpa using hp

theorem visible_succ_of_partner (h : b.Embeds b' d) (hp : b.pairs.partner? i = some j) :
    b.Visible b' d (i + 1) := by
  refine h.visible_succ (Or.inl (h.nested.lt_size hp)) (Bool.eq_false_iff.2 fun hs => ?_)
  have hnone := h.nested.partner?_of_punctAt hs (by decide)
  rw [hnone] at hp
  cases hp

theorem visible_succ_of_closer (h : b.Embeds b' d) (hc : b.closer? i = some j) :
    b.Visible b' d (j + 1) :=
  h.visible_succ_of_partner (h.nested.partner_symm (partner?_of_closer? hc))

theorem attributeEnd?_eq (h : b.Embeds b' d) (hi : b.Visible b' d i) :
    b'.attributeEnd? (d + i) = (b.attributeEnd? i).map (d + ·) := by
  unfold attributeEnd?
  rw [h.punctAt_eq hi]
  by_cases hopen : b.punctAt i "[" = true
  · rw [Nat.add_assoc, h.punctAt_eq (h.visible_succ_of_punctAt hopen (by decide)),
      h.closer?_eq hi]
    split <;> rfl
  · rw [Bool.not_eq_true] at hopen
    simp [hopen]

/-! ## Walks -/

theorem lt_size (h : b.Embeds b' d) (hi : i < b.size) : d + i < b'.size :=
  Nat.lt_of_lt_of_le (Nat.add_lt_add_left hi d) h.size_le

theorem not_lt_size (h : b.Embeds b' d) (hi : b.Visible b' d i) (hge : ¬ i < b.size) :
    ¬ d + i < b'.size := by
  have := h.size_le
  rcases hi with hlt | hsize <;> omega

theorem topLevel_eq (h : b.Embeds b' d) {stop : Nat} (hstop : stop ≤ b.size) :
    b'.topLevel (d + i) (d + stop) = (b.topLevel i stop).map (d + ·) := by
  fun_induction topLevel b i stop with
  | case1 i hlt j hj ih =>
      have hi : b.Visible b' d i := Or.inl (Nat.lt_of_lt_of_le hlt hstop)
      rw [topLevel_def, if_pos (Nat.add_lt_add_left hlt d), h.groupEnd?_eq hi, hj, List.map_cons, ← ih]
      rfl
  | case2 i hlt hj ih =>
      have hi : b.Visible b' d i := Or.inl (Nat.lt_of_lt_of_le hlt hstop)
      rw [topLevel_def, if_pos (Nat.add_lt_add_left hlt d), h.groupEnd?_eq hi, hj, List.map_cons, ← ih]
      rfl
  | case3 i hge =>
      rw [topLevel, if_neg (by omega)]
      rfl

theorem angleFrom?_eq (h : b.Embeds b' d) {depth : Int} (hi : b.Visible b' d i) :
    b'.angleFrom? (d + i) depth = (b.angleFrom? i depth).map (d + ·) := by
  fun_induction angleFrom? b i depth with
  | case1 i depth hlt hopen ih =>
      have hnext : b.Visible b' d (i + 1) := h.visible_succ_of_punctAt hopen (by decide)
      rw [angleFrom?_def, if_pos (h.lt_size hlt)]
      simp [h.punctAt_eq hi, hopen, Nat.add_assoc, ih hnext]
  | case2 i hlt hopen hclose =>
      rw [angleFrom?_def, if_pos (h.lt_size hlt)]
      simp [h.punctAt_eq hi, hopen, hclose]
  | case3 i depth hlt hopen hclose hdepth ih =>
      have hnext : b.Visible b' d (i + 1) := h.visible_succ_of_punctAt hclose (by decide)
      rw [angleFrom?_def, if_pos (h.lt_size hlt)]
      simp [h.punctAt_eq hi, hopen, hclose, hdepth, Nat.add_assoc, ih hnext]
  | case4 i depth hlt hopen hclose hgroup j hj ih =>
      have hnext : b.Visible b' d (j + 1) := h.visible_succ_of_closer hj
      rw [angleFrom?_def, if_pos (h.lt_size hlt)]
      simp [h.punctAt_eq hi, h.punctInAt_eq hi, hopen, hclose, hgroup, h.closer?_eq hi, hj,
        Nat.add_assoc, ih hnext]
  | case5 i depth hlt hopen hclose hgroup hj =>
      rw [angleFrom?_def, if_pos (h.lt_size hlt)]
      simp [h.punctAt_eq hi, h.punctInAt_eq hi, hopen, hclose, hgroup, h.closer?_eq hi, hj]
  | case6 i depth hlt hopen hclose hgroup hend =>
      rw [angleFrom?_def, if_pos (h.lt_size hlt)]
      simp [h.punctAt_eq hi, h.punctInAt_eq hi, hopen, hclose, hgroup, hend]
  | case7 i depth hlt hopen hclose hgroup hend ih =>
      have hnext : b.Visible b' d (i + 1) :=
        h.visible_succ hi (punctAt_eq_false (Bool.eq_false_iff.2 hend) (by simp))
      rw [angleFrom?_def, if_pos (h.lt_size hlt)]
      simp [h.punctAt_eq hi, h.punctInAt_eq hi, hopen, hclose, hgroup, hend, Nat.add_assoc, ih hnext]
  | case8 i depth hge =>
      rw [angleFrom?, if_neg (h.not_lt_size hi hge)]
      rfl

theorem angleEnd?_eq (h : b.Embeds b' d) (hi : b.Visible b' d i) :
    b'.angleEnd? (d + i) = (b.angleEnd? i).map (d + ·) :=
  h.angleFrom?_eq hi

/-! ## Ranges -/

theorem extract_eq (h : b.Embeds b' d) {start stop : Nat} (hstop : stop ≤ b.size) :
    b'.lexemes.extract (d + start) (d + stop) = b.lexemes.extract start stop := by
  have hsize := h.size_le
  refine Array.ext_getElem? ?_
  intro k
  rw [Array.getElem?_extract, Array.getElem?_extract]
  by_cases hk : start + k < stop
  · have hat : b'.lexemes[d + (start + k)]? = b.lexemes[start + k]? :=
      h.at?_of_lt (Nat.lt_of_lt_of_le hk hstop)
    have hlt : k < min (d + stop) b'.lexemes.size - (d + start) := by
      show k < min (d + stop) b'.size - (d + start)
      omega
    have hlt' : k < min stop b.lexemes.size - start := by
      show k < min stop b.size - start
      omega
    rw [if_pos hlt, if_pos hlt', Nat.add_assoc, hat]
  · rw [if_neg (by omega), if_neg (by omega)]

theorem between_eq (h : b.Embeds b' d) {start stop : Nat} (hstop : stop ≤ b.size) :
    b'.between (d + start) (d + stop) = b.between start stop := by
  rw [between, between, h.extract_eq hstop]

theorem slice_eq (h : b.Embeds b' d) {start stop : Nat} (hstop : stop ≤ b.size) :
    b'.slice (d + start) (d + stop) = b.slice start stop := by
  have hpairs : b'.pairs.restrict (d + start) (d + stop) = b.pairs.restrict start stop := by
    unfold Pairing.restrict
    rw [Nat.add_sub_add_left]
    congr 1
    refine Array.map_congr_left ?_
    intro k hk
    have hlt : start + k < b.size := by
      have := List.mem_range.1 (List.mem_toArray.1 hk)
      omega
    rw [Nat.add_assoc, h.partner?_of_lt hlt]
    cases b.pairs.partner? (start + k) with
    | none => rfl
    | some j =>
        simp only [Option.map_some, Option.bind_some, Nat.add_le_add_iff_left,
          Nat.add_lt_add_iff_left, Nat.add_sub_add_left]
  rw [slice, slice, h.extract_eq hstop, hpairs]

end Embeds

end Bracketed

/-! ## What a cut has in sight -/

section Sight

variable {b b' : Bracketed} {d i : Nat}

theorem visible_branchEnd (h : b.Embeds b' d) (hname : b.nameAt i = true) :
    b.Visible b' d ((ScanState.branchEnd b i).1 + 1) := by
  unfold ScanState.branchEnd
  split
  · dsimp only
    split
    next hword => exact h.visible_succ_of_wordAt hword
    next => exact h.visible_succ_of_name hname
  split
  next htext => exact h.visible_succ_of_textInAt htext (by decide)
  split
  next htext => exact h.visible_succ_of_textInAt htext (by decide)
  next => exact h.visible_succ_of_name hname

/-- The token behind a cut is in sight: no cut ends with the semicolon of its statement. -/
theorem StepCut.visible {head first last : Nat} {kind : FragmentKind}
    (hcut : StepCut b head i kind first last) (h : b.Embeds b' d) (hi : i < b.size) :
    b.Visible b' d (last + 1) := by
  cases hcut with
  | literal ht hkind => exact h.visible_succ_of_text ht (by simp [Lexeme.isPunct, hkind])
  | label hcolon =>
      exact h.visible_succ_of_punctAt (Bracketed.punctAt_of_labelEnd? hcolon) (by decide)
  | attributes hclose => exact h.visible_succ_of_closer (Bracketed.closer?_of_attributeEnd? hclose)
  | @lambda close body hopen hclose hbody hclosed =>
      obtain ⟨j, hj⟩ := Option.isSome_iff_exists.1 hclosed
      have := Pairing.lt_of_closer? hj
      have := h.nested.closer?_lt_size hj
      exact Or.inl (by omega)
  | assertion hclose | sizeQuery hclose =>
      exact h.visible_succ_of_closer (Bracketed.closer?_of_roundEnd? hclose)
  | call hclose => exact h.visible_succ_of_closer hclose
  | branch hname => exact visible_branchEnd h hname
  | tryBlock hbrace => exact h.visible_succ_of_punctAt hbrace (by decide)
  | declaration hhead hstop | operator hhead hstop => exact Or.inl (by omega)
  | member hhead => exact Or.inl (by omega)

end Sight

end CxxFloor
