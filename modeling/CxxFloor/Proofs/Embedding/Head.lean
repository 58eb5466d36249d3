/-
# Heads inside a longer file

What a head announces is read between the start of a statement and the brace
or the semicolon that ends the head, so it is the same in a longer file.  The
front of a head is the one part that is also read up to the end of the file,
where the two files differ in length; the ends are alike all the same, since
the reading stops at an index that both have (`headFront_eq`).
-/
import CxxFloor.Proofs.Embedding.Basic
import CxxFloor.Proofs.Scope.Reads

namespace CxxFloor

def HeadFront.shift (d : Nat) (front : HeadFront) : HeadFront :=
  { front with bodyStart := d + front.bodyStart }

def Head.shift (d : Nat) (head : Head) : Head := { head with bodyStart := d + head.bodyStart }

namespace Bracketed

theorem punctAt_of_angleFrom? {b : Bracketed} {i j : Nat} {depth : Int}
    (h : b.angleFrom? i depth = some j) : b.punctAt j ">" = true := by
  fun_induction angleFrom? b i depth with
  | case1 i depth hlt hopen ih => exact ih h
  | case2 i hlt hopen hclose =>
      cases h
      exact hclose
  | case3 i depth hlt hopen hclose hdepth ih => exact ih h
  | case4 i depth hlt hopen hclose hgroup k hk ih => exact ih h
  | case5 => cases h
  | case6 => cases h
  | case7 i depth hlt hopen hclose hgroup hend ih => exact ih h
  | case8 => cases h

theorem templateHeaderEnd?_eq_some {b : Bracketed} {k stop c : Nat} :
    b.templateHeaderEnd? k stop = some c ↔
      b.wordAt k "template" = true ∧ b.punctAt (k + 1) "<" = true ∧
        b.angleEnd? (k + 1) = some c ∧ c < stop := by
  constructor
  · intro h
    simp only [templateHeaderEnd?] at h
    split at h
    next hfront =>
      simp only [Bool.and_eq_true] at hfront
      obtain ⟨hangle, hc⟩ := Option.filter_eq_some_iff.1 h
      exact ⟨hfront.1.1, hfront.2, hangle, by simpa using hc⟩
    next => cases h
  · rintro ⟨hword, hopen, hangle, hc⟩
    have hkc := le_of_angleEnd? hangle
    have hk : k + 1 < stop := Nat.lt_of_le_of_lt hkc hc
    simp [templateHeaderEnd?, hword, hopen, hangle, hc, hk]

theorem punctAt_of_templateHeaderEnd? {b : Bracketed} {k stop c : Nat}
    (h : b.templateHeaderEnd? k stop = some c) : b.punctAt c ">" = true :=
  punctAt_of_angleFrom? (templateHeaderEnd?_eq_some.1 h).2.2.1

theorem headFront_def (b : Bracketed) (k stop : Nat) :
    b.headFront k stop =
      if k < stop then
        match b.templateHeaderEnd? k stop with
        | some c =>
          let rest := b.headFront (c + 1) stop
          { rest with
            template := true
            templateNames := templateParameterNames (b.between (k + 2) c) ++ rest.templateNames }
        | none =>
          match b.attributeEnd? k with
          | some c => if k + 1 < stop then b.headFront (c + 1) stop else { bodyStart := k }
          | none =>
            if b.wordInAt k leadingSpecifiers then b.headFront (k + 1) stop
            else { bodyStart := k }
      else { bodyStart := k } := by
  rw [headFront]
  split
  · split
    next hc => rw [hc]
    next hc =>
      rw [hc]
      split
      next hc' => rw [hc']
      next hc' => rw [hc']
  · rfl

theorem className?_def (b : Bracketed) (k stop : Nat) :
    b.className? k stop =
      if k < stop then
        match b.operandEnd? k with
        | some c => b.className? (c + 1) stop
        | none =>
          match b.at? k with
          | some t =>
            if t.isWordIn classNameSkips then b.className? (k + 1) stop
            else if t.isName then some t.text
            else none
          | none => none
      else none := by
  rw [className?]
  split
  · split
    next hc => rw [hc]
    next hc => exact hc ▸ rfl
  · rfl

namespace Embeds

variable {b b' : Bracketed} {d start stop stop' k : Nat}

/-! ## Fronts -/

def SameEnd (b b' : Bracketed) (d stop stop' : Nat) : Prop :=
  ∀ j, b.Visible b' d j → (d + j < stop' ↔ j < stop)

theorem sameEnd_add (stop : Nat) : SameEnd b b' d stop (d + stop) :=
  fun _ _ => Nat.add_lt_add_iff_left

theorem sameEnd_size (h : b.Embeds b' d) : SameEnd b b' d b.size b'.size := by
  intro j hj
  have := h.size_le
  rcases hj with hlt | hsize <;> omega

theorem templateHeaderEnd?_eq (h : b.Embeds b' d) (hend : SameEnd b b' d stop stop')
    (hk : b.Visible b' d k) :
    b'.templateHeaderEnd? (d + k) stop' = (b.templateHeaderEnd? k stop).map (d + ·) := by
  unfold templateHeaderEnd?
  rw [h.wordAt_eq hk]
  by_cases hword : b.wordAt k "template" = true
  · have hnext : b.Visible b' d (k + 1) := h.visible_succ_of_wordAt hword
    rw [Nat.add_assoc, h.punctAt_eq hnext, h.angleEnd?_eq hnext]
    have hlt := hend _ hnext
    simp only [hlt]
    split
    next =>
      cases hc : b.angleEnd? (k + 1) with
      | none => rfl
      | some c =>
          have hc' := hend c (visible_of_lt (lt_size_of_punctAt (punctAt_of_angleFrom? hc)))
          simp only [Option.map_some, Option.filter_some, hc']
          split <;> rfl
    next => rfl
  · simp [hword]

theorem headFront_eq (h : b.Embeds b' d) (hend : SameEnd b b' d stop stop')
    (hk : b.Visible b' d k) : b'.headFront (d + k) stop' = (b.headFront k stop).shift d := by
  fun_induction headFront b k stop with
  | case1 k hlt c hc rest ih =>
      have hclose := punctAt_of_templateHeaderEnd? hc
      have hnext : b.Visible b' d (c + 1) := h.visible_succ_of_punctAt hclose (by decide)
      have hnames : b'.between (d + (k + 2)) (d + c) = b.between (k + 2) c :=
        h.between_eq (Nat.le_of_lt (lt_size_of_punctAt hclose))
      rw [headFront_def, if_pos ((hend k hk).2 hlt), h.templateHeaderEnd?_eq hend hk, hc]
      simp only [Option.map_some, Nat.add_assoc, ih hnext, hnames]
      rfl
  | case2 k hlt hnone c hc hlt' ih =>
      have hnext : b.Visible b' d (c + 1) :=
        h.visible_succ_of_closer (closer?_of_attributeEnd? hc)
      have hsecond : b.Visible b' d (k + 1) :=
        h.visible_succ_of_partner (partner?_of_closer? (closer?_of_attributeEnd? hc))
      rw [headFront_def, if_pos ((hend k hk).2 hlt), h.templateHeaderEnd?_eq hend hk, hnone,
        h.attributeEnd?_eq hk, hc]
      simp only [Option.map_none, Option.map_some, Nat.add_assoc]
      rw [if_pos ((hend (k + 1) hsecond).2 hlt'), ih hnext]
  | case3 k hlt hnone c hc hge =>
      have hsecond : b.Visible b' d (k + 1) :=
        h.visible_succ_of_partner (partner?_of_closer? (closer?_of_attributeEnd? hc))
      rw [headFront_def, if_pos ((hend k hk).2 hlt), h.templateHeaderEnd?_eq hend hk, hnone,
        h.attributeEnd?_eq hk, hc]
      simp only [Option.map_none, Option.map_some, Nat.add_assoc]
      rw [if_neg (by rw [hend (k + 1) hsecond]; exact hge)]
      rfl
  | case4 k hlt hnone hnone' hword ih =>
      rw [headFront_def, if_pos ((hend k hk).2 hlt), h.templateHeaderEnd?_eq hend hk, hnone,
        h.attributeEnd?_eq hk, hnone']
      simp only [Option.map_none, h.wordInAt_eq hk, hword, if_true, Nat.add_assoc]
      exact ih (h.visible_succ_of_wordInAt hword)
  | case5 k hlt hnone hnone' hword =>
      rw [headFront_def, if_pos ((hend k hk).2 hlt), h.templateHeaderEnd?_eq hend hk, hnone,
        h.attributeEnd?_eq hk, hnone']
      simp only [Option.map_none, h.wordInAt_eq hk, hword, if_false, Bool.false_eq_true]
      rfl
  | case6 k hge =>
      rw [headFront, if_neg (by rw [hend k hk]; exact hge)]
      rfl

theorem bodyStart_headFront (h : b.Embeds b' d) (hk : b.Visible b' d start) (stop : Nat) :
    (b'.headFront (d + start) (d + stop)).bodyStart = d + (b.headFront start stop).bodyStart := by
  rw [h.headFront_eq (sameEnd_add stop) hk]
  rfl

/-! ## Ranges -/

section Range

variable (h : b.Embeds b' d) (hstop : stop ≤ b.size)
include h hstop

theorem any_topLevel_eq {p p' : Nat → Bool} (hp : ∀ k, start ≤ k → k < stop → p' (d + k) = p k) :
    (b'.topLevel (d + start) (d + stop)).any p' = (b.topLevel start stop).any p := by
  have hmem : ∀ k ∈ b.topLevel start stop, p' (d + k) = p k := fun k hk =>
    hp k (mem_topLevel hk).1 (mem_topLevel hk).2
  rw [h.topLevel_eq hstop, List.any_map, Bool.eq_iff_iff, List.any_eq_true, List.any_eq_true]
  constructor
  · rintro ⟨k, hk, hpk⟩
    exact ⟨k, hk, (hmem k hk).symm.trans hpk⟩
  · rintro ⟨k, hk, hpk⟩
    exact ⟨k, hk, (hmem k hk).trans hpk⟩

theorem hasInitializer_eq :
    b'.hasInitializer (d + start) (d + stop) = b.hasInitializer start stop := by
  refine h.any_topLevel_eq hstop ?_
  intro k hk hlt
  have hvisible : b.Visible b' d k := Or.inl (Nat.lt_of_lt_of_le hlt hstop)
  rw [h.punctAt_eq hvisible]
  congr 2
  by_cases hstart : start < k
  · have hbefore : b.Visible b' d (k - 1) := Or.inl (by omega)
    rw [Nat.add_sub_assoc (by omega), h.wordAt_eq hbefore]
    simp [hstart]
  · simp [hstart]

theorem className?_eq : b'.className? (d + k) (d + stop) = b.className? k stop := by
  fun_induction className? b k stop with
  | case1 k hlt c hc ih =>
      have hk : b.Visible b' d k := Or.inl (Nat.lt_of_lt_of_le hlt hstop)
      rw [className?_def, if_pos (Nat.add_lt_add_left hlt d), h.operandEnd?_eq hk, hc]
      exact ih
  | case2 k hlt hc t ht hskip ih =>
      have hk : b.Visible b' d k := Or.inl (Nat.lt_of_lt_of_le hlt hstop)
      rw [className?_def, if_pos (Nat.add_lt_add_left hlt d), h.operandEnd?_eq hk, hc, h.at?_eq hk,
        ht]
      simp only [Option.map_none, hskip, if_true]
      exact ih
  | case3 k hlt hc t ht hskip hname =>
      have hk : b.Visible b' d k := Or.inl (Nat.lt_of_lt_of_le hlt hstop)
      rw [className?_def, if_pos (Nat.add_lt_add_left hlt d), h.operandEnd?_eq hk, hc, h.at?_eq hk,
        ht]
      simp [hskip, hname]
  | case4 k hlt hc t ht hskip hname =>
      have hk : b.Visible b' d k := Or.inl (Nat.lt_of_lt_of_le hlt hstop)
      rw [className?_def, if_pos (Nat.add_lt_add_left hlt d), h.operandEnd?_eq hk, hc, h.at?_eq hk,
        ht]
      simp [hskip, hname]
  | case5 k hlt hc ht =>
      have hk : b.Visible b' d k := Or.inl (Nat.lt_of_lt_of_le hlt hstop)
      rw [className?_def, if_pos (Nat.add_lt_add_left hlt d), h.operandEnd?_eq hk, hc, h.at?_eq hk,
        ht]
      rfl
  | case6 k hge => rw [className?, if_neg (by omega)]

theorem continuesMemberInitializers_eq (hpos : 0 < stop) :
    b'.continuesMemberInitializers (d + start) (d + stop)
      = b.continuesMemberInitializers start stop := by
  have hbefore : b.Visible b' d (stop - 1) := Or.inl (by omega)
  unfold continuesMemberInitializers
  rw [h.any_topLevel_eq hstop fun k _ hlt =>
      h.punctAt_eq (Or.inl (Nat.lt_of_lt_of_le hlt hstop)) ":",
    Nat.add_sub_assoc hpos, h.nameAt_eq hbefore, h.punctAt_eq hbefore]

theorem withoutTry_eq {start' : Nat} (hstart : start' < d + stop ↔ start < stop) :
    b'.withoutTry start' (d + stop) = d + b.withoutTry start stop := by
  unfold withoutTry
  by_cases hlt : start < stop
  · have hbefore : b.Visible b' d (stop - 1) := Or.inl (by omega)
    rw [Nat.add_sub_assoc (by omega), h.wordAt_eq hbefore]
    simp only [hlt, hstart.2 hlt]
    split <;> rfl
  · simp [hlt, hstart]

theorem declaresConstantFunction_eq (hstart : b.Visible b' d start) :
    b'.declaresConstantFunction (d + start) (d + stop) = b.declaresConstantFunction start stop := by
  unfold declaresConstantFunction
  rw [h.bodyStart_headFront hstart, h.slice_eq hstop]

theorem declaresConstantVariable_eq (hstart : b.Visible b' d start) (requireEquals : Bool) :
    b'.declaresConstantVariable (d + start) (d + stop) requireEquals
      = b.declaresConstantVariable start stop requireEquals := by
  unfold declaresConstantVariable
  rw [h.bodyStart_headFront hstart, h.slice_eq hstop]

theorem declaresDataMember_eq (hstart : b.Visible b' d start) :
    b'.declaresDataMember (d + start) (d + stop) = b.declaresDataMember start stop := by
  unfold declaresDataMember
  rw [h.wordInAt_eq hstart, h.slice_eq hstop]

theorem namesOperator_eq :
    b'.namesOperator (d + start) (d + stop) = b.namesOperator start stop := by
  have hlength : d + stop - 2 - (d + start) = stop - 2 - start := by omega
  unfold namesOperator
  rw [hlength, ← List.map_add_range', List.any_map, Bool.eq_iff_iff, List.any_eq_true,
    List.any_eq_true]
  refine exists_congr fun k => and_congr_right ?_
  intro hk
  have hrange := List.mem_range'_1.1 hk
  have hvisible : b.Visible b' d k := Or.inl (by omega)
  have hnext : b.Visible b' d (k + 1) := Or.inl (by omega)
  have hsecond : b.Visible b' d (k + 2) := Or.inl (by omega)
  have hcalled : (decide (d + start < d + k) && b'.punctInAt (d + k - 1) [".", "->"]) =
      (decide (start < k) && b.punctInAt (k - 1) [".", "->"]) := by
    by_cases hstart : start < k
    · have hbefore : b.Visible b' d (k - 1) := Or.inl (by omega)
      rw [Nat.add_sub_assoc (by omega), h.punctInAt_eq hbefore]
      simp
    · simp [hstart]
  simp only [Function.comp, Nat.add_assoc, h.wordAt_eq hvisible, h.punctAt_eq hnext,
    h.punctAt_eq hsecond, hcalled]

theorem functionHead?_eq (hpos : 0 < stop) :
    b'.functionHead? (d + start) (d + stop) = b.functionHead? start stop := by
  unfold functionHead?
  rw [h.slice_eq hstop]
  dsimp only
  split
  next opener closer _ =>
    rw [show d + start + closer + 1 = d + (start + closer + 1) by omega,
      h.continuesMemberInitializers_eq hstop hpos]
  next => rfl

end Range

/-! ## The decision -/

theorem head_eq (h : b.Embeds b' d) (hstart : b.Visible b' d start) (hstop : stop ≤ b.size)
    {scope scope' : Scope} (hkind : scope'.kind = scope.kind)
    (htemplate : scope'.template = scope.template)
    (hnames : scope'.templateNames = scope.templateNames) :
    b'.head scope' (d + start) (d + stop) = (b.head scope start stop).shift d := by
  have hfront := h.headFront_eq (sameEnd_add stop) hstart
  have hbody : (b'.headFront (d + start) (d + stop)).bodyStart
      = d + (b.headFront start stop).bodyStart := h.bodyStart_headFront hstart stop
  have htry : b'.withoutTry (d + (b.headFront start stop).bodyStart) (d + stop)
      = d + b.withoutTry (b.headFront start stop).bodyStart stop :=
    h.withoutTry_eq hstop Nat.add_lt_add_iff_left
  have hle : b.withoutTry (b.headFront start stop).bodyStart stop ≤ b.size :=
    Nat.le_trans (withoutTry_le _ _) hstop
  unfold head
  simp only [hfront, HeadFront.shift, htry]
  generalize hbodyStart : (b.headFront start stop).bodyStart = body at *
  generalize b.withoutTry body stop = last at *
  by_cases hempty : last ≤ body
  · simp [hempty, Head.shift, htemplate, hnames]
  · have hbodyVisible : b.Visible b' d body := Or.inl (by omega)
    have hlast : b.Visible b' d (last - 1) := Or.inl (by omega)
    have hstring : (decide (d + body + 1 < d + last) &&
          (b'.at? (d + body + 1)).any (·.kind == .string)) =
        (decide (body + 1 < last) && (b.at? (body + 1)).any (·.kind == .string)) := by
      by_cases hlt : body + 1 < last
      · have hnext : b.Visible b' d (body + 1) := Or.inl (by omega)
        rw [Nat.add_assoc, h.at?_eq hnext]
        simp
      · have hlt' : ¬ d + body + 1 < d + last := by omega
        simp [hlt, hlt']
    have hpred : d + last - 1 = d + (last - 1) := Nat.add_sub_assoc (by omega) d
    have hends : b'.endsControlHead (d + (last - 1)) = b.endsControlHead (last - 1) := by
      rw [endsControlHead, endsControlHead, h.punctInAt_eq hlast, h.textInAt_eq hlast]
    have hname : b'.className? (d + body + 1) (d + last) = b.className? (body + 1) last := by
      rw [Nat.add_assoc, h.className?_eq hle]
    have hpos : 0 < last := by omega
    have hnot : ¬ d + last ≤ d + body := by omega
    rw [if_neg hempty, if_neg hnot]
    simp only [Bool.and_assoc, hstring, hends, hname, hpred, hkind, htemplate, hnames,
      h.wordAt_eq hbodyVisible, h.wordInAt_eq hbodyVisible, h.at?_eq hbodyVisible,
      h.punctAt_eq hlast, h.hasInitializer_eq hle, h.functionHead?_eq hle hpos]
    repeat' split
    all_goals rfl

end Embeds

end Bracketed

end CxxFloor
