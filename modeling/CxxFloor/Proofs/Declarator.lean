/-
# The declarator in front of an initialiser

Whether a head declares a constant variable is asked of all its tokens up to
the place that asks, those of the initialiser included.  The answer is that of
the declarator in front of the first `=` all the same
(`ConstantDeclarator.declares`): the walk along the top level splits at the `=`,
which no group lies across, and everything else that is read stands before it.
So it is the same at every place behind the `=`, and what decides it is whether
the declarator is taken for that of a function.
-/
import CxxFloor.Proofs.Constraint
import CxxFloor.Proofs.LambdaAgreement

namespace CxxFloor

namespace Bracketed

variable {b b' : Bracketed} {i k n e start stop stop' : Nat}

/-! ## Fronts -/

theorem le_bodyStart (b : Bracketed) (k stop : Nat) : k ≤ (b.headFront k stop).bodyStart := by
  fun_induction headFront b k stop with
  | case1 k _ c hc rest ih =>
      exact Nat.le_trans (Nat.le_of_lt (Nat.lt_succ_of_lt (lt_of_templateHeaderEnd? hc))) ih
  | case2 k _ _ c hc _ ih =>
      exact Nat.le_trans (Nat.le_of_lt (Nat.lt_succ_of_lt (lt_of_attributeEnd? hc))) ih
  | case3 k => exact Nat.le_refl k
  | case4 k _ _ _ _ ih => exact Nat.le_trans (Nat.le_succ k) ih
  | case5 k => exact Nat.le_refl k
  | case6 k => exact Nat.le_refl k

theorem templateHeaderEnd?_eq_filter (hle : stop' ≤ stop) :
    b.templateHeaderEnd? k stop' = (b.templateHeaderEnd? k stop).filter (· < stop') := by
  refine Option.ext fun c => ?_
  simp only [Option.filter_eq_some_iff, templateHeaderEnd?_eq_some, decide_eq_true_eq]
  constructor
  · rintro ⟨hword, hopen, hangle, hc⟩
    exact ⟨⟨hword, hopen, hangle, Nat.lt_of_lt_of_le hc hle⟩, hc⟩
  · rintro ⟨⟨hword, hopen, hangle, -⟩, hc⟩
    exact ⟨hword, hopen, hangle, hc⟩

theorem headFront_of_bodyStart (h : (b.headFront k stop).bodyStart < stop') (hle : stop' ≤ stop) :
    b.headFront k stop' = b.headFront k stop := by
  fun_induction headFront b k stop with
  | case1 k hlt c hc rest ih =>
      have hcb : c + 1 ≤ rest.bodyStart := b.le_bodyStart (c + 1) stop
      have hbody : rest.bodyStart < stop' := h
      have hkc := lt_of_templateHeaderEnd? hc
      have hheader : b.templateHeaderEnd? k stop' = some c := by
        rw [templateHeaderEnd?_eq_filter hle, hc, Option.filter_some, if_pos (by simp; omega)]
      rw [headFront_def, if_pos (by omega), hheader]
      simp only [ih hbody]
      rfl
  | case2 k hlt hnone c hc hlt' ih =>
      have hcb := b.le_bodyStart (c + 1) stop
      have hkc := lt_of_attributeEnd? hc
      rw [headFront_def, if_pos (by omega), templateHeaderEnd?_eq_filter hle, hnone, hc]
      simp only [Option.filter_none]
      rw [if_pos (by omega), ih h]
  | case3 k hlt hnone c hc hge =>
      rw [headFront_def, if_pos h, templateHeaderEnd?_eq_filter hle, hnone, hc]
      simp only [Option.filter_none]
      rw [if_neg (by omega)]
  | case4 k hlt hnone hnone' hword ih =>
      have hkb := b.le_bodyStart (k + 1) stop
      rw [headFront_def, if_pos (by omega), templateHeaderEnd?_eq_filter hle, hnone, hnone']
      simp only [Option.filter_none, hword, if_true]
      exact ih h
  | case5 k hlt hnone hnone' hword =>
      rw [headFront_def, if_pos h, templateHeaderEnd?_eq_filter hle, hnone, hnone']
      simp [hword]
  | case6 k hge =>
      have hlt : k < stop' := h
      omega

/-! ## Levels -/

theorem closer?_of_groupEnd? {j : Nat} (h : b.groupEnd? i = some j) : b.closer? i = some j := by
  simp only [groupEnd?] at h
  split at h
  · exact h
  · cases h

/-- Before index `n` both have the same tokens and the same groups. -/
structure AgreeBefore (b b' : Bracketed) (n : Nat) : Prop where
  at?_eq : ∀ k < n, b'.at? k = b.at? k
  closer?_eq : ∀ k < n, b'.closer? k = b.closer? k

def ClosedBefore (b : Bracketed) (n : Nat) : Prop := ∀ k < n, ∀ c, b.closer? k = some c → c < n

theorem AgreeBefore.groupEnd?_eq (h : b.AgreeBefore b' n) (hi : i < n) :
    b'.groupEnd? i = b.groupEnd? i := by
  rw [groupEnd?, groupEnd?, h.at?_eq i hi, h.closer?_eq i hi]

theorem AgreeBefore.topLevel_eq (h : b.AgreeBefore b' n) : b'.topLevel i n = b.topLevel i n := by
  fun_induction topLevel b i n with
  | case1 i hlt j hj ih =>
      rw [topLevel_def, if_pos hlt, h.groupEnd?_eq hlt, hj]
      exact congrArg _ ih
  | case2 i hlt hj ih =>
      rw [topLevel_def, if_pos hlt, h.groupEnd?_eq hlt, hj]
      exact congrArg _ ih
  | case3 i hge => rw [topLevel_def, if_neg hge]

theorem ClosedBefore.topLevel_append (h : b.ClosedBefore n) (hin : i ≤ n) (hstop : n ≤ stop) :
    b.topLevel i stop = b.topLevel i n ++ b.topLevel n stop := by
  fun_induction topLevel b i n with
  | case1 i hlt j hj ih =>
      have hjn := h i hlt j (closer?_of_groupEnd? hj)
      rw [topLevel_def, if_pos (by omega), hj, List.cons_append]
      exact congrArg _ (ih (by omega))
  | case2 i hlt hj ih =>
      rw [topLevel_def, if_pos (by omega), hj, List.cons_append]
      exact congrArg _ (ih (by omega))
  | case3 i hge =>
      obtain rfl : i = n := by omega
      rfl

/-! ## Parameter lists -/

theorem parameterListFrom?_def (b : Bracketed) (i : Nat) :
    b.parameterListFrom? i =
      if i < b.size then
        if b.wordAt i "operator" then b.operatorParameterList? (i + 1)
        else if (b.at? i).any (·.opens?.isSome) then
          (b.closer? i).bind fun c =>
            if b.punctAt i "(" && b.declaratorBefore i then some (i, c)
            else b.parameterListFrom? (c + 1)
        else if b.punctAt i "<" && 0 < i && b.wordAt (i - 1) "template" then
          (b.angleEnd? i).bind fun c => b.parameterListFrom? (c + 1)
        else if b.punctInAt i ["=", ";"] then none
        else b.parameterListFrom? (i + 1)
      else none := by
  rw [parameterListFrom?]
  split
  · split
    · rfl
    split
    · split
      next hc => rw [hc]; rfl
      next hc => rw [hc]; rfl
    split
    · split
      next hc => rw [hc]; rfl
      next hc => rw [hc]; rfl
    · rfl
  · rfl

namespace AgreeBefore

variable (h : b.AgreeBefore b' b.size) (hsize : b'.size = b.size)
include h hsize

theorem at?_congr : b'.at? = b.at? := by
  funext k
  rcases Nat.lt_or_ge k b.size with hlt | hge
  · exact h.at?_eq k hlt
  · rw [← hsize] at hge
    have hnone : b'.at? k = none := Array.getElem?_eq_none hge
    rw [hsize] at hge
    exact hnone.trans (Array.getElem?_eq_none hge).symm

theorem punctAt_congr : b'.punctAt = b.punctAt := by
  funext k s
  rw [punctAt, punctAt, h.at?_congr hsize]

theorem punctInAt_congr : b'.punctInAt = b.punctInAt := by
  funext k ss
  rw [punctInAt, punctInAt, h.at?_congr hsize]

theorem wordAt_congr : b'.wordAt = b.wordAt := by
  funext k s
  rw [wordAt, wordAt, h.at?_congr hsize]

theorem roundEnd?_congr : b'.roundEnd? = b.roundEnd? := by
  funext k
  rw [roundEnd?, roundEnd?, h.punctAt_congr hsize]
  split
  next hopen => exact h.closer?_eq k (lt_size_of_any hopen)
  next => rfl

theorem operatorParameterList?_congr : b'.operatorParameterList? = b.operatorParameterList? := by
  have hoperand : b'.operandEnd? = b.operandEnd? := by
    funext k
    rw [operandEnd?, operandEnd?, h.punctInAt_congr hsize]
    split
    next hopen => exact h.closer?_eq k (lt_size_of_any hopen)
    next => rfl
  have hnext : b'.nextRound? = b.nextRound? := by
    funext k
    rw [nextRound?, nextRound?, hsize, h.punctAt_congr hsize]
  funext k
  simp only [operatorParameterList?, operatorParametersAt?, hoperand, hnext,
    h.roundEnd?_congr hsize]

theorem angleFrom?_eq {depth : Int} : b'.angleFrom? i depth = b.angleFrom? i depth := by
  have hpunct := h.punctAt_congr hsize
  have hpunctIn := h.punctInAt_congr hsize
  fun_induction angleFrom? b i depth with
  | case1 i depth hlt hopen ih =>
      rw [angleFrom?_def, hsize, hpunct, if_pos hlt, if_pos hopen, ih]
  | case2 i hlt hopen hclose =>
      rw [angleFrom?_def, hsize, hpunct, if_pos hlt, if_neg hopen, if_pos hclose, if_pos rfl]
  | case3 i depth hlt hopen hclose hdepth ih =>
      rw [angleFrom?_def, hsize, hpunct, if_pos hlt, if_neg hopen, if_pos hclose, if_neg hdepth, ih]
  | case4 i depth hlt hopen hclose hgroup k hk ih =>
      rw [angleFrom?_def, hsize, hpunct, hpunctIn, if_pos hlt, if_neg hopen, if_neg hclose,
        if_pos hgroup, h.closer?_eq i hlt, hk]
      exact ih
  | case5 i depth hlt hopen hclose hgroup hk =>
      rw [angleFrom?_def, hsize, hpunct, hpunctIn, if_pos hlt, if_neg hopen, if_neg hclose,
        if_pos hgroup, h.closer?_eq i hlt, hk]
      rfl
  | case6 i depth hlt hopen hclose hgroup hend =>
      rw [angleFrom?_def, hsize, hpunct, hpunctIn, if_pos hlt, if_neg hopen, if_neg hclose,
        if_neg hgroup, if_pos hend]
  | case7 i depth hlt hopen hclose hgroup hend ih =>
      rw [angleFrom?_def, hsize, hpunct, hpunctIn, if_pos hlt, if_neg hopen, if_neg hclose,
        if_neg hgroup, if_neg hend, ih]
  | case8 i depth hge => rw [angleFrom?_def, hsize, if_neg hge]

theorem declaratorBefore_congr : b'.declaratorBefore = b.declaratorBefore := by
  funext k
  rw [declaratorBefore, declaratorBefore, h.at?_congr hsize, h.punctAt_congr hsize]

theorem parameterListFrom?_eq : b'.parameterListFrom? i = b.parameterListFrom? i := by
  have hat := h.at?_congr hsize
  have hword := h.wordAt_congr hsize
  have hpunct := h.punctAt_congr hsize
  have hpunctIn := h.punctInAt_congr hsize
  have hangle : ∀ k, b'.angleEnd? k = b.angleEnd? k := fun _ => h.angleFrom?_eq hsize
  fun_induction parameterListFrom? b i with
  | case1 i hlt hoperator =>
      rw [parameterListFrom?_def, hsize, hword, if_pos hlt, if_pos hoperator,
        h.operatorParameterList?_congr hsize]
  | case2 i hlt hoperator hopen hc =>
      rw [parameterListFrom?_def, hsize, hword, hat, if_pos hlt, if_neg hoperator, if_pos hopen,
        h.closer?_eq i hlt, hc]
      rfl
  | case3 i hlt hoperator hopen c hc hround =>
      rw [parameterListFrom?_def, hsize, hword, hat, if_pos hlt, if_neg hoperator, if_pos hopen,
        h.closer?_eq i hlt, hc, hpunct, h.declaratorBefore_congr hsize]
      exact if_pos hround
  | case4 i hlt hoperator hopen c hc hround ih =>
      rw [parameterListFrom?_def, hsize, hword, hat, if_pos hlt, if_neg hoperator, if_pos hopen,
        h.closer?_eq i hlt, hc, hpunct, h.declaratorBefore_congr hsize]
      exact (if_neg hround).trans ih
  | case5 i hlt hoperator hopen htemplate hc =>
      rw [parameterListFrom?_def, hsize, hword, hat, hpunct, if_pos hlt, if_neg hoperator,
        if_neg hopen, if_pos htemplate, hangle, hc]
      rfl
  | case6 i hlt hoperator hopen htemplate c hc ih =>
      rw [parameterListFrom?_def, hsize, hword, hat, hpunct, if_pos hlt, if_neg hoperator,
        if_neg hopen, if_pos htemplate, hangle, hc]
      exact ih
  | case7 i hlt hoperator hopen htemplate hend =>
      rw [parameterListFrom?_def, hsize, hword, hat, hpunct, hpunctIn, if_pos hlt, if_neg hoperator,
        if_neg hopen, if_neg htemplate, if_pos hend]
  | case8 i hlt hoperator hopen htemplate hend ih =>
      rw [parameterListFrom?_def, hsize, hword, hat, hpunct, hpunctIn, if_pos hlt, if_neg hoperator,
        if_neg hopen, if_neg htemplate, if_neg hend, ih]
  | case9 i hge => rw [parameterListFrom?_def, hsize, if_neg hge]

theorem parameterList?_eq : b'.parameterList? = b.parameterList? := h.parameterListFrom?_eq hsize

end AgreeBefore

/-! ## Slices -/

/-- In a range that ends later the tokens and groups of the range are the same. -/
theorem agreeBefore_slice (hstart : start ≤ e) (hle : e ≤ stop) (hstop : stop ≤ b.size)
    (hclosed : ∀ k c, start ≤ k → k < e → b.closer? k = some c → c < e) :
    (b.slice start e).AgreeBefore (b.slice start stop) (e - start) where
  at?_eq k hk := by rw [at?_slice hstop (by omega), at?_slice (Nat.le_trans hle hstop) (by omega)]
  closer?_eq k hk := by
    refine Option.ext fun c => ?_
    rw [closer?_slice, closer?_slice]
    refine and_congr_right fun hc => ?_
    have := hclosed (start + k) _ (by omega) (by omega) hc
    omega

theorem closedBefore_slice
    (hclosed : ∀ k c, start ≤ k → k < e → b.closer? k = some c → c < e) :
    (b.slice start stop).ClosedBefore (e - start) := by
  intro k hk c hc
  have := hclosed (start + k) _ (by omega) (by omega) (closer?_slice.1 hc).1
  omega

theorem AgreeBefore.take (h : b.AgreeBefore b' n) : b.AgreeBefore (b'.take n) n where
  at?_eq k hk := by
    rw [← h.at?_eq k hk]
    show (b'.lexemes.extract 0 n)[k]? = b'.lexemes[k]?
    rw [Array.getElem?_extract]
    split
    · rw [Nat.zero_add]
    · exact (Array.getElem?_eq_none (by omega)).symm
  closer?_eq k hk := h.closer?_eq k hk

/-- The walk along the top level of a range stops at an index that no group lies across. -/
theorem topLevel_slice (hstart : start ≤ e) (hle : e ≤ stop) (hstop : stop ≤ b.size)
    (hclosed : ∀ k c, start ≤ k → k < e → b.closer? k = some c → c < e) :
    (b.slice start stop).topLevel 0 (b.slice start stop).size =
      (b.slice start e).topLevel 0 (b.slice start e).size ++
        (b.slice start stop).topLevel (e - start) (b.slice start stop).size := by
  rw [size_slice (Nat.le_trans hle hstop), size_slice hstop,
    (closedBefore_slice hclosed).topLevel_append (Nat.zero_le _) (by omega),
    (agreeBefore_slice hstart hle hstop hclosed).topLevel_eq]

/-- The declarator from index `start` on ends with the first `=` behind it, at index `e`, and says
that what it declares is constant. -/
structure ConstantDeclarator (b : Bracketed) (start e : Nat) : Prop where
  start_le : start ≤ e
  equals : b.punctAt e "=" = true
  first : ∀ k ∈ (b.slice start e).topLevel 0 (b.slice start e).size,
    (b.slice start e).punctAt k "=" = false
  constant : (b.slice start e).topLevelWord (b.slice start e).size ["constexpr", "constinit"] = true

/-- Behind the `=` the head declares a constant variable exactly if its declarator names no
parameter list. -/
theorem ConstantDeclarator.declares {head : Nat} {requireEquals : Bool}
    (h : b.ConstantDeclarator (b.headFront head stop).bodyStart e) (hlt : e < stop)
    (hstop : stop ≤ b.size)
    (hclosed : ∀ k c, head ≤ k → k < e → b.closer? k = some c → c < e) :
    b.declaresConstantVariable head stop requireEquals =
      (b.slice (b.headFront head stop).bodyStart e).parameterList?.isNone := by
  have hhead := b.le_bodyStart head stop
  generalize hstart : (b.headFront head stop).bodyStart = start at h hhead ⊢
  have hclosed : ∀ k c, start ≤ k → k < e → b.closer? k = some c → c < e :=
    fun k c hk => hclosed k c (Nat.le_trans hhead hk)
  have hle := h.start_le
  have hagree := agreeBefore_slice hle (Nat.le_of_lt hlt) hstop hclosed
  have htop := topLevel_slice hle (Nat.le_of_lt hlt) hstop hclosed
  have hsize : (b.slice start e).size = e - start := size_slice (by omega)
  have hsize' : (b.slice start stop).size = stop - start := size_slice hstop
  have hword : (b.slice start stop).topLevelWord (b.slice start stop).size
      ["constexpr", "constinit"] = true := by
    obtain ⟨k, hk, hword⟩ := List.any_eq_true.1 h.constant
    refine List.any_eq_true.2 ⟨k, htop ▸ List.mem_append_left _ hk, ?_⟩
    rw [wordInAt, hagree.at?_eq k (hsize ▸ (mem_topLevel hk).2)]
    exact hword
  have hfind : ((b.slice start stop).topLevel 0 (b.slice start stop).size).find?
      (fun k => (b.slice start stop).punctAt k "=") = some (e - start) := by
    have hnone : ((b.slice start e).topLevel 0 (b.slice start e).size).find?
        (fun k => (b.slice start stop).punctAt k "=") = none := by
      refine List.find?_eq_none.2 fun k hk => ?_
      rw [punctAt, hagree.at?_eq k (hsize ▸ (mem_topLevel hk).2), Bool.not_eq_true]
      exact h.first k hk
    have hequals : (b.slice start stop).punctAt (e - start) "=" = true := by
      rw [punctAt_slice hstop (by omega), Nat.add_sub_cancel' hle]
      exact h.equals
    rw [htop, List.find?_append, hnone, Option.none_or, topLevel_def, if_pos (by omega)]
    simp [hequals]
  have hlist : ((b.slice start stop).take (e - start)).parameterList? =
      (b.slice start e).parameterList? := by
    refine AgreeBefore.parameterList?_eq (hsize ▸ hagree.take) ?_
    show ((b.slice start stop).lexemes.extract 0 (e - start)).size = _
    have hmin : min (e - start) (b.slice start stop).lexemes.size = e - start :=
      Nat.min_eq_left (by rw [show (b.slice start stop).lexemes.size = _ from hsize']; omega)
    rw [Array.size_extract, hmin, hsize, Nat.sub_zero]
  simp only [declaresConstantVariable, hstart, hword, hfind, hlist, Bool.true_and]

end Bracketed

end CxxFloor
