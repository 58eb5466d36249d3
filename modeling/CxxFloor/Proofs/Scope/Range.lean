/-
# The walk stays inside the file

The statement in progress starts at or before the place where the walk stands,
also after a lambda hands its statement back (`Boundary.headLe`).  With the
brackets nested, every fragment that a step cuts is then a run of tokens of
the file (`StepCut.range`), so that none of the reads at its ends can fail.
-/
import CxxFloor.Proofs.Scope.Cuts
import CxxFloor.Proofs.Scope.Openers

namespace CxxFloor

/-! ## Heads -/

/-- The statement in progress and all suspended ones start at or before index `i`. -/
def ScanState.HeadLe (i : Nat) (s : ScanState) : Prop :=
  s.head ≤ i ∧ ∀ scope ∈ s.scopes, ∀ resume, scope.resume = some resume → resume.head ≤ i

namespace ScanState.HeadLe

variable {b : Bracketed} {s s' : ScanState} {i j : Nat}

theorem mono (h : s.HeadLe i) (hij : i ≤ j) : s.HeadLe j :=
  ⟨Nat.le_trans h.1 hij, fun scope hscope resume hresume =>
    Nat.le_trans (h.2 scope hscope resume hresume) hij⟩

theorem restart (h : s.HeadLe i) (hij : i ≤ j) (hscopes : s'.scopes = s.scopes)
    (hhead : s'.head ≤ j) : s'.HeadLe j := by
  refine ⟨hhead, ?_⟩
  rw [hscopes]
  exact (h.mono hij).2

theorem keep (h : s.HeadLe i) (hscopes : s'.scopes = s.scopes) (hhead : s'.head = s.head) :
    s'.HeadLe i :=
  h.restart (Nat.le_refl i) hscopes (hhead ▸ h.1)

theorem openGroup (h : s.HeadLe i) (constant : Bool) : (s.openGroup b i constant).HeadLe i := by
  unfold ScanState.openGroup
  split
  · exact h.keep rfl rfl
  · exact h

theorem closeGroup (h : s.HeadLe i) : (s.closeGroup b i).HeadLe i := by
  unfold ScanState.closeGroup
  split
  · exact h
  · exact h.keep rfl rfl

theorem enterLambda (h : s.HeadLe i) {body : Scope} (hbody : body.opener = i) :
    (s.enterLambda body).HeadLe (i + 1) := by
  refine ⟨Nat.le_of_eq (congrArg (· + 1) hbody), ?_⟩
  intro scope hscope resume hresume
  rcases List.mem_cons.1 hscope with rfl | hscope
  · cases hresume
    exact Nat.le_succ_of_le h.1
  · exact Nat.le_succ_of_le (h.2 scope hscope resume hresume)

theorem enterScope (h : s.HeadLe i) (kind : ScopeKind) (head : Head) :
    (s.enterScope i kind head).HeadLe (i + 1) := by
  refine ⟨Nat.le_refl _, ?_⟩
  intro scope hscope resume hresume
  rcases List.mem_cons.1 hscope with rfl | hscope
  · cases hresume
  · exact Nat.le_succ_of_le (h.2 scope hscope resume hresume)

theorem openBrace (h : s.HeadLe i) : (s.openBrace b i).1.HeadLe (i + 1) := by
  unfold ScanState.openBrace
  split
  · exact h.mono (Nat.le_succ i)
  split
  next body hbody =>
    have hopener : body.opener = i := by
      have := List.find?_some hbody
      simpa using this
    exact h.enterLambda hopener
  next =>
    split
    · exact (h.openGroup false).mono (Nat.le_succ i)
    dsimp only
    split
    · exact (h.openGroup _).mono (Nat.le_succ i)
    · exact h.enterScope _ _

theorem closeScope (h : s.HeadLe i) (opener : Nat) : (s.closeScope i opener).HeadLe (i + 1) := by
  unfold ScanState.closeScope
  dsimp only
  split
  next => exact h.mono (Nat.le_succ i)
  next scope outer hdrop =>
    have hmem : ∀ scope' ∈ scope :: outer, scope' ∈ s.scopes := by
      intro scope' hscope'
      rw [← hdrop] at hscope'
      exact List.dropWhile_subset _ hscope'
    have houter : ∀ scope' ∈ outer, ∀ resume, scope'.resume = some resume →
        resume.head ≤ i + 1 := by
      intro scope' hscope' resume hresume
      exact Nat.le_succ_of_le
        (h.2 scope' (hmem scope' (List.mem_cons_of_mem _ hscope')) resume hresume)
    split
    next resume hresume =>
      exact ⟨Nat.le_succ_of_le (h.2 scope (hmem scope List.mem_cons_self) resume hresume), houter⟩
    next => exact ⟨Nat.le_refl _, houter⟩

theorem closeBrace (h : s.HeadLe i) : (s.closeBrace b i).HeadLe (i + 1) := by
  unfold ScanState.closeBrace
  split
  · split
    · exact h.restart (Nat.le_succ i) rfl (Nat.le_refl _)
    · exact h.mono (Nat.le_succ i)
  · split
    · exact h.closeGroup.mono (Nat.le_succ i)
    · have h' : ({ s with groups := [] } : ScanState).HeadLe i := h.keep rfl rfl
      exact h'.closeScope _

theorem endStatement (h : s.HeadLe i) : (s.endStatement b i).1.HeadLe (i + 1) := by
  unfold ScanState.endStatement
  split
  · have hscopes := (sameOpen_noteForward b s s.head i).1
    exact h.restart (Nat.le_succ i) hscopes (Nat.le_refl _)
  · exact h.restart (Nat.le_succ i) rfl (Nat.le_refl _)

theorem punctuatorStep (h : s.HeadLe i) (text : String) :
    (s.punctuatorStep b i text).1.HeadLe (i + 1) := by
  unfold ScanState.punctuatorStep
  split
  · exact (h.openGroup false).mono (Nat.le_succ i)
  split
  · exact h.closeGroup.mono (Nat.le_succ i)
  split
  · exact h.openBrace
  split
  · exact h.closeBrace
  split
  · exact h.endStatement
  · exact h.mono (Nat.le_succ i)

theorem noteLambda (h : s.HeadLe i) : (s.noteLambda b i).1.HeadLe i := by
  unfold ScanState.noteLambda
  split
  · dsimp only
    split <;> exact h.keep rfl rfl
  · exact h

theorem squareStep (h : s.HeadLe i) : (s.squareStep b i).state.HeadLe (s.squareStep b i).next := by
  unfold ScanState.squareStep
  split
  next close hclose =>
    have := Bracketed.lt_of_attributeEnd? hclose
    exact h.mono (by simp only [Move.behind]; omega)
  next => exact (h.noteLambda.openGroup _).mono (Nat.le_succ i)

theorem wordCuts (h : s.HeadLe i) (text : String) : (s.wordCuts b i text).1.HeadLe i := by
  unfold ScanState.wordCuts
  dsimp only
  repeat' split
  all_goals exact h.keep rfl rfl

theorem wordStep (h : s.HeadLe i) (text : String) :
    (s.wordStep b i text).state.HeadLe (s.wordStep b i text).next := by
  unfold ScanState.wordStep
  split
  next => exact h.restart (by simp only [Move.behind]; omega) rfl (Nat.le_refl _)
  next =>
    split
    next colon hlabel =>
      have := ScanState.lt_of_labelEnd? hlabel
      exact h.restart (by simp only [Move.behind]; omega) rfl (Nat.le_refl _)
    next => exact (h.wordCuts text).mono (Nat.le_succ i)

theorem step (h : s.HeadLe i) (t : Lexeme) : (s.step b i t).state.HeadLe (s.step b i t).next := by
  unfold ScanState.step
  cases t.kind with
  | word => exact h.wordStep t.text
  | punctuator =>
      dsimp only
      split
      · exact h.squareStep
      · exact h.punctuatorStep t.text
  | number | string | character | directive => exact h.mono (Nat.le_succ i)

end ScanState.HeadLe

theorem Boundary.headLe {b : Bracketed} {i : Nat} {s : ScanState} (h : Boundary b i s) :
    s.HeadLe i := by
  induction h with
  | start => exact ⟨Nat.le_refl 0, by simp⟩
  | step h hi ih => exact ih.step _

/-! ## Fragments -/

namespace Bracketed

variable {b : Bracketed} {i : Nat}

theorem lt_size_of_any {p : Lexeme → Bool} (h : (b.at? i).any p = true) : i < b.size := by
  obtain ⟨t, ht, -⟩ := (Option.any_eq_true _ _).1 h
  exact (Array.getElem?_eq_some_iff.1 ht).1

theorem closer?_of_roundEnd? {j : Nat} (h : b.roundEnd? i = some j) : b.closer? i = some j := by
  unfold roundEnd? at h
  split at h
  · exact h
  · cases h

theorem Nested.closer?_lt_size (hb : b.Nested) {j : Nat} (h : b.closer? i = some j) :
    j < b.size :=
  hb.partner_lt (partner?_of_closer? h)

end Bracketed

theorem branchEnd_range {b : Bracketed} {i : Nat} (hi : i < b.size) :
    i ≤ (ScanState.branchEnd b i).1 ∧ (ScanState.branchEnd b i).1 < b.size := by
  unfold ScanState.branchEnd
  split
  · dsimp only
    split
    next h => exact ⟨by omega, Bracketed.lt_size_of_any h⟩
    next => exact ⟨Nat.le_refl i, hi⟩
  split
  next h => exact ⟨Nat.le_succ i, Bracketed.lt_size_of_any h⟩
  split
  next h => exact ⟨Nat.le_succ i, Bracketed.lt_size_of_any h⟩
  next => exact ⟨Nat.le_refl i, hi⟩

theorem StepCut.range {b : Bracketed} (hb : b.Nested) {head i first last : Nat}
    {kind : FragmentKind} (h : StepCut b head i kind first last) (hi : i < b.size) :
    first ≤ last ∧ last < b.size := by
  cases h with
  | literal => exact ⟨Nat.le_refl i, hi⟩
  | label h =>
      exact ⟨Nat.le_of_lt (Bracketed.lt_of_labelEnd? h),
        Bracketed.lt_size_of_punctAt (Bracketed.punctAt_of_labelEnd? h)⟩
  | attributes h =>
      exact ⟨Nat.le_of_lt (Bracketed.lt_of_attributeEnd? h),
        hb.closer?_lt_size (Bracketed.closer?_of_attributeEnd? h)⟩
  | @lambda close body hopen hclose hbody h =>
      have hlt := hb.lt_of_opensAt hclose (Bracketed.opensAt_of_punctAt (k := .square) hopen)
      obtain ⟨j, hj⟩ := Option.isSome_iff_exists.1 h
      have := Pairing.lt_of_closer? hj
      have := hb.closer?_lt_size hj
      exact ⟨by omega, by omega⟩
  | assertion h | sizeQuery h =>
      have hclose := Bracketed.closer?_of_roundEnd? h
      have := Pairing.lt_of_closer? hclose
      exact ⟨by omega, hb.closer?_lt_size hclose⟩
  | call h =>
      have := Pairing.lt_of_closer? h
      exact ⟨by omega, hb.closer?_lt_size h⟩
  | branch => exact branchEnd_range hi
  | tryBlock h => exact ⟨Nat.le_succ i, Bracketed.lt_size_of_punctAt h⟩
  | declaration h hstop | operator h hstop => omega
  | member h => omega

end CxxFloor
