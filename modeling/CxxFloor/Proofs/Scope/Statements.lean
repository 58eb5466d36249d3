/-
# The head of the statement in progress

A statement starts where nothing of the one before is open, and a lambda's body
suspends the statement around it.  What one step can do to the head and to the
suspended statements is said once (`HeadStep`): it keeps them, starts a
statement, opens a scope, closes the innermost one, or takes up the statement
that this scope suspended.

From it follows what the head of a statement stands for.  The brackets that are
open at a head are those of the scopes around its statement, and of what these
suspend; none belongs to the statement itself (`Boundary.headsOpen`).  So a
statement that is cut out closes no bracket from before it, even where a
lambda handed its head back (`Boundary.keepsOpen_statement`).
-/
import CxxFloor.Proofs.Bracket.Slice
import CxxFloor.Proofs.Scope.Origin

namespace CxxFloor

/-! ## The step -/

/-- What a step that goes on to index `next` does to the head and to the suspended statements. -/
inductive HeadStep (b : Bracketed) (i next : Nat) (s s' : ScanState) : Prop
  | keeps (hscopes : s'.scopes = s.scopes) (hhead : s'.head = s.head)
  | starts (hscopes : s'.scopes = s.scopes) (hhead : s'.head = next) (htop : s'.groups = [])
  | opens {scope : Scope} (hscopes : s'.scopes = scope :: s.scopes) (hopener : scope.opener = i)
      (hresume : ∀ resume ∈ scope.resume, resume = ⟨s.groups, s.head⟩) (hhead : s'.head = next)
      (htop : s'.groups = [])
  | closes {scope : Scope} {outer : List Scope} (hinner : s.scopes = scope :: outer)
      (hscopes : s'.scopes = outer) (hhead : s'.head = next) (htop : s'.groups = [])
  | resumes {scope : Scope} {outer : List Scope} {resume : Resume}
      (hinner : s.scopes = scope :: outer) (hresume : resume ∈ scope.resume)
      (hpartner : b.pairs.partner? i = some scope.opener) (hbrace : b.punctAt i "\x7d" = true)
      (hscopes : s'.scopes = outer) (hhead : s'.head = resume.head)

namespace HeadStep

variable {b : Bracketed} {i next : Nat} {s : ScanState}

theorem openGroup (constant : Bool) : HeadStep b i next s (s.openGroup b i constant) := by
  unfold ScanState.openGroup
  split
  · exact .keeps rfl rfl
  · exact .keeps rfl rfl

theorem closeGroup : HeadStep b i next s (s.closeGroup b i) := by
  unfold ScanState.closeGroup
  split
  · exact .keeps rfl rfl
  · exact .keeps rfl rfl

theorem openBrace : HeadStep b i (i + 1) s (s.openBrace b i).1 := by
  unfold ScanState.openBrace
  split
  · exact .keeps rfl rfl
  split
  next body hbody =>
    have hopener : body.opener = i := by simpa using List.find?_some hbody
    refine .opens rfl hopener ?_ (congrArg (· + 1) hopener) rfl
    intro resume hresume
    exact (Option.some.inj hresume).symm
  next =>
    split
    · exact openGroup false
    next htop =>
      have htop : s.groups = [] := by simpa [ScanState.atTop] using htop
      dsimp only
      split
      · exact openGroup _
      · exact .opens rfl rfl (fun resume hresume => absurd hresume (by simp)) rfl htop

theorem endStatement (htop : s.groups = []) : HeadStep b i (i + 1) s (s.endStatement b i).1 := by
  obtain ⟨hscopes, hgroups⟩ := ScanState.sameOpen_endStatement b s i
  refine .starts hscopes ?_ (hgroups.trans htop)
  unfold ScanState.endStatement
  split <;> rfl

theorem closeBrace (h : Aligned b i s) (hb : b.Nested) (hc : b.closesAt i .curly) :
    HeadStep b i (i + 1) s (s.closeBrace b i) := by
  cases hp : b.pairs.partner? i with
  | none =>
      simp only [ScanState.closeBrace, hp]
      split
      next htop => exact .starts rfl rfl (by simpa [ScanState.atTop] using htop)
      next => exact .keeps rfl rfl
  | some o =>
      rcases h.innermost_of_closer hb hp hc with
        ⟨group, rest, hgroups, rfl, -⟩ | ⟨htop, -, scope, outer, hscopes, rfl, -⟩
      · have hclose : s.closeBrace b i = s.closeGroup b i := by
          simp [ScanState.closeBrace, hp, hgroups]
        rw [hclose]
        exact closeGroup
      · have hclose : s.closeBrace b i = ({ s with groups := [] } : ScanState).closeScope i scope.opener := by
          simp [ScanState.closeBrace, hp, htop]
        rw [hclose]
        cases hresume : scope.resume with
        | none =>
            refine .closes hscopes ?_ ?_ ?_ <;>
              simp [ScanState.closeScope, hscopes, hresume, ScanState.complete]
        | some resume =>
            refine .resumes hscopes hresume hp (Bracketed.punctAt_of_closesAt hc) ?_ ?_ <;>
              simp [ScanState.closeScope, hscopes, hresume, ScanState.complete]

theorem punctuatorStep (h : Aligned b i s) (hb : b.Nested) {t : Lexeme} (ht : b.at? i = some t)
    (hkind : t.kind = .punctuator) : HeadStep b i (i + 1) s (s.punctuatorStep b i t.text).1 := by
  unfold ScanState.punctuatorStep
  split
  · exact openGroup false
  split
  · exact closeGroup
  split
  · exact openBrace
  split
  next hbrace =>
    have hpunct : b.punctAt i "\x7d" = true :=
      Bracketed.punctAt_iff.2 ⟨t, ht, by simpa [Lexeme.isPunct, hkind] using hbrace⟩
    exact closeBrace h hb (Bracketed.closesAt_of_punctAt (k := .curly) hpunct)
  split
  next hend =>
    simp only [Bool.and_eq_true, ScanState.atTop, List.isEmpty_iff] at hend
    exact endStatement hend.2
  · exact .keeps rfl rfl

theorem wordStep (text : String) :
    HeadStep b i (s.wordStep b i text).next s (s.wordStep b i text).state := by
  unfold ScanState.wordStep
  split
  next haccess =>
    simp only [ScanState.startsStatement, ScanState.atTop, Bool.and_eq_true,
      List.isEmpty_iff] at haccess
    exact .starts rfl rfl haccess.1.1.1.2
  next =>
    split
    next colon hlabel =>
      unfold ScanState.labelEnd? at hlabel
      split at hlabel
      next hstart =>
        simp only [ScanState.startsStatement, ScanState.atTop, Bool.and_eq_true,
          List.isEmpty_iff] at hstart
        exact .starts rfl rfl hstart.1.2
      next => cases hlabel
    next =>
      refine .keeps (ScanState.sameOpen_wordCuts b s i text).1 ?_
      simp only [Move.one, ScanState.wordCuts]
      repeat' split
      all_goals rfl

theorem squareStep : HeadStep b i (s.squareStep b i).next s (s.squareStep b i).state := by
  unfold ScanState.squareStep
  split
  · exact .keeps rfl rfl
  · have hsame := ScanState.sameOpen_noteLambda b s i
    have hhead : (s.noteLambda b i).1.head = s.head := by
      simp only [ScanState.noteLambda]
      repeat' split
      all_goals rfl
    simp only [Move.one, ScanState.openGroup]
    split
    · exact .keeps hsame.1 hhead
    · exact .keeps hsame.1 hhead

end HeadStep

theorem Boundary.headStep {b : Bracketed} (hb : b.Nested) {i : Nat} {s : ScanState}
    (h : Boundary b i s) (hi : i < b.lexemes.size) :
    HeadStep b i (s.step b i b.lexemes[i]).next s (s.step b i b.lexemes[i]).state := by
  have ht : b.at? i = some b.lexemes[i] := Array.getElem?_eq_getElem hi
  generalize b.lexemes[i] = t at ht
  unfold ScanState.step
  cases hkind : t.kind with
  | word => exact HeadStep.wordStep t.text
  | punctuator =>
      dsimp only
      split
      · exact HeadStep.squareStep
      · exact HeadStep.punctuatorStep (h.aligned hb) hb ht hkind
  | number | string | character | directive => exact .keeps rfl rfl

/-! ## Suspended statements -/

/-- The openers of the scopes and of the statements they suspend, from the outside in. -/
def openersOf (scopes : List Scope) : List Nat := scopes.reverse.flatMap Scope.openers

/-- It holds of the head of every suspended statement, of the scope that suspends it and of the
scopes around it. -/
def AllSuspended (P : Nat → Scope → List Scope → Prop) : List Scope → Prop
  | [] => True
  | scope :: outer => (∀ resume ∈ scope.resume, P resume.head scope outer) ∧ AllSuspended P outer

theorem AllSuspended.imp {P Q : Nat → Scope → List Scope → Prop} {scopes : List Scope}
    (h : AllSuspended P scopes)
    (himp : ∀ head, ∀ scope ∈ scopes, ∀ outer, P head scope outer → Q head scope outer) :
    AllSuspended Q scopes := by
  induction scopes with
  | nil => trivial
  | cons scope outer ih =>
      refine ⟨fun resume hresume => ?_, ih h.2 fun head scope hscope => ?_⟩
      · exact himp _ _ List.mem_cons_self _ (h.1 resume hresume)
      · exact himp head scope (List.mem_cons_of_mem _ hscope)

/-- At the head of every statement, the one in progress and the suspended ones, the brackets of the
scopes around it are open and no others. -/
structure HeadsOpen (b : Bracketed) (s : ScanState) : Prop where
  head : b.pairs.openAt s.head = openersOf s.scopes
  suspended : AllSuspended (fun head scope outer =>
    head ≤ scope.opener ∧ b.pairs.openAt head = openersOf outer) s.scopes

theorem openersOf_of_top {b : Bracketed} {i : Nat} {s : ScanState} (h : Aligned b i s)
    (htop : s.groups = []) : b.pairs.openAt i = openersOf s.scopes := by
  rw [← h.openers_eq]
  simp [ScanState.openers, openersOf, htop]

theorem HeadStep.headsOpen {b : Bracketed} {i next : Nat} {s s' : ScanState}
    (h : HeadStep b i next s s') (hopen : HeadsOpen b s) (hle : s.HeadLe i)
    (haligned : Aligned b next s') : HeadsOpen b s' := by
  cases h with
  | keeps hscopes hhead => exact ⟨by rw [hhead, hscopes, hopen.head], hscopes ▸ hopen.suspended⟩
  | starts hscopes hhead htop =>
      exact ⟨by rw [hhead]; exact openersOf_of_top haligned htop, hscopes ▸ hopen.suspended⟩
  | opens hscopes hopener hresume hhead htop =>
      refine ⟨by rw [hhead]; exact openersOf_of_top haligned htop, ?_⟩
      rw [hscopes]
      refine ⟨fun resume hr => ?_, hopen.suspended⟩
      rw [hresume resume hr]
      exact ⟨hopener ▸ hle.1, hopen.head⟩
  | closes hinner hscopes hhead htop =>
      refine ⟨by rw [hhead]; exact openersOf_of_top haligned htop, ?_⟩
      have hsuspended := hopen.suspended
      rw [hinner] at hsuspended
      exact hscopes ▸ hsuspended.2
  | resumes hinner hresume _ _ hscopes hhead =>
      have hsuspended := hopen.suspended
      rw [hinner] at hsuspended
      refine ⟨?_, hscopes ▸ hsuspended.2⟩
      rw [hhead, hscopes]
      exact (hsuspended.1 _ hresume).2

namespace Boundary

variable {b : Bracketed} {i : Nat} {s : ScanState}

theorem headsOpen (hb : b.Nested) (h : Boundary b i s) : HeadsOpen b s := by
  induction h with
  | start => exact ⟨rfl, trivial⟩
  | step h hi ih => exact (h.headStep hb hi).headsOpen ih h.headLe ((h.step hi).aligned hb)

theorem opener_lt_head (hb : b.Nested) (h : Boundary b i s) {scope : Scope}
    (hscope : scope ∈ s.scopes) : scope.opener < s.head := by
  have hmem : scope.opener ∈ b.pairs.openAt s.head := by
    rw [(h.headsOpen hb).head]
    refine List.mem_flatMap.2 ⟨scope, List.mem_reverse.2 hscope, ?_⟩
    exact List.mem_append_right _ (List.mem_singleton_self _)
  exact (Pairing.mem_openAt.1 hmem).1

/-- Between the head of a statement and the place where no group of it is open, no bracket from
before it closes. -/
theorem keepsOpen_statement (hb : b.Nested) (h : Boundary b i s) (htop : s.groups = []) :
    b.KeepsOpen s.head i :=
  .of_eq (by rw [openersOf_of_top (h.aligned hb) htop, (h.headsOpen hb).head])

end Boundary

end CxxFloor
