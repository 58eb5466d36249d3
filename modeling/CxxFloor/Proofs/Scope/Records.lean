/-
# What a step does to scopes and records

A record is declared by a statement without a body, is open between the braces
of its definition, and is completed when they close.  What one step can do to
the scopes and to the two lists of records is said once (`RecordStep`): it
opens the scope of its brace, closes the innermost one and completes its
record, or leaves the scopes as they are and may note a declaration.  Whatever
is said of the records of a walk is an induction over these three cases and
never a look into the step itself.
-/
import CxxFloor.Proofs.Scope.Openers

namespace CxxFloor

def Scope.Defines (scope : Scope) (name : String) : Prop :=
  scope.kind.isClass = true ∧ scope.name = some name

namespace ScanState

/-- The semicolon at index `i` ends a statement of a scope of declarations that declares a class of
this name and gives it no body. -/
def Declares (b : Bracketed) (s : ScanState) (i : Nat) (name : String) : Prop :=
  b.punctAt i ";" = true ∧ s.groups = [] ∧ s.scope.kind.holdsDeclarations = true ∧ s.head < i ∧
    forwardName? b s.head i = some name

/-- What a step from index `i` does to scopes and records. -/
inductive RecordStep (b : Bracketed) (i : Nat) (s s' : ScanState) : Prop
  | opened (scope : Scope) (hopener : scope.opener = i) (hbrace : b.punctAt i "\x7b" = true)
      (hopen : (s.openBrace b i).1.scopes = scope :: s.scopes)
      (hscopes : s'.scopes = scope :: s.scopes) (hcompleted : s'.completed = s.completed)
      (hforward : s'.forward = s.forward)
  | closed (scope : Scope) (outer : List Scope) (hbrace : b.punctAt i "\x7d" = true)
      (hpartner : b.pairs.partner? i = some scope.opener) (hinner : s.scopes = scope :: outer)
      (hscopes : s'.scopes = outer)
      (hcompleted : ∀ name, name ∈ s'.completed ↔ scope.Defines name ∨ name ∈ s.completed)
      (hforward : ∀ name, name ∈ s'.forward ↔ name ∈ s.forward ∧ ¬ scope.Defines name)
  | kept (hscopes : s'.scopes = s.scopes) (hcompleted : s'.completed = s.completed)
      (hforward : ∀ name, name ∈ s'.forward ↔ name ∈ s.forward ∨
        s.Declares b i name ∧ name ∉ s.completed ∧ s.recordIsOpen name = false)

theorem not_declares {b : Bracketed} {s : ScanState} {i : Nat} {text name : String}
    (h : b.punctAt i text = true) (hne : ";" ≠ text) : ¬ s.Declares b i name := by
  rintro ⟨hsemicolon, -⟩
  rw [Bracketed.punctAt_unique h hne] at hsemicolon
  cases hsemicolon

namespace RecordStep

variable {b : Bracketed} {i : Nat} {s s' : ScanState} {name : String}

theorem mem_completed (h : RecordStep b i s s') (hname : name ∈ s.completed) :
    name ∈ s'.completed := by
  cases h with
  | opened _ _ _ _ _ hcompleted _ => exact hcompleted ▸ hname
  | closed _ _ _ _ _ _ hcompleted _ => exact (hcompleted name).2 (.inr hname)
  | kept _ hcompleted _ => exact hcompleted ▸ hname

theorem mem_forward (h : RecordStep b i s s') (hname : name ∉ s'.completed) :
    name ∈ s'.forward ↔
      name ∈ s.forward ∨ s.Declares b i name ∧ s.recordIsOpen name = false := by
  have hold : name ∉ s.completed := fun hold => hname (h.mem_completed hold)
  cases h with
  | opened _ _ hbrace _ _ _ hforward =>
      have hno : ¬ s.Declares b i name := not_declares hbrace (by decide)
      simp [hforward, hno]
  | closed _ _ hbrace _ _ _ hcompleted hforward =>
      have hno : ¬ s.Declares b i name := not_declares hbrace (by decide)
      rw [hcompleted, not_or] at hname
      simp [hforward, hno, hname.1]
  | kept _ _ hforward => simp [hforward, hold]

end RecordStep

/-- Two states agree in scopes and records. -/
structure SameRecords (s s' : ScanState) : Prop where
  scopes : s'.scopes = s.scopes
  completed : s'.completed = s.completed
  forward : s'.forward = s.forward

namespace SameRecords

variable {b : Bracketed} {s s' s'' : ScanState} {i : Nat}

theorem refl (s : ScanState) : s.SameRecords s := ⟨rfl, rfl, rfl⟩

theorem trans (h : s.SameRecords s') (h' : s'.SameRecords s'') : s.SameRecords s'' :=
  ⟨h'.scopes.trans h.scopes, h'.completed.trans h.completed, h'.forward.trans h.forward⟩

theorem openGroup (b : Bracketed) (s : ScanState) (i : Nat) (constant : Bool) :
    s.SameRecords (s.openGroup b i constant) := by
  simp only [ScanState.openGroup]
  split <;> exact ⟨rfl, rfl, rfl⟩

theorem closeGroup (b : Bracketed) (s : ScanState) (i : Nat) :
    s.SameRecords (s.closeGroup b i) := by
  simp only [ScanState.closeGroup]
  split <;> exact ⟨rfl, rfl, rfl⟩

theorem noteLambda (b : Bracketed) (s : ScanState) (i : Nat) :
    s.SameRecords (s.noteLambda b i).1 := by
  simp only [ScanState.noteLambda]
  split
  · split <;> exact ⟨rfl, rfl, rfl⟩
  · exact ⟨rfl, rfl, rfl⟩

theorem wordCuts (b : Bracketed) (s : ScanState) (i : Nat) (text : String) :
    s.SameRecords (s.wordCuts b i text).1 := by
  simp only [ScanState.wordCuts]
  repeat' split
  all_goals exact ⟨rfl, rfl, rfl⟩

theorem wordStep (b : Bracketed) (s : ScanState) (i : Nat) (text : String) :
    s.SameRecords (s.wordStep b i text).state := by
  simp only [ScanState.wordStep]
  split
  · exact ⟨rfl, rfl, rfl⟩
  · split
    · exact ⟨rfl, rfl, rfl⟩
    · exact wordCuts b s i text

theorem squareStep (b : Bracketed) (s : ScanState) (i : Nat) :
    s.SameRecords (s.squareStep b i).state := by
  simp only [ScanState.squareStep]
  split
  · exact refl s
  · exact (noteLambda b s i).trans (openGroup b _ i _)

/-- Where no semicolon ends a statement, a step that keeps scopes and records declares nothing. -/
theorem recordStep (h : s.SameRecords s') (hno : ∀ name, ¬ s.Declares b i name) :
    RecordStep b i s s' := by
  refine .kept h.scopes h.completed ?_
  intro name
  rw [h.forward]
  constructor
  · exact .inl
  · rintro (hforward | ⟨hdeclares, -⟩)
    · exact hforward
    · exact absurd hdeclares (hno name)

end SameRecords

/-! ### The handlers -/

section Handlers

variable {b : Bracketed} {s : ScanState} {i : Nat}

theorem mem_noteForward {start stop : Nat} {name : String} :
    name ∈ (s.noteForward b start stop).forward ↔ name ∈ s.forward ∨
      forwardName? b start stop = some name ∧ name ∉ s.completed ∧
        s.recordIsOpen name = false := by
  simp only [noteForward]
  cases hdeclared : forwardName? b start stop with
  | none => simp
  | some declared =>
      simp only [Option.some.injEq]
      split
      next hknown =>
        simp only [Bool.or_eq_true, List.contains_iff_mem] at hknown
        constructor
        · exact .inl
        · rintro (h | ⟨rfl, hcompleted, hopen⟩)
          · exact h
          · rcases hknown with (h | h) | h
            · exact absurd h hcompleted
            · rw [h] at hopen
              cases hopen
            · exact h
      next hnew =>
        simp only [Bool.or_eq_true, List.contains_iff_mem, not_or, Bool.not_eq_true] at hnew
        constructor
        · intro h
          rcases List.mem_cons.1 h with rfl | h
          · exact .inr ⟨rfl, hnew.1.1, hnew.1.2⟩
          · exact .inl h
        · rintro (h | ⟨rfl, -⟩)
          · exact List.mem_cons_of_mem _ h
          · exact List.mem_cons_self

theorem recordStep_endStatement (hpunct : b.punctAt i ";" = true) (htop : s.groups = []) :
    RecordStep b i s (s.endStatement b i).1 := by
  simp only [endStatement]
  split
  next hends =>
    simp only [Bool.and_eq_true, decide_eq_true_eq] at hends
    refine .kept ?_ ?_ ?_
    · exact (sameOpen_noteForward b s s.head i).1
    · show (s.noteForward b s.head i).completed = s.completed
      simp only [noteForward]
      split
      · split <;> rfl
      · rfl
    · intro name
      show name ∈ (s.noteForward b s.head i).forward ↔ _
      rw [mem_noteForward, Declares]
      simp only [hpunct, htop, hends.1, hends.2, true_and]
  next hends =>
    refine SameRecords.recordStep ⟨rfl, rfl, rfl⟩ ?_
    rintro name ⟨-, -, hholds, hhead, -⟩
    exact hends (by simp [hholds, hhead])

theorem recordStep_openBrace (hpunct : b.punctAt i "\x7b" = true) :
    RecordStep b i s (s.openBrace b i).1 := by
  have hno : ∀ name, ¬ s.Declares b i name := fun _ => not_declares hpunct (by decide)
  have hcases : s.SameRecords (s.openBrace b i).1 ∨ ∃ scope : Scope, scope.opener = i ∧
      (s.openBrace b i).1.scopes = scope :: s.scopes ∧
      (s.openBrace b i).1.completed = s.completed ∧
      (s.openBrace b i).1.forward = s.forward := by
    simp only [openBrace]
    split
    · exact .inl (.refl s)
    split
    next body hbody =>
      have hopener : body.opener = i := by simpa using List.find?_some hbody
      exact .inr ⟨{ body with resume := some ⟨s.groups, s.head⟩ }, hopener, rfl, rfl, rfl⟩
    next =>
      split
      · exact .inl (.openGroup b s i false)
      split
      · exact .inl (.openGroup b s i _)
      · exact .inr ⟨_, rfl, rfl, rfl, rfl⟩
  rcases hcases with hsame | ⟨scope, hopener, hscopes, hcompleted, hforward⟩
  · exact hsame.recordStep hno
  · exact .opened scope hopener hpunct hscopes hscopes hcompleted hforward

theorem mem_classNames {closed : List Scope} {name : String} :
    name ∈ (closed.filterMap fun scope => if scope.kind.isClass then scope.name else none) ↔
      ∃ scope ∈ closed, scope.Defines name := by
  rw [List.mem_filterMap]
  refine exists_congr fun scope => and_congr_right fun _ => ?_
  rw [Scope.Defines]
  cases scope.kind.isClass <;> simp

theorem mem_completed_complete {closed : List Scope} {name : String} :
    name ∈ (s.complete closed).completed ↔
      (∃ scope ∈ closed, scope.Defines name) ∨ name ∈ s.completed := by
  rw [← mem_classNames]
  exact List.mem_append

theorem mem_forward_complete {closed : List Scope} {name : String} :
    name ∈ (s.complete closed).forward ↔
      name ∈ s.forward ∧ ¬ ∃ scope ∈ closed, scope.Defines name := by
  rw [← mem_classNames, complete, List.mem_filter, Bool.not_eq_true', ← Bool.not_eq_true,
    List.contains_iff_mem]

end Handlers

end ScanState

namespace Aligned

variable {b : Bracketed} {i : Nat} {s : ScanState}

theorem recordStep_closeBrace (h : Aligned b i s) (hb : b.Nested)
    (hpunct : b.punctAt i "\x7d" = true) : s.RecordStep b i (s.closeBrace b i) := by
  have hno : ∀ name, ¬ s.Declares b i name := fun _ =>
    ScanState.not_declares hpunct (by decide)
  have hc : b.closesAt i .curly := Bracketed.closesAt_of_punctAt hpunct
  cases hp : b.pairs.partner? i with
  | none =>
      have hsame : s.SameRecords (s.closeBrace b i) := by
        simp only [ScanState.closeBrace, hp]
        split <;> exact ⟨rfl, rfl, rfl⟩
      exact hsame.recordStep hno
  | some o =>
      rcases h.innermost_of_closer hb hp hc with
        ⟨group, rest, hgroups, ho, -⟩ | ⟨htop, -, scope, outer, hscopes, ho, -⟩
      · have hclose : s.closeBrace b i = s.closeGroup b i := by
          simp [ScanState.closeBrace, hp, hgroups, ho]
        rw [hclose]
        exact (ScanState.SameRecords.closeGroup b s i).recordStep hno
      · subst ho
        have hclose : (s.closeBrace b i).scopes = outer ∧
            (s.closeBrace b i).completed = (s.complete [scope]).completed ∧
            (s.closeBrace b i).forward = (s.complete [scope]).forward := by
          cases hresume : scope.resume <;>
            simp [ScanState.closeBrace, hp, htop, ScanState.closeScope, hscopes, hresume,
              ScanState.complete]
        obtain ⟨houter, hcompleted, hforward⟩ := hclose
        refine .closed scope outer hpunct hp hscopes houter ?_ ?_
        · intro name
          rw [hcompleted, ScanState.mem_completed_complete]
          simp
        · intro name
          rw [hforward, ScanState.mem_forward_complete]
          simp

theorem recordStep (h : Aligned b i s) (hb : b.Nested) (hi : i < b.lexemes.size) :
    s.RecordStep b i (s.step b i b.lexemes[i]).state := by
  have ht : b.at? i = some b.lexemes[i] := Array.getElem?_eq_getElem hi
  generalize b.lexemes[i] = t at ht
  have hpunct : ∀ text, b.punctAt i text = t.isPunct text := by
    intro text
    simp [Bracketed.punctAt, ht]
  have hother : ¬ t.isPunct ";" = true → ∀ name, ¬ s.Declares b i name := by
    rintro hne name ⟨hsemicolon, -⟩
    exact hne (hpunct ";" ▸ hsemicolon)
  simp only [ScanState.step]
  cases hkind : t.kind with
  | word =>
      exact (ScanState.SameRecords.wordStep b s i t.text).recordStep
        (hother (by simp [Lexeme.isPunct, hkind]))
  | punctuator =>
      have htext : ∀ text, b.punctAt i text = (t.text == text) := by
        intro text
        simp [hpunct, Lexeme.isPunct, hkind]
      dsimp only
      split
      next hsquare =>
        refine (ScanState.SameRecords.squareStep b s i).recordStep (hother ?_)
        simp only [beq_iff_eq] at hsquare
        simp [Lexeme.isPunct, hsquare]
      next =>
        simp only [ScanState.punctuatorStep, Move.one]
        split
        next hround =>
          refine (ScanState.SameRecords.openGroup b s i false).recordStep (hother ?_)
          simp only [beq_iff_eq] at hround
          simp [Lexeme.isPunct, hround]
        split
        next hclose =>
          refine (ScanState.SameRecords.closeGroup b s i).recordStep (hother ?_)
          simp only [Bool.or_eq_true, beq_iff_eq] at hclose
          rcases hclose with hclose | hclose <;> simp [Lexeme.isPunct, hclose]
        split
        next hopen => exact ScanState.recordStep_openBrace ((htext _).trans hopen)
        split
        next hclose => exact h.recordStep_closeBrace hb ((htext _).trans hclose)
        split
        next hends =>
          simp only [Bool.and_eq_true, ScanState.atTop, List.isEmpty_iff] at hends
          exact ScanState.recordStep_endStatement ((htext _).trans hends.1) hends.2
        next hends =>
          refine (ScanState.SameRecords.refl s).recordStep ?_
          rintro name ⟨hsemicolon, htop, -⟩
          exact hends (by simp [← htext, hsemicolon, ScanState.atTop, htop])
  | number | string | character | directive =>
      exact (ScanState.SameRecords.refl s).recordStep (hother (by simp [Lexeme.isPunct, hkind]))

end Aligned

end CxxFloor
