/-
# From the look ahead to the body

The body that is found ahead of an introducer is remembered until the walk comes
to its brace.  What a step can do to the bodies that are remembered is said once
(`BodyStep`): it notes one, takes away those that open where it stands, or
leaves them as they are.  So the body is expected at every boundary on the way
to it (`Boundary.expects`), and its brace opens the scope of a lambda
(`Boundary.opens_lambda`).  No other brace does: the scope of a lambda was
announced by an introducer (`Bracketed.Opens.announced`).
-/
import CxxFloor.Proofs.Scope.Heads
import CxxFloor.Proofs.Scope.LambdaAhead

namespace CxxFloor

/-- A body that opens at index `o` was found ahead and has not been reached. -/
def ScanState.Expects (s : ScanState) (o : Nat) : Prop := ∃ body ∈ s.lambdaBodies, body.opener = o

/-! ## Steps -/

/-- What a step from index `i` does to the bodies that were found ahead. -/
inductive BodyStep (b : Bracketed) (s : ScanState) (i : Nat) (s' : ScanState) : Prop
  | kept (h : s'.lambdaBodies = s.lambdaBodies)
  | reached (h : s'.lambdaBodies = s.lambdaBodies.filter (·.opener ≠ i))
  | noted {body : Scope} (hannounces : b.Announces s.scope i body)
      (h : s'.lambdaBodies = body :: s.lambdaBodies)

namespace ScanState

variable {b : Bracketed} {s : ScanState} {i o : Nat}

theorem lambdaBodies_openGroup (b : Bracketed) (s : ScanState) (i : Nat) (constant : Bool) :
    (s.openGroup b i constant).lambdaBodies = s.lambdaBodies := by
  unfold openGroup
  split <;> rfl

theorem lambdaBodies_closeGroup (b : Bracketed) (s : ScanState) (i : Nat) :
    (s.closeGroup b i).lambdaBodies = s.lambdaBodies := by
  unfold closeGroup
  split <;> rfl

theorem lambdaBodies_closeBrace (b : Bracketed) (s : ScanState) (i : Nat) :
    (s.closeBrace b i).lambdaBodies = s.lambdaBodies := by
  simp only [closeBrace]
  split
  · split <;> rfl
  split
  · exact lambdaBodies_closeGroup b s i
  · simp only [closeScope]
    split
    · rfl
    · split <;> rfl

theorem lambdaBodies_endStatement (b : Bracketed) (s : ScanState) (i : Nat) :
    (s.endStatement b i).1.lambdaBodies = s.lambdaBodies := by
  simp only [endStatement, noteForward]
  repeat' split
  all_goals rfl

theorem lambdaBodies_wordStep (b : Bracketed) (s : ScanState) (i : Nat) (text : String) :
    (s.wordStep b i text).state.lambdaBodies = s.lambdaBodies := by
  simp only [wordStep, wordCuts]
  repeat' split
  all_goals rfl

theorem bodyStep_openBrace : BodyStep b s i (s.openBrace b i).1 := by
  simp only [openBrace]
  split
  · exact .kept rfl
  split
  next body hbody =>
    obtain rfl : body.opener = i := by simpa using List.find?_some hbody
    exact .reached rfl
  split
  · exact .kept (lambdaBodies_openGroup b s i false)
  split
  · exact .kept (lambdaBodies_openGroup b s i _)
  · exact .kept rfl

theorem squareStep_of_announces {body : Scope} (h : b.Announces s.scope i body) :
    (∃ context, .span .captureList i (body.opener - 1) context ∈ (s.squareStep b i).cuts) ∧
      (s.squareStep b i).state.lambdaBodies = body :: s.lambdaBodies := by
  simp only [squareStep]
  split
  next hclose =>
    rw [h.bare] at hclose
    cases hclose
  next =>
    simp only [Move.one, lambdaBodies_openGroup, noteLambda, h.introduces, if_true, h.ahead]
    exact ⟨⟨_, List.mem_singleton_self _⟩, trivial⟩

theorem bodyStep_squareStep (hopen : b.punctAt i "[" = true) :
    BodyStep b s i (s.squareStep b i).state := by
  by_cases hannounces : ∃ body, b.Announces s.scope i body
  · obtain ⟨body, hbody⟩ := hannounces
    exact .noted hbody (squareStep_of_announces hbody).2
  · refine .kept ?_
    simp only [squareStep]
    split
    · rfl
    next hbare =>
      simp only [Move.one, lambdaBodies_openGroup, noteLambda]
      split
      next hintroduces =>
        split
        next body hbody => exact absurd ⟨body, hopen, hbare, hintroduces, hbody⟩ hannounces
        next => rfl
      next => rfl

theorem bodyStep {t : Lexeme} (ht : b.at? i = some t) : BodyStep b s i (s.step b i t).state := by
  simp only [step]
  cases hkind : t.kind with
  | word => exact .kept (lambdaBodies_wordStep b s i t.text)
  | punctuator =>
      dsimp only
      split
      next hsquare =>
        refine bodyStep_squareStep ?_
        simpa [Bracketed.punctAt, ht, Lexeme.isPunct, hkind] using hsquare
      · simp only [punctuatorStep, Move.one]
        repeat' split
        · exact .kept (lambdaBodies_openGroup b s i false)
        · exact .kept (lambdaBodies_closeGroup b s i)
        · exact bodyStep_openBrace
        · exact .kept (lambdaBodies_closeBrace b s i)
        · exact .kept (lambdaBodies_endStatement b s i)
        · exact .kept rfl
  | number | string | character | directive => exact .kept rfl

end ScanState

theorem BodyStep.expects {b : Bracketed} {s s' : ScanState} {i o : Nat} (h : BodyStep b s i s')
    (hexpects : s.Expects o) (hne : i ≠ o) : s'.Expects o := by
  obtain ⟨body, hbody, ho⟩ := hexpects
  refine ⟨body, ?_, ho⟩
  cases h with
  | kept h => exact h ▸ hbody
  | reached h => exact h ▸ List.mem_filter.2 ⟨hbody, decide_eq_true (ho.trans_ne hne.symm)⟩
  | noted _ h => exact h ▸ List.mem_cons_of_mem _ hbody

/-- A body that is remembered behind a step was remembered before it, or the step noted it. -/
theorem BodyStep.of_mem {b : Bracketed} {s s' : ScanState} {i : Nat} {body : Scope}
    (h : BodyStep b s i s') (hbody : body ∈ s'.lambdaBodies) :
    body ∈ s.lambdaBodies ∨ b.Announces s.scope i body := by
  cases h with
  | kept h => exact .inl (h ▸ hbody)
  | reached h => exact .inl (List.mem_of_mem_filter (h ▸ hbody))
  | noted hannounces h =>
      rw [h] at hbody
      rcases List.mem_cons.1 hbody with rfl | hbody
      · exact .inr hannounces
      · exact .inl hbody

/-! ## Runs -/

theorem Bracketed.head_kind_ne_lambda (b : Bracketed) (scope : Scope) (start stop : Nat) :
    (b.head scope start stop).kind ≠ some .lambda := by
  have hclass : ∀ key, classScope key ≠ .lambda := by
    intro key
    unfold classScope
    split <;> simp
  simp only [head]
  repeat' split
  all_goals simp [hclass]

namespace Boundary

variable {b : Bracketed} {i j o : Nat} {s t : ScanState} {body : Scope}

theorem expects (h : Boundary b i s) (hannounces : b.Announces s.scope i body)
    (h' : Boundary b j t) (hij : i < j) (hj : j ≤ body.opener) : t.Expects body.opener := by
  have hi : i < b.lexemes.size := Bracketed.lt_size_of_punctAt hannounces.opens
  refine h.of_later (P := fun k u => k ≤ body.opener → u.Expects body.opener) hi ?_ ?_ h' hij hj
  · intro _
    rw [ScanState.step_eq_squareStep (Array.getElem?_eq_getElem hi) hannounces.opens]
    exact ⟨body, (ScanState.squareStep_of_announces hannounces).2 ▸ List.mem_cons_self, rfl⟩
  · intro k u hk _ _ hkept hnext
    have := (u.step b k b.lexemes[k]).later
    exact (ScanState.bodyStep (Array.getElem?_eq_getElem hk)).expects (hkept (by omega)) (by omega)

theorem announced_of_mem (h : Boundary b j t) (hbody : body ∈ t.lambdaBodies) :
    ∃ i s, Boundary b i s ∧ b.Announces s.scope i body := by
  induction h with
  | start => exact absurd hbody List.not_mem_nil
  | @step k u h hk ih =>
      rcases (ScanState.bodyStep (Array.getElem?_eq_getElem hk)).of_mem hbody with
        hbefore | hannounces
      · exact ih hbefore
      · exact ⟨k, u, h, hannounces⟩

theorem opens_lambda (h : Boundary b o s) (hexpects : s.Expects o)
    (hbrace : b.punctAt o "\x7b" = true) (hpaired : (b.pairs.partner? o).isSome) :
    ∃ scope, b.Opens scope ∧ scope.opener = o ∧ scope.kind = .lambda := by
  obtain ⟨expected, hmem, ho⟩ := hexpects
  cases hfind : s.lambdaBodies.find? (·.opener = o) with
  | none => simpa [ho] using List.find?_eq_none.1 hfind expected hmem
  | some body =>
      obtain rfl : body.opener = o := by simpa using List.find?_some hfind
      have hstate : (s.openBrace b body.opener).1 = s.enterLambda body := by
        simp [ScanState.openBrace, Option.isSome_iff_ne_none.1 hpaired, hfind]
      exact ⟨{ body with resume := some ⟨s.groups, s.head⟩ },
        ⟨s, h, hbrace, congrArg ScanState.scopes hstate⟩, rfl,
        h.lambdasAhead body (List.mem_of_find?_eq_some hfind)⟩

/-- A brace opens the scope of a lambda only where a body is expected, and as that body. -/
theorem body_of_opens {scope : Scope} (h : Boundary b scope.opener s) (hopens : b.Opens scope)
    (hkind : scope.kind = .lambda) :
    ∃ body ∈ s.lambdaBodies, scope = { body with resume := some ⟨s.groups, s.head⟩ } := by
  obtain ⟨s', h', -, hscopes⟩ := hopens
  obtain rfl := h.unique h'
  have hgroup : ∀ constant, (s.openGroup b scope.opener constant).scopes ≠ scope :: s.scopes := by
    intro constant
    rw [(ScanState.SameRecords.openGroup b s scope.opener constant).scopes]
    exact (List.cons_ne_self _ _).symm
  simp only [ScanState.openBrace] at hscopes
  split at hscopes
  · exact absurd hscopes (List.cons_ne_self _ _).symm
  split at hscopes
  next body hbody =>
    exact ⟨body, List.mem_of_find?_eq_some hbody, (List.cons.inj hscopes).1.symm⟩
  split at hscopes
  · exact absurd hscopes (hgroup false)
  split at hscopes
  · exact absurd hscopes (hgroup _)
  next kind hhead =>
    have hannounced : kind = .lambda := (congrArg Scope.kind (List.cons.inj hscopes).1).trans hkind
    exact absurd (hhead.trans (congrArg some hannounced)) (b.head_kind_ne_lambda _ _ _)

end Boundary

/-- The scope of a lambda was announced by an introducer, as it is but for the statement that it
suspends. -/
theorem Bracketed.Opens.exists_introducer {b : Bracketed} {scope : Scope} (hopens : b.Opens scope)
    (hkind : scope.kind = .lambda) :
    ∃ i s, Boundary b i s ∧ b.Announces s.scope i { scope with resume := none } := by
  obtain ⟨t, ht, -⟩ := id hopens
  obtain ⟨body, hbody, hscope⟩ := ht.body_of_opens hopens hkind
  obtain ⟨i, s, hs, hannounces⟩ := ht.announced_of_mem hbody
  have hsame : { scope with resume := none } = body := by
    rw [hscope, ← Bracketed.resume_of_lambdaAhead hannounces.ahead]
  exact ⟨i, s, hs, hsame ▸ hannounces⟩

theorem Bracketed.Opens.announced {b : Bracketed} {scope : Scope} (hopens : b.Opens scope)
    (hkind : scope.kind = .lambda) :
    ∃ i s body, Boundary b i s ∧ b.Announces s.scope i body ∧ body.opener = scope.opener := by
  obtain ⟨i, s, hs, hannounces⟩ := hopens.exists_introducer hkind
  exact ⟨i, s, _, hs, hannounces, rfl⟩

/-- A lambda that is announced at a boundary is a fragment, up to the token before its body. -/
theorem Source.fragment_of_announces (name : String) {text : String} {i : Nat} {s : ScanState}
    {body : Scope} (h : Boundary (.ofText text) i s)
    (hannounces : (Bracketed.ofText text).Announces s.scope i body) :
    ∃ f ∈ (scan name text).fragments, f.kind = .captureList ∧
      (Source.ofText name text).Window f i (body.opener - 1) := by
  have hi : i < (Bracketed.ofText text).lexemes.size :=
    Bracketed.lt_size_of_punctAt hannounces.opens
  obtain ⟨context, hcut⟩ := (ScanState.squareStep_of_announces hannounces).1
  rw [← ScanState.step_eq_squareStep (Array.getElem?_eq_getElem hi) hannounces.opens] at hcut
  exact exists_fragment name h hi hcut

end CxxFloor
