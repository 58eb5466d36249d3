/-
# Where groups come from

A group is opened by the step at its opener, in the statement it belongs to and
inside the groups that are listed behind it.  A lambda in between takes the
statement away and hands it back, so this holds of a suspended statement as well
(`Boundary.groupsOpened`).

Whether a group is constant is decided there and then passed on inward: by the
kind of its bracket where no other group is open, by the group around it, and by
a keyword that announced it.  The walk knows of such a keyword exactly where one
stands (`Boundary.holdsConstant`, `Boundary.knows_constant`).  So apart from the
keywords nothing but the outermost bracket is asked (`OpenedFrom.constant_iff`).
-/
import CxxFloor.Proofs.Bracket.Level
import CxxFloor.Proofs.Scope.Completion
import CxxFloor.Proofs.Scope.Heads
import CxxFloor.Proofs.Scope.Statements

namespace CxxFloor

/-! ## Announced parentheses -/

/-- The parenthesis at index `o` holds the operand of an assertion or of an alignment, or the
condition of a constant branch. -/
def Bracketed.HoldsConstant (b : Bracketed) (o : Nat) : Prop :=
  b.punctAt o "(" = true ∧
    (1 ≤ o ∧ b.wordInAt (o - 1) ["static_assert", "alignas"] = true ∨
      2 ≤ o ∧ b.textInAt (o - 1) ["constexpr"] = true ∧ b.wordAt (o - 2) "if" = true)

instance (b : Bracketed) (o : Nat) : Decidable (b.HoldsConstant o) :=
  inferInstanceAs (Decidable (_ ∧ _))

namespace ScanState

variable {b : Bracketed} {s : ScanState} {i o : Nat}

theorem constantOpeners_openGroup (b : Bracketed) (s : ScanState) (i : Nat) (constant : Bool) :
    (s.openGroup b i constant).constantOpeners = s.constantOpeners := by
  simp only [openGroup]
  split <;> rfl

theorem constantOpeners_closeGroup (b : Bracketed) (s : ScanState) (i : Nat) :
    (s.closeGroup b i).constantOpeners = s.constantOpeners := by
  simp only [closeGroup]
  split <;> rfl

theorem constantOpeners_noteLambda (b : Bracketed) (s : ScanState) (i : Nat) :
    (s.noteLambda b i).1.constantOpeners = s.constantOpeners := by
  simp only [noteLambda]
  repeat' split
  all_goals rfl

theorem constantOpeners_openBrace (b : Bracketed) (s : ScanState) (i : Nat) :
    (s.openBrace b i).1.constantOpeners = s.constantOpeners := by
  simp only [openBrace]
  repeat' split
  all_goals first
    | rfl
    | exact constantOpeners_openGroup b s i _

theorem constantOpeners_closeBrace (b : Bracketed) (s : ScanState) (i : Nat) :
    (s.closeBrace b i).constantOpeners = s.constantOpeners := by
  simp only [closeBrace, closeScope]
  repeat' split
  all_goals first
    | rfl
    | exact constantOpeners_closeGroup b s i

theorem constantOpeners_punctuatorStep (b : Bracketed) (s : ScanState) (i : Nat) (text : String) :
    (s.punctuatorStep b i text).1.constantOpeners = s.constantOpeners := by
  simp only [punctuatorStep]
  split
  · exact constantOpeners_openGroup b s i false
  split
  · exact constantOpeners_closeGroup b s i
  split
  · exact constantOpeners_openBrace b s i
  split
  · exact constantOpeners_closeBrace b s i
  split
  · simp only [endStatement, noteForward]
    repeat' split
    all_goals rfl
  · rfl

theorem holdsConstant_branchEnd (hif : b.wordAt i "if" = true) (h : (branchEnd b i).2 = some o) :
    b.HoldsConstant o := by
  simp only [branchEnd] at h
  split at h
  · cases h
  split at h
  next hconstexpr =>
    split at h
    next hround =>
      cases h
      exact ⟨hround, .inr ⟨by omega, hconstexpr, hif⟩⟩
    next => cases h
  split at h <;> cases h

/-- What a word or another token adds to the parentheses known as constant: nothing, or one that
holds a constant expression. -/
def Announces (b : Bracketed) (s s' : ScanState) : Prop :=
  s'.constantOpeners = s.constantOpeners ∨
    ∃ o, b.HoldsConstant o ∧ s'.constantOpeners = o :: s.constantOpeners

theorem announces_wordCuts {t : Lexeme} (ht : b.at? i = some t) (hkind : t.kind = .word) :
    s.Announces b (s.wordCuts b i t.text).1 := by
  have hword : ∀ {words : List String}, t.text ∈ words → b.wordInAt i words = true := fun htext =>
    Bracketed.wordInAt_iff.2 ⟨t, ht, hkind, htext⟩
  simp only [wordCuts]
  split
  next htext =>
    split
    next close hclose =>
      refine .inr ⟨i + 1, ⟨Bracketed.punctAt_of_roundEnd? hclose, .inl ⟨by omega, ?_⟩⟩, rfl⟩
      exact hword (by simp [eq_of_beq htext])
    next => exact .inl rfl
  split
  · split <;> exact .inl rfl
  split
  next htext =>
    split
    next hround =>
      refine .inr ⟨i + 1, ⟨hround, .inl ⟨by omega, ?_⟩⟩, rfl⟩
      exact hword (by simp [eq_of_beq htext])
    next => exact .inl rfl
  split
  next htext =>
    split
    next opener hopener =>
      refine .inr ⟨opener, holdsConstant_branchEnd ?_ hopener, rfl⟩
      rw [Bracketed.wordAt_eq_wordInAt]
      exact hword (by simp [eq_of_beq htext])
    next => exact .inl rfl
  repeat' split
  all_goals exact .inl rfl

/-- A step gets to know as constant nothing but a parenthesis that holds a constant expression. -/
theorem announces_step {t : Lexeme} (ht : b.at? i = some t) :
    s.Announces b (s.step b i t).state := by
  simp only [step]
  split
  · exact .inl rfl
  next hkind =>
    simp only [wordStep]
    split
    · exact .inl rfl
    split
    · exact .inl rfl
    · exact announces_wordCuts ht hkind
  · split
    · simp only [squareStep]
      split
      · exact .inl rfl
      · refine .inl ?_
        rw [Move.one, constantOpeners_openGroup, constantOpeners_noteLambda]
    · exact .inl (constantOpeners_punctuatorStep b s i t.text)
  all_goals exact .inl rfl

theorem announces_operand {t : Lexeme} {c : Nat} (ht : b.at? i = some t)
    (hword : b.wordInAt i ["static_assert", "alignas"] = true) (hc : b.roundEnd? (i + 1) = some c) :
    i + 1 ∈ (s.step b i t).state.constantOpeners := by
  obtain ⟨u, hu, hkind, htext⟩ := Bracketed.wordInAt_iff.1 hword
  obtain rfl := Option.some.inj (ht.symm.trans hu)
  have hround := Bracketed.punctAt_of_roundEnd? hc
  have hcolon : b.punctAt (i + 1) ":" = false := Bracketed.punctAt_unique hround (by decide)
  simp only [List.mem_cons, List.not_mem_nil, or_false] at htext
  rcases htext with htext | htext
  · rw [step_of_word ht hkind (by simp [htext]) hcolon, htext]
    simp [wordCuts, hc, Move.one]
  · have hquery : "alignas" ∉ sizeQueries := by decide
    rw [step_of_word ht hkind (by simp [htext]) hcolon, htext]
    simp [wordCuts, hquery, hround, Move.one]

theorem announces_branch {t : Lexeme} (ht : b.at? i = some t) (hif : b.wordAt i "if" = true)
    (hconstexpr : b.textInAt (i + 1) ["constexpr"] = true) (hround : b.punctAt (i + 2) "(" = true) :
    i + 2 ∈ (s.step b i t).state.constantOpeners := by
  rw [Bracketed.wordAt_eq_wordInAt] at hif
  obtain ⟨u, hu, hkind, htext⟩ := Bracketed.wordInAt_iff.1 hif
  obtain rfl := Option.some.inj (ht.symm.trans hu)
  rw [List.mem_singleton] at htext
  obtain ⟨next, hnext, hspelled⟩ := (Option.any_eq_true _ _).1 hconstexpr
  have hspelled : next.text = "constexpr" := by simpa using hspelled
  have hcolon : b.punctAt (i + 1) ":" = false := by
    simp [Bracketed.punctAt, hnext, Lexeme.isPunct, hspelled]
  have hend : branchEnd b i = (i + 1, some (i + 2)) := by
    have hmark : b.punctAt (i + 1) "!" = false := by
      simp [Bracketed.punctAt, hnext, Lexeme.isPunct, hspelled]
    have hnot : b.wordAt (i + 1) "not" = false := by
      simp [Bracketed.wordAt, hnext, Lexeme.isWord, hspelled]
    simp [branchEnd, hmark, hnot, hconstexpr, hround]
  have hquery : "if" ∉ sizeQueries := by decide
  rw [step_of_word ht hkind (by simp [htext]) hcolon, htext]
  simp [wordCuts, hquery, hend, Move.one]

end ScanState

namespace Boundary

variable {b : Bracketed} {i o k : Nat} {s : ScanState}

theorem holdsConstant (h : Boundary b i s) (ho : o ∈ s.constantOpeners) : b.HoldsConstant o := by
  induction h with
  | start => exact absurd ho List.not_mem_nil
  | @step i s h hi ih =>
      rcases ScanState.announces_step (s := s) (Array.getElem?_eq_getElem hi) with
        hsame | ⟨o', ho', hnew⟩
      · exact ih (hsame ▸ ho)
      · rw [hnew] at ho
        rcases List.mem_cons.1 ho with rfl | ho
        · exact ho'
        · exact ih ho

theorem step_before (h : Boundary b (k + 1) s) (hb : b.Nested) {t : Lexeme} (ht : b.at? k = some t)
    (hplain : t.text ∉ [":", "(", "[", "\x7b", ")", "]", "\x7d"]) :
    ∃ r, Boundary b k r ∧ s = (r.step b k t).state := by
  have hpartner : b.pairs.partner? k = none := hb.partner?_eq_none ht fun hbracket =>
    hplain (List.mem_cons_of_mem _ hbracket.2)
  have hcolon : b.punctAt k ":" = false := by
    simp only [List.mem_cons, not_or] at hplain
    simp [Bracketed.punctAt, ht, Lexeme.isPunct, hplain.1]
  cases h.zero_or_step with
  | inl hzero => cases hzero
  | inr hstep =>
      obtain ⟨j, r, hj, hr, hnext, rfl⟩ := hstep
      rcases ScanState.step_next b r j b.lexemes[j] with hone | ⟨last, hlast, hcase⟩
      · obtain rfl : j = k := by omega
        obtain rfl := Option.some.inj (ht.symm.trans (Array.getElem?_eq_getElem hj))
        exact ⟨r, hr, rfl⟩
      · -- what is passed over ends with a colon or a bracket
        obtain rfl : last = k := by omega
        rcases hcase with hends | ⟨o, ho⟩
        · rw [hcolon] at hends
          cases hends
        · have hback := hb.partner_symm (Bracketed.partner?_of_closer? ho)
          rw [hpartner] at hback
          cases hback

theorem knows_constant (h : Boundary b o s) (hb : b.Nested) {c : Nat} (hc : b.closer? o = some c)
    (hholds : b.HoldsConstant o) : o ∈ s.constantOpeners := by
  obtain ⟨hround, ⟨hpos, hword⟩ | ⟨hpos, hconstexpr, hif⟩⟩ := hholds
  · obtain ⟨k, rfl⟩ := Nat.exists_eq_add_of_le' hpos
    rw [Nat.add_sub_cancel] at hword
    obtain ⟨t, ht, -, htext⟩ := Bracketed.wordInAt_iff.1 hword
    obtain ⟨r, -, rfl⟩ := h.step_before hb ht (by
      simp only [List.mem_cons, List.not_mem_nil, or_false] at htext
      rcases htext with htext | htext <;> simp [htext])
    exact ScanState.announces_operand ht hword (by rw [Bracketed.roundEnd?, if_pos hround, hc])
  · obtain ⟨k, rfl⟩ := Nat.exists_eq_add_of_le' hpos
    have hconstexpr : b.textInAt (k + 1) ["constexpr"] = true := hconstexpr
    rw [Nat.add_sub_cancel] at hif
    obtain ⟨next, hnext, hspelled⟩ := (Option.any_eq_true _ _).1 hconstexpr
    obtain ⟨t, ht, -, htext⟩ := Bracketed.wordInAt_iff.1 (Bracketed.wordAt_eq_wordInAt ▸ hif)
    obtain ⟨r, hr, rfl⟩ := h.step_before hb hnext (by
      have hspelled : next.text = "constexpr" := by simpa using hspelled
      simp [hspelled])
    obtain ⟨q, -, rfl⟩ := hr.step_before hb ht (by simp [List.mem_singleton.1 htext])
    -- the step at `constexpr` keeps what the one at `if` added
    have hknown := ScanState.announces_branch (s := q) ht hif hconstexpr hround
    rcases ScanState.announces_step (s := (q.step b k t).state) hnext with hsame | ⟨_, -, hnew⟩
    · exact hsame ▸ hknown
    · exact hnew ▸ List.mem_cons_of_mem _ hknown

end Boundary

/-! ## The step -/

/-- The bracket at index `i` is taken to open a group that is constant, whatever is around it and
before it. -/
def ScanState.opensConstant (b : Bracketed) (s : ScanState) (i : Nat) : Bool :=
  if b.punctAt i "[" then s.opensArrayBound b i
  else s.atTop && b.punctAt i "\x7b" && b.declaresConstantVariable s.head i false

/-- The group is constant as the bracket at its opener takes it, inside the groups around it. -/
def ScanState.Decides (b : Bracketed) (s : ScanState) (group : Group) : Prop :=
  group.constant = (s.opensConstant b group.opener || s.groups.head?.any (·.constant) ||
    s.constantOpeners.contains group.opener)

/-- What a step from index `i` does to the groups, unless it enters or leaves a scope. -/
inductive GroupStep (b : Bracketed) (i : Nat) (s s' : ScanState) : Prop
  | keeps (hgroups : s'.groups = s.groups)
  | opens {group : Group} (hopener : group.opener = i) (hdecides : s.Decides b group)
      (hgroups : s'.groups = group :: s.groups)
  | closes {group : Group} (hgroups : s.groups = group :: s'.groups)
  | moves (hscopes : s'.scopes ≠ s.scopes)

namespace GroupStep

variable {b : Bracketed} {i : Nat} {s : ScanState}

theorem openGroup {constant : Bool} (h : s.opensConstant b i = constant) :
    GroupStep b i s (s.openGroup b i constant) := by
  simp only [ScanState.openGroup]
  split
  · refine .opens rfl ?_ rfl
    rw [ScanState.Decides, h]
  · exact .keeps rfl

theorem openBrace (hbrace : b.punctAt i "\x7b" = true) : GroupStep b i s (s.openBrace b i).1 := by
  have hsquare : b.punctAt i "[" = false := Bracketed.punctAt_unique hbrace (by decide)
  simp only [ScanState.openBrace]
  split
  · exact .keeps rfl
  split
  · exact .moves (List.cons_ne_self _ _)
  split
  next htop =>
    rw [Bool.not_eq_true'] at htop
    exact openGroup (by simp [ScanState.opensConstant, hsquare, htop])
  next htop =>
    rw [Bool.not_eq_true', Bool.not_eq_false] at htop
    split
    · exact openGroup (by simp [ScanState.opensConstant, hsquare, hbrace, htop])
    · exact .keeps rfl

theorem openRound (hround : b.punctAt i "(" = true) : GroupStep b i s (s.openGroup b i false) := by
  have hsquare : b.punctAt i "[" = false := Bracketed.punctAt_unique hround (by decide)
  have hcurly : b.punctAt i "\x7b" = false := Bracketed.punctAt_unique hround (by decide)
  exact openGroup (by simp [ScanState.opensConstant, hsquare, hcurly])

theorem squareStep (hsquare : b.punctAt i "[" = true) :
    GroupStep b i s (s.squareStep b i).state := by
  simp only [ScanState.squareStep]
  split
  · exact .keeps rfl
  · -- a lambda that is noted leaves alone what decides about the group
    obtain ⟨hscopes, hgroups⟩ := ScanState.sameOpen_noteLambda b s i
    have hbound : (s.noteLambda b i).1.opensArrayBound b i = s.opensArrayBound b i := by
      simp only [ScanState.opensArrayBound, ScanState.atTop, ScanState.scope, hscopes, hgroups]
    have hopeners := ScanState.constantOpeners_noteLambda b s i
    simp only [Move.one, ScanState.openGroup]
    split
    · refine .opens rfl ?_ (congrArg (List.cons _) hgroups)
      simp only [ScanState.Decides, ScanState.opensConstant, hsquare, if_true, hbound, hgroups,
        hopeners]
    · exact .keeps hgroups

theorem wordStep (text : String) : GroupStep b i s (s.wordStep b i text).state := by
  simp only [ScanState.wordStep]
  split
  · exact .keeps rfl
  split
  · exact .keeps rfl
  · exact .keeps (ScanState.sameOpen_wordCuts b s i text).2

end GroupStep

/-- A closer with a partner closes a group or leaves a scope; without one it does neither. -/
theorem Aligned.groupStep_closer {b : Bracketed} {i : Nat} {s : ScanState} (h : Aligned b i s)
    (hb : b.Nested) (hi : i < b.lexemes.size) {k : Bracket} (hc : b.closesAt i k) :
    GroupStep b i s (s.step b i b.lexemes[i]).state := by
  cases hp : b.pairs.partner? i with
  | none =>
      rw [step_state_of_closesAt (Array.getElem?_eq_getElem hi) hc]
      refine .keeps ?_
      simp only [ScanState.closeBrace, ScanState.closeGroup, hp]
      split
      · split <;> rfl
      · rfl
  | some o =>
      rcases h.closesOne hb hi hp (hb.gt_of_closesAt hp hc) with
        ⟨group, rest, hgroups, -, heq⟩ | ⟨-, -, scope, outer, hscopes, -, hleft, -⟩
      · exact .closes (hgroups.trans (by rw [heq]))
      · refine .moves ?_
        rw [hleft, hscopes]
        exact (List.cons_ne_self _ _).symm

theorem Boundary.groupStep {b : Bracketed} {i : Nat} {s : ScanState} (h : Boundary b i s)
    (hb : b.Nested) (hi : i < b.lexemes.size) : GroupStep b i s (s.step b i b.lexemes[i]).state := by
  have ht : b.at? i = some b.lexemes[i] := Array.getElem?_eq_getElem hi
  by_cases hc : ∃ k, b.closesAt i k
  · obtain ⟨k, hk⟩ := hc
    exact (h.aligned hb).groupStep_closer hb hi hk
  generalize b.lexemes[i] = t at ht
  have hpunct : t.kind = .punctuator → b.punctAt i t.text = true := fun hkind =>
    Bracketed.punctAt_iff.2 ⟨t, ht, by simp [Lexeme.isPunct, hkind]⟩
  have hcloser : t.kind = .punctuator → ∀ k : Bracket, t.text ≠ k.closer := fun hkind k htext =>
    hc ⟨k, Bracketed.closesAt_of_punctAt (htext ▸ hpunct hkind)⟩
  simp only [ScanState.step]
  cases hkind : t.kind with
  | word => exact GroupStep.wordStep t.text
  | punctuator =>
      have hpunct := hpunct hkind
      have hcloser := hcloser hkind
      dsimp only
      split
      next hsquare => exact GroupStep.squareStep (eq_of_beq hsquare ▸ hpunct)
      simp only [ScanState.punctuatorStep, Move.one]
      split
      next hround => exact GroupStep.openRound (eq_of_beq hround ▸ hpunct)
      split
      next hclose =>
        simp only [Bool.or_eq_true, beq_iff_eq] at hclose
        exact (hclose.elim (hcloser .round) (hcloser .square)).elim
      split
      next hcurly => exact GroupStep.openBrace (eq_of_beq hcurly ▸ hpunct)
      split
      next hcurly => exact (hcloser .curly (eq_of_beq hcurly)).elim
      split
      · exact .keeps (ScanState.sameOpen_endStatement b s i).2
      · exact .keeps rfl
  | number | string | character | directive => exact .keeps rfl

/-! ## Origins -/

/-- The groups were opened one in the other, in a statement with this head and these scopes around
it. -/
inductive OpenedFrom (b : Bracketed) (head : Nat) (scopes : List Scope) : List Group → Prop
  | nil : OpenedFrom b head scopes []
  | cons {group : Group} {outer : List Group} {t : ScanState} (h : Boundary b group.opener t)
      (hhead : t.head = head) (hscopes : t.scopes = scopes) (hgroups : t.groups = outer)
      (hdecides : t.Decides b group) (houter : OpenedFrom b head scopes outer) :
      OpenedFrom b head scopes (group :: outer)

/-- The groups of every statement, the one in progress and the suspended ones, were opened in it. -/
structure GroupsOpened (b : Bracketed) (s : ScanState) : Prop where
  current : OpenedFrom b s.head s.scopes s.groups
  suspended : AllSuspended (fun _ scope outer =>
    ∀ resume ∈ scope.resume, OpenedFrom b resume.head outer resume.groups) s.scopes

namespace Boundary

variable {b : Bracketed} {i : Nat} {s : ScanState}

/-- A step that stays in the statement adds a group or closes the innermost one. -/
theorem openedFrom_step (h : Boundary b i s) (hb : b.Nested) (hi : i < b.lexemes.size)
    (hopened : OpenedFrom b s.head s.scopes s.groups)
    (hscopes : (s.step b i b.lexemes[i]).state.scopes = s.scopes) :
    OpenedFrom b s.head s.scopes (s.step b i b.lexemes[i]).state.groups := by
  cases h.groupStep hb hi with
  | keeps hgroups => exact hgroups ▸ hopened
  | opens hopener hdecides hgroups =>
      subst hopener
      rw [hgroups]
      exact .cons h rfl rfl rfl hdecides hopened
  | closes hgroups =>
      rw [hgroups] at hopened
      cases hopened with
      | cons _ _ _ _ _ houter => exact houter
  | moves hmoves => exact absurd hscopes hmoves

/-- The brace behind the body of a lambda hands the groups back that were taken away. -/
theorem groups_resumed (h : Boundary b i s) (hb : b.Nested) (hi : i < b.lexemes.size) {scope : Scope}
    {outer : List Scope} (hinner : s.scopes = scope :: outer)
    (hpartner : b.pairs.partner? i = some scope.opener)
    (hscopes : (s.step b i b.lexemes[i]).state.scopes = outer) :
    (s.step b i b.lexemes[i]).state.groups = ScanState.resumedGroups scope := by
  have hlt : scope.opener < i :=
    Nat.lt_of_lt_of_le (h.opener_lt_head hb (hinner ▸ List.mem_cons_self)) h.headLe.1
  rcases (h.aligned hb).closesOne hb hi hpartner hlt with
    ⟨group, rest, -, -, heq⟩ | ⟨-, -, scope', outer', hscopes', -, -, hgroups⟩
  · rw [heq] at hscopes
    exact absurd (hinner.symm.trans hscopes) (List.cons_ne_self _ _)
  · obtain ⟨rfl, -⟩ := List.cons.inj (hinner.symm.trans hscopes')
    exact hgroups

theorem groupsOpened (h : Boundary b i s) (hb : b.Nested) : GroupsOpened b s := by
  induction h with
  | start => exact ⟨.nil, trivial⟩
  | @step i s h hi ih =>
      cases h.headStep hb hi with
      | keeps hscopes hhead =>
          refine ⟨?_, hscopes ▸ ih.suspended⟩
          rw [hhead, hscopes]
          exact h.openedFrom_step hb hi ih.current hscopes
      | starts hscopes hhead htop => exact ⟨htop ▸ .nil, hscopes ▸ ih.suspended⟩
      | opens hscopes hopener hresume hhead htop =>
          refine ⟨htop ▸ .nil, ?_⟩
          rw [hscopes]
          refine ⟨fun _ _ resume hr => ?_, ih.suspended⟩
          rw [hresume resume hr]
          exact ih.current
      | closes hinner hscopes hhead htop =>
          have hsuspended := ih.suspended
          rw [hinner] at hsuspended
          exact ⟨htop ▸ .nil, hscopes ▸ hsuspended.2⟩
      | resumes hinner hresume hpartner _ hscopes hhead =>
          have hsuspended := ih.suspended
          rw [hinner] at hsuspended
          refine ⟨?_, hscopes ▸ hsuspended.2⟩
          rw [hhead, hscopes, h.groups_resumed hb hi hinner hpartner hscopes,
            ScanState.resumedGroups, Option.mem_def.1 hresume]
          exact hsuspended.1 _ hresume _ hresume

end Boundary

/-! ## The outermost group -/

theorem ScanState.opensConstant_of_groups {b : Bracketed} {s : ScanState} {i : Nat}
    (h : s.groups ≠ []) : s.opensConstant b i = false := by
  simp [opensConstant, opensArrayBound, atTop, h]

/-- A group is constant exactly if a keyword announced it, if its bracket opens a constant group by
itself, or if the group around it is constant. -/
theorem Boundary.constant_iff {b : Bracketed} {group : Group} {t : ScanState} {c : Nat}
    (h : Boundary b group.opener t) (hb : b.Nested) (hc : b.closer? group.opener = some c)
    (hdecides : t.Decides b group) :
    group.constant = true ↔ b.HoldsConstant group.opener ∨
      t.opensConstant b group.opener = true ∨ t.groups.head?.any (·.constant) = true := by
  have hannounced : group.opener ∈ t.constantOpeners ↔ b.HoldsConstant group.opener :=
    ⟨h.holdsConstant, h.knows_constant hb hc⟩
  rw [hdecides, Bool.or_eq_true, Bool.or_eq_true, List.contains_iff_mem, hannounced, or_comm]

/-- The innermost group is constant exactly if a keyword announced one of the groups, or if the
bracket of the outermost one opens a constant group by itself. -/
theorem OpenedFrom.constant_iff {b : Bracketed} (hb : b.Nested) {head : Nat} {scopes : List Scope}
    {groups : List Group} (h : OpenedFrom b head scopes groups)
    (hpaired : ∀ o ∈ groups.map (·.opener), ∃ c, b.closer? o = some c) {o : Nat}
    (ho : (groups.map (·.opener)).getLast? = some o) :
    ∃ t, Boundary b o t ∧ t.head = head ∧ t.scopes = scopes ∧ t.groups = [] ∧
      (groups.head?.any (·.constant) = true ↔
        (∃ o ∈ groups.map (·.opener), b.HoldsConstant o) ∨ t.opensConstant b o = true) := by
  induction h with
  | nil => cases ho
  | @cons group outer t h hhead hscopes hgroups hdecides houter ih =>
      obtain ⟨c, hc⟩ := hpaired group.opener List.mem_cons_self
      simp only [List.head?_cons, Option.any_some, h.constant_iff hb hc hdecides, hgroups,
        List.map_cons, List.mem_cons, exists_eq_or_imp]
      cases outer with
      | nil =>
          obtain rfl : group.opener = o := by simpa using ho
          exact ⟨t, h, hhead, hscopes, hgroups, by simp⟩
      | cons next rest =>
          have htop : t.groups ≠ [] := by simp [hgroups]
          obtain ⟨t', h', hhead', hscopes', htop', hinner⟩ :=
            ih (fun o' ho' => hpaired o' (List.mem_cons_of_mem _ ho')) (by simpa using ho)
          refine ⟨t', h', hhead', hscopes', htop', ?_⟩
          rw [ScanState.opensConstant_of_groups htop, hinner]
          simp [or_assoc]

end CxxFloor
