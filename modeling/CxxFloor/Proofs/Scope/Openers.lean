/-
# What the walk remembers of open brackets

The walk keeps its open brackets in two lists and in the suspended statements
around lambdas, and it jumps over attributes and labels.  Read from the
outside in, these together are at every boundary exactly the brackets that the
table of the file has open there (`Boundary.aligned`).  So whatever the
brackets of a file look like, a closer with a partner finds that partner
innermost, and at the end of the file nothing is left open.

Two things make this work.  The table is nested, so it changes at its inner
end only.  And a scope is only ever opened by a curly bracket: a round or
square closer can therefore not meet a scope, and the reading ahead of a
`case`, which starts where a scope is innermost, meets no closer of a bracket
that was open before it.
-/
import CxxFloor.Proofs.Bracket.Open
import CxxFloor.Proofs.Scope.Boundary

namespace CxxFloor

/-! ## The openers of a state -/

/-- The openers of a suspended statement's groups, from the outside in, and the scope's own. -/
def Scope.openers (scope : Scope) : List Nat :=
  ((scope.resume.map (·.groups)).getD []).reverse.map (·.opener) ++ [scope.opener]

def ScanState.openers (s : ScanState) : List Nat :=
  s.scopes.reverse.flatMap Scope.openers ++ s.groups.reverse.map (·.opener)

namespace ScanState

theorem openers_congr {s s' : ScanState} (hscopes : s'.scopes = s.scopes)
    (hgroups : s'.groups = s.groups) : s'.openers = s.openers := by
  unfold openers
  rw [hscopes, hgroups]

theorem openers_group (s s' : ScanState) (group : Group) (hscopes : s'.scopes = s.scopes)
    (hgroups : s'.groups = group :: s.groups) : s'.openers = s.openers ++ [group.opener] := by
  simp [openers, hscopes, hgroups]

theorem openers_scope (s s' : ScanState) (scope : Scope)
    (hscopes : s'.scopes = scope :: s.scopes) (hgroups : s'.groups = []) (hresume : scope.resume = none)
    (htop : s.groups = []) : s'.openers = s.openers ++ [scope.opener] := by
  simp [openers, hscopes, hgroups, htop, Scope.openers, hresume]

/-- A lambda takes the open groups with it. -/
theorem openers_lambda (s s' : ScanState) (scope : Scope) (resume : Resume)
    (hscopes : s'.scopes = scope :: s.scopes) (hgroups : s'.groups = [])
    (hresume : scope.resume = some resume) (hsuspended : resume.groups = s.groups) :
    s'.openers = s.openers ++ [scope.opener] := by
  simp [openers, hscopes, hgroups, Scope.openers, hresume, hsuspended]

/-- The groups of the statement that is taken up when a scope closes. -/
def resumedGroups (scope : Scope) : List Group := (scope.resume.map (·.groups)).getD []

/-- The last opener is that of the innermost group, or of the innermost scope if no group is
open; without it, the openers are those of what is left when that one is closed. -/
theorem innermost {s : ScanState} {os : List Nat} {o : Nat} (h : s.openers = os ++ [o]) :
    (∃ group rest, s.groups = group :: rest ∧ group.opener = o ∧
      ({ s with groups := rest } : ScanState).openers = os) ∨
    (s.groups = [] ∧ ∃ scope outer, s.scopes = scope :: outer ∧ scope.opener = o ∧
      ({ s with scopes := outer, groups := resumedGroups scope } : ScanState).openers = os) := by
  cases hg : s.groups with
  | cons group rest =>
      have hsplit : ({ s with groups := rest } : ScanState).openers ++ [group.opener] =
          os ++ [o] := by
        rw [← h]
        simp [openers, hg]
      obtain ⟨hos, ho⟩ := List.append_inj' hsplit rfl
      exact Or.inl ⟨group, rest, rfl, by simpa using ho, hos⟩
  | nil =>
      cases hs : s.scopes with
      | nil => simp [openers, hg, hs] at h
      | cons scope outer =>
          have hsplit : ({ s with scopes := outer, groups := resumedGroups scope } :
              ScanState).openers ++ [scope.opener] = os ++ [o] := by
            rw [← h]
            simp [openers, hg, hs, Scope.openers, resumedGroups]
          obtain ⟨hos, ho⟩ := List.append_inj' hsplit rfl
          exact Or.inr ⟨rfl, scope, outer, rfl, by simpa using ho, hos⟩

/-! ## What leaves scopes and groups alone -/

def SameOpen (s s' : ScanState) : Prop := s'.scopes = s.scopes ∧ s'.groups = s.groups

theorem sameOpen_noteForward (b : Bracketed) (s : ScanState) (start stop : Nat) :
    s.SameOpen (s.noteForward b start stop) := by
  unfold noteForward
  split
  · split <;> exact ⟨rfl, rfl⟩
  · exact ⟨rfl, rfl⟩

theorem sameOpen_endStatement (b : Bracketed) (s : ScanState) (i : Nat) :
    s.SameOpen (s.endStatement b i).1 := by
  unfold endStatement
  split
  · exact sameOpen_noteForward b s s.head i
  · exact ⟨rfl, rfl⟩

theorem sameOpen_noteLambda (b : Bracketed) (s : ScanState) (i : Nat) :
    s.SameOpen (s.noteLambda b i).1 := by
  unfold noteLambda
  split
  · dsimp only
    split <;> exact ⟨rfl, rfl⟩
  · exact ⟨rfl, rfl⟩

theorem sameOpen_wordCuts (b : Bracketed) (s : ScanState) (i : Nat) (text : String) :
    s.SameOpen (s.wordCuts b i text).1 := by
  unfold wordCuts
  dsimp only
  repeat' split
  all_goals exact ⟨rfl, rfl⟩

end ScanState

/-! ## The walk beside the table -/

/-- What the walk remembers at index `i` agrees with the table. -/
structure Aligned (b : Bracketed) (i : Nat) (s : ScanState) : Prop where
  le_size : i ≤ b.size
  openers_eq : s.openers = b.pairs.openAt i
  /-- Scopes are opened by curly brackets. -/
  curly : ∀ scope ∈ s.scopes, b.opensAt scope.opener .curly

theorem aligned_start (b : Bracketed) : Aligned b 0 {} where
  le_size := Nat.zero_le _
  openers_eq := rfl
  curly := by simp

namespace Aligned

variable {b : Bracketed} {i j : Nat} {s s' : ScanState}

theorem of_sameOpen (h : Aligned b i s) (hs : s.SameOpen s') (hj : j ≤ b.size)
    (hopen : b.pairs.openAt j = b.pairs.openAt i) : Aligned b j s' where
  le_size := hj
  openers_eq := by rw [ScanState.openers_congr hs.1 hs.2, hopen, h.openers_eq]
  curly := by rw [hs.1]; exact h.curly

/-- What a closer finds: its opener is that of the innermost group, or it is a curly bracket and
its opener that of the innermost scope. -/
theorem innermost_of_closer (h : Aligned b i s) (hb : b.Nested) {o : Nat} {k : Bracket}
    (hp : b.pairs.partner? i = some o) (hc : b.closesAt i k) :
    (∃ group rest, s.groups = group :: rest ∧ group.opener = o ∧
      ({ s with groups := rest } : ScanState).openers = b.pairs.openAt (i + 1)) ∨
    (s.groups = [] ∧ k = .curly ∧ ∃ scope outer, s.scopes = scope :: outer ∧
      scope.opener = o ∧
      ({ s with scopes := outer, groups := ScanState.resumedGroups scope } : ScanState).openers =
        b.pairs.openAt (i + 1)) := by
  have hlast : s.openers = b.pairs.openAt (i + 1) ++ [o] := by
    rw [h.openers_eq]
    exact hb.openAt_closer hp (hb.gt_of_closesAt hp hc)
  rcases ScanState.innermost hlast with hgroup | ⟨htop, scope, outer, hscopes, ho, hrest⟩
  · exact Or.inl hgroup
  · have hcurly : b.opensAt o .curly := by
      rw [← ho]
      exact h.curly scope (by rw [hscopes]; exact List.mem_cons_self)
    have hk : k = .curly := Bracketed.opensAt_unique (hb.opensAt_of_closesAt hp hc) hcurly
    exact Or.inr ⟨htop, hk, scope, outer, hscopes, ho, hrest⟩

/-! ### Opening -/

theorem openGroup (h : Aligned b i s) (hb : b.Nested) {k : Bracket} (ho : b.opensAt i k)
    (hi : i < b.size) (constant : Bool) : Aligned b (i + 1) (s.openGroup b i constant) := by
  unfold ScanState.openGroup
  cases hp : b.pairs.partner? i with
  | none => exact h.of_sameOpen ⟨rfl, rfl⟩ hi (hb.openAt_unpaired hp)
  | some c =>
      refine ⟨hi, ?_, h.curly⟩
      rw [hb.openAt_opener hp (hb.lt_of_opensAt hp ho), ← h.openers_eq]
      exact ScanState.openers_group s _ ⟨i, _⟩ rfl rfl

theorem enterLambda (h : Aligned b i s) (hb : b.Nested) {c : Nat} {body : Scope}
    (ho : b.opensAt i .curly) (hp : b.pairs.partner? i = some c) (hi : i < b.size)
    (hbody : body.opener = i) : Aligned b (i + 1) (s.enterLambda body) := by
  refine ⟨hi, ?_, ?_⟩
  · rw [hb.openAt_opener hp (hb.lt_of_opensAt hp ho), ← h.openers_eq, ← hbody]
    exact ScanState.openers_lambda s _ { body with resume := some ⟨s.groups, s.head⟩ }
      ⟨s.groups, s.head⟩ rfl rfl rfl rfl
  · intro scope hscope
    rcases List.mem_cons.1 hscope with rfl | hscope
    · rw [← hbody] at ho
      exact ho
    · exact h.curly scope hscope

theorem enterScope (h : Aligned b i s) (hb : b.Nested) {c : Nat} (ho : b.opensAt i .curly)
    (hp : b.pairs.partner? i = some c) (hi : i < b.size) (htop : s.groups = []) (kind : ScopeKind)
    (head : Head) : Aligned b (i + 1) (s.enterScope i kind head) := by
  refine ⟨hi, ?_, ?_⟩
  · rw [hb.openAt_opener hp (hb.lt_of_opensAt hp ho), ← h.openers_eq]
    exact ScanState.openers_scope s (s.enterScope i kind head) _ rfl htop rfl htop
  · intro scope hscope
    rcases List.mem_cons.1 hscope with rfl | hscope
    · exact ho
    · exact h.curly scope hscope

theorem openBrace (h : Aligned b i s) (hb : b.Nested) (ho : b.opensAt i .curly)
    (hi : i < b.size) : Aligned b (i + 1) (s.openBrace b i).1 := by
  unfold ScanState.openBrace
  cases hp : b.pairs.partner? i with
  | none => exact h.of_sameOpen ⟨rfl, rfl⟩ hi (hb.openAt_unpaired hp)
  | some c =>
      simp only [Option.isNone_some, Bool.false_eq_true, if_false]
      split
      next body hbody =>
        have hopener : body.opener = i := by
          have := List.find?_some hbody
          simpa using this
        exact h.enterLambda hb ho hp hi hopener
      next =>
        split
        next => exact h.openGroup hb ho hi false
        next htop =>
          have htop : s.groups = [] := by simpa [ScanState.atTop] using htop
          split
          next => exact h.openGroup hb ho hi _
          next kind hkind => exact h.enterScope hb ho hp hi htop kind _

/-! ### Closing -/

theorem closeGroup (h : Aligned b i s) {o : Nat} {group : Group} {rest : List Group}
    (hp : b.pairs.partner? i = some o) (hi : i < b.size) (hgroups : s.groups = group :: rest)
    (ho : group.opener = o)
    (hrest : ({ s with groups := rest } : ScanState).openers = b.pairs.openAt (i + 1)) :
    s.closeGroup b i = { s with groups := rest } ∧ Aligned b (i + 1) (s.closeGroup b i) := by
  have hclose : s.closeGroup b i = { s with groups := rest } := by
    simp [ScanState.closeGroup, hp, hgroups, ho]
  rw [hclose]
  exact ⟨rfl, hi, hrest, h.curly⟩

theorem closeBrace_scope (h : Aligned b i s) {o : Nat} {scope : Scope} {outer : List Scope}
    (hp : b.pairs.partner? i = some o) (hi : i < b.size) (htop : s.groups = [])
    (hscopes : s.scopes = scope :: outer) (ho : scope.opener = o)
    (hrest : ({ s with scopes := outer, groups := ScanState.resumedGroups scope } :
      ScanState).openers = b.pairs.openAt (i + 1)) :
    ((s.closeBrace b i).scopes = outer ∧
        (s.closeBrace b i).groups = ScanState.resumedGroups scope) ∧
      Aligned b (i + 1) (s.closeBrace b i) := by
  have hclose : (s.closeBrace b i).scopes = outer ∧
      (s.closeBrace b i).groups = ScanState.resumedGroups scope := by
    cases hresume : scope.resume <;>
      simp [ScanState.closeBrace, hp, htop, ScanState.closeScope, hscopes, ho, hresume,
        ScanState.complete, ScanState.resumedGroups]
  refine ⟨hclose, hi, ?_, ?_⟩
  · rw [← hrest]
    exact ScanState.openers_congr hclose.1 hclose.2
  · rw [hclose.1]
    intro scope' hscope'
    exact h.curly scope' (by rw [hscopes]; exact List.mem_cons_of_mem _ hscope')

/-- A closer takes away what it closes, whatever it meets. -/
theorem closeBrace (h : Aligned b i s) (hb : b.Nested) (hc : b.closesAt i .curly)
    (hi : i < b.size) : Aligned b (i + 1) (s.closeBrace b i) := by
  cases hp : b.pairs.partner? i with
  | none =>
      have hsame : s.SameOpen (s.closeBrace b i) := by
        simp only [ScanState.closeBrace, hp]
        split <;> exact ⟨rfl, rfl⟩
      exact h.of_sameOpen hsame hi (hb.openAt_unpaired hp)
  | some o =>
      rcases h.innermost_of_closer hb hp hc with
        ⟨group, rest, hgroups, ho, hrest⟩ | ⟨htop, -, scope, outer, hscopes, ho, hrest⟩
      · have hclose : s.closeBrace b i = s.closeGroup b i := by
          simp [ScanState.closeBrace, hp, hgroups, ho]
        rw [hclose]
        exact (h.closeGroup hp hi hgroups ho hrest).2
      · exact (h.closeBrace_scope hp hi htop hscopes ho hrest).2

theorem closeRoundOrSquare (h : Aligned b i s) (hb : b.Nested) {k : Bracket}
    (hc : b.closesAt i k) (hk : k ≠ .curly) (hi : i < b.size) :
    Aligned b (i + 1) (s.closeGroup b i) := by
  cases hp : b.pairs.partner? i with
  | none =>
      refine h.of_sameOpen ?_ hi (hb.openAt_unpaired hp)
      simp only [ScanState.closeGroup, hp]
      exact ⟨rfl, rfl⟩
  | some o =>
      rcases h.innermost_of_closer hb hp hc with
        ⟨group, rest, hgroups, ho, hrest⟩ | ⟨-, hcurly, -⟩
      · exact (h.closeGroup hp hi hgroups ho hrest).2
      · exact absurd hcurly hk

end Aligned

/-! ## Reading past labels -/

namespace Bracketed.Nested

variable {b : Bracketed} {j k p : Nat} {os : List Nat}

/-- Where a curly bracket is innermost, no round or square bracket closes that is open. -/
theorem partner?_of_innermost_curly (hb : b.Nested) (hp : b.opensAt p .curly)
    (hj : b.pairs.openAt j = os ++ [p]) {kind : Bracket} (hc : b.closesAt j kind)
    (hkind : kind ≠ .curly) : b.pairs.partner? j = none := by
  cases hpj : b.pairs.partner? j with
  | none => rfl
  | some o =>
      have hlast := hb.openAt_closer hpj (hb.gt_of_closesAt hpj hc)
      rw [hj] at hlast
      have ho : p = o := by
        obtain ⟨-, ho⟩ := List.append_inj' hlast rfl
        simpa using ho
      have := hb.opensAt_of_closesAt hpj hc
      rw [← ho] at this
      exact absurd (opensAt_unique this hp) hkind

theorem openAt_caseEnd (hb : b.Nested) (hp : b.opensAt p .curly)
    (hj : b.pairs.openAt j = os ++ [p]) (h : b.caseEnd? j = some k) :
    b.pairs.openAt (k + 1) = os ++ [p] := by
  fun_induction caseEnd? b j with
  | case1 j hsize hcolon =>
      cases h
      have hnone := hb.partner?_of_punctAt hcolon (by decide)
      rw [hb.openAt_unpaired hnone, hj]
  | case2 j hsize hcolon c hc ih =>
      have hpartner := partner?_of_closer? (closer?_of_operandEnd? hc)
      refine ih ?_ h
      rw [hb.openAt_group hpartner (lt_of_operandEnd? hc), hj]
  | case3 j hsize hcolon hc hstop => cases h
  | case4 j hsize hcolon hc hstop ih =>
      have hnone : b.pairs.partner? j = none := by
        cases hpj : b.pairs.partner? j with
        | none => rfl
        | some l =>
            -- a round or square opener would have been a group, a curly bracket a stop
            obtain ⟨kind, ho | hcl⟩ := hb.bracket_of_partner hpj
            · by_cases hkind : kind = .curly
              · rw [hkind] at ho
                exact absurd (punctInAt_of_punctAt (punctAt_of_opensAt ho)
                  (by simp [Bracket.opener])) hstop
              · rw [operandEnd?_of_opensAt ho hkind, hb.closer?_of_opensAt hpj ho] at hc
                cases hc
            · by_cases hkind : kind = .curly
              · rw [hkind] at hcl
                exact absurd (punctInAt_of_punctAt (punctAt_of_closesAt hcl)
                  (by simp [Bracket.closer])) hstop
              · rw [hb.partner?_of_innermost_curly hp hj hcl hkind] at hpj
                exact hpj.symm
      refine ih ?_ h
      rw [hb.openAt_unpaired hnone, hj]
  | case5 => cases h

theorem openAt_labelEnd {i : Nat} (hb : b.Nested) (hp : b.opensAt p .curly)
    (hword : b.pairs.partner? i = none) (hi : b.pairs.openAt i = os ++ [p])
    (h : b.labelEnd? i = some k) : b.pairs.openAt (k + 1) = os ++ [p] := by
  have hnext : b.pairs.openAt (i + 1) = os ++ [p] := by rw [hb.openAt_unpaired hword, hi]
  unfold labelEnd? at h
  split at h
  next => exact hb.openAt_caseEnd hp hnext h
  next =>
    split at h
    next hlabel =>
      cases h
      have hcolon : b.punctAt (i + 1) ":" = true := (Bool.and_eq_true _ _ ▸ hlabel).2
      rw [hb.openAt_unpaired (hb.partner?_of_punctAt hcolon (by decide)), hnext]
    next => cases h

end Bracketed.Nested

namespace Bracketed

variable {b : Bracketed} {i k : Nat}

theorem lt_size_of_punctAt {s : String} (h : b.punctAt i s = true) : i < b.size := by
  obtain ⟨t, ht, -⟩ := punctAt_iff.1 h
  exact (Array.getElem?_eq_some_iff.1 ht).1

theorem punctAt_of_caseEnd? {j : Nat} (h : b.caseEnd? j = some k) : b.punctAt k ":" = true := by
  fun_induction caseEnd? b j with
  | case1 j hsize hcolon =>
      cases h
      exact hcolon
  | case2 j hsize hcolon c hc ih => exact ih h
  | case3 => cases h
  | case4 j hsize hcolon hc hstop ih => exact ih h
  | case5 => cases h

theorem punctAt_of_labelEnd? (h : b.labelEnd? i = some k) : b.punctAt k ":" = true := by
  unfold labelEnd? at h
  split at h
  next => exact punctAt_of_caseEnd? h
  next =>
    split at h
    next hlabel =>
      cases h
      exact (Bool.and_eq_true _ _ ▸ hlabel).2
    next => cases h

end Bracketed

/-! ## The step -/

namespace Aligned

variable {b : Bracketed} {i : Nat} {s : ScanState}

theorem openAt_labelEnd (h : Aligned b i s) (hb : b.Nested) (hword : b.pairs.partner? i = none)
    {colon : Nat} (hlabel : s.labelEnd? b i = some colon) :
    b.pairs.openAt (colon + 1) = b.pairs.openAt i := by
  have hcode : b.labelEnd? i = some colon ∧ s.groups = [] ∧ s.scope.kind.holdsCode := by
    unfold ScanState.labelEnd? at hlabel
    split at hlabel
    next hstart =>
      simp only [ScanState.startsStatement, ScanState.atTop, Bool.and_eq_true,
        List.isEmpty_iff] at hstart
      exact ⟨hlabel, hstart.1.2, hstart.2⟩
    next => cases hlabel
  obtain ⟨hlabel, htop, hcode⟩ := hcode
  -- a scope of code is no file, so some scope is innermost
  cases hs : s.scopes with
  | nil => simp [ScanState.scope, hs, Scope.file, ScopeKind.holdsCode] at hcode
  | cons scope outer =>
      have hlast : b.pairs.openAt i =
          (outer.reverse.flatMap Scope.openers ++
            (ScanState.resumedGroups scope).reverse.map (·.opener)) ++ [scope.opener] := by
        rw [← h.openers_eq]
        simp [ScanState.openers, htop, hs, Scope.openers, ScanState.resumedGroups]
      have hcurly : b.opensAt scope.opener .curly :=
        h.curly scope (by rw [hs]; exact List.mem_cons_self)
      rw [hb.openAt_labelEnd hcurly hword hlast hlabel, hlast]

theorem step_word (h : Aligned b i s) (hb : b.Nested) (hword : b.pairs.partner? i = none)
    (hi : i < b.size) (text : String) :
    Aligned b (s.wordStep b i text).next (s.wordStep b i text).state := by
  unfold ScanState.wordStep
  split
  next haccess =>
    have hcolon : b.punctAt (i + 1) ":" = true := (Bool.and_eq_true _ _ ▸ haccess).2
    refine h.of_sameOpen ⟨rfl, rfl⟩ (Bracketed.lt_size_of_punctAt hcolon) ?_
    rw [Move.behind, hb.openAt_unpaired (hb.partner?_of_punctAt hcolon (by decide)),
      hb.openAt_unpaired hword]
  next =>
    split
    next colon hlabel =>
      have hcolon : b.punctAt colon ":" = true := by
        unfold ScanState.labelEnd? at hlabel
        split at hlabel
        · exact Bracketed.punctAt_of_labelEnd? hlabel
        · cases hlabel
      exact h.of_sameOpen ⟨rfl, rfl⟩ (Bracketed.lt_size_of_punctAt hcolon)
        (h.openAt_labelEnd hb hword hlabel)
    next =>
      exact h.of_sameOpen (ScanState.sameOpen_wordCuts b s i text) hi
        (hb.openAt_unpaired hword)

theorem step_square (h : Aligned b i s) (hb : b.Nested) (ho : b.opensAt i .square)
    (hi : i < b.size) : Aligned b (s.squareStep b i).next (s.squareStep b i).state := by
  unfold ScanState.squareStep
  split
  next close hclose =>
    have hpartner := Bracketed.partner?_of_closer? (Bracketed.closer?_of_attributeEnd? hclose)
    exact h.of_sameOpen ⟨rfl, rfl⟩ (hb.partner_lt hpartner)
      (hb.openAt_group hpartner (Bracketed.lt_of_attributeEnd? hclose))
  next =>
    have hnote : Aligned b i (s.noteLambda b i).1 :=
      h.of_sameOpen (ScanState.sameOpen_noteLambda b s i) h.le_size rfl
    exact hnote.openGroup hb ho hi _

theorem step_punctuator (h : Aligned b i s) (hb : b.Nested) {t : Lexeme} (ht : b.at? i = some t)
    (hkind : t.kind = .punctuator) (hsquare : t.text ≠ "[") (hi : i < b.size) :
    Aligned b (i + 1) (s.punctuatorStep b i t.text).1 := by
  have hpunct : b.punctAt i t.text = true :=
    Bracketed.punctAt_iff.2 ⟨t, ht, by simp [Lexeme.isPunct, hkind]⟩
  have hplain : ∀ s' : ScanState, s.SameOpen s' → b.pairs.partner? i = none →
      Aligned b (i + 1) s' :=
    fun s' hs hnone => h.of_sameOpen hs hi (hb.openAt_unpaired hnone)
  unfold ScanState.punctuatorStep
  by_cases hround : t.text = "("
  · rw [hround] at hpunct
    simp only [hround, beq_self_eq_true, if_true]
    exact h.openGroup hb (Bracketed.opensAt_of_punctAt (k := .round) hpunct) hi false
  by_cases hcloseRound : t.text = ")"
  · rw [hcloseRound] at hpunct
    have hc : b.closesAt i .round := Bracketed.closesAt_of_punctAt hpunct
    simpa [hcloseRound] using h.closeRoundOrSquare hb hc (by decide) hi
  by_cases hcloseSquare : t.text = "]"
  · rw [hcloseSquare] at hpunct
    have hc : b.closesAt i .square := Bracketed.closesAt_of_punctAt hpunct
    simpa [hcloseSquare] using h.closeRoundOrSquare hb hc (by decide) hi
  by_cases hopenCurly : t.text = "\x7b"
  · rw [hopenCurly] at hpunct
    have ho : b.opensAt i .curly := Bracketed.opensAt_of_punctAt hpunct
    simpa [hopenCurly] using h.openBrace hb ho hi
  by_cases hcloseCurly : t.text = "\x7d"
  · rw [hcloseCurly] at hpunct
    have hc : b.closesAt i .curly := Bracketed.closesAt_of_punctAt hpunct
    simpa [hcloseCurly] using h.closeBrace hb hc hi
  have hnone : b.pairs.partner? i = none := by
    refine hb.partner?_eq_none ht fun hbracket => ?_
    simp [hround, hsquare, hopenCurly, hcloseRound, hcloseSquare, hcloseCurly] at hbracket
  simp only [hround, hcloseRound, hcloseSquare, hopenCurly, hcloseCurly, Bool.or_eq_true,
    beq_iff_eq, or_self, if_false]
  split
  next => exact hplain _ (ScanState.sameOpen_endStatement b s i) hnone
  next => exact hplain s ⟨rfl, rfl⟩ hnone

theorem step (h : Aligned b i s) (hb : b.Nested) (hi : i < b.lexemes.size) :
    Aligned b (s.step b i b.lexemes[i]).next (s.step b i b.lexemes[i]).state := by
  have ht : b.at? i = some b.lexemes[i] := Array.getElem?_eq_getElem hi
  generalize b.lexemes[i] = t at ht
  have hnone : t.kind ≠ .punctuator → b.pairs.partner? i = none := fun hkind =>
    hb.partner?_eq_none ht fun hbracket => hkind hbracket.1
  unfold ScanState.step
  cases hkind : t.kind with
  | number =>
      exact h.of_sameOpen ⟨rfl, rfl⟩ hi (hb.openAt_unpaired (hnone (by simp [hkind])))
  | word => exact h.step_word hb (hnone (by simp [hkind])) hi t.text
  | punctuator =>
      dsimp only
      split
      next hsquare =>
        have hpunct : b.punctAt i "[" = true :=
          Bracketed.punctAt_iff.2 ⟨t, ht, by simpa [Lexeme.isPunct, hkind] using hsquare⟩
        exact h.step_square hb (Bracketed.opensAt_of_punctAt (k := .square) hpunct) hi
      next hsquare => exact h.step_punctuator hb ht hkind (by simpa using hsquare) hi
  | string | character | directive =>
      exact h.of_sameOpen ⟨rfl, rfl⟩ hi (hb.openAt_unpaired (hnone (by simp [hkind])))

end Aligned

theorem Boundary.aligned {b : Bracketed} (hb : b.Nested) {i : Nat} {s : ScanState}
    (h : Boundary b i s) : Aligned b i s := by
  induction h with
  | start => exact aligned_start b
  | step h hi ih => exact ih.step hb hi

/-! ## What closers meet -/

/-- At the closer at index `i`, whose opener stands at `o`, one thing is closed: the innermost
group, which `o` opened, or, if no group is open, the innermost scope, which `o` opened. -/
def ScanState.ClosesOne (b : Bracketed) (s : ScanState) (i o : Nat) (s' : ScanState) : Prop :=
  (∃ group rest, s.groups = group :: rest ∧ group.opener = o ∧ s' = { s with groups := rest }) ∨
  (s.groups = [] ∧ b.punctAt i "\x7d" = true ∧ ∃ scope outer, s.scopes = scope :: outer ∧
    scope.opener = o ∧ s'.scopes = outer ∧ s'.groups = ScanState.resumedGroups scope)

namespace Aligned

variable {b : Bracketed} {i o : Nat} {s : ScanState}

theorem step_state_of_closesAt {t : Lexeme} {k : Bracket} (ht : b.at? i = some t)
    (hc : b.closesAt i k) :
    (s.step b i t).state = if k = .curly then s.closeBrace b i else s.closeGroup b i := by
  obtain ⟨u, hu, hp⟩ := Bracketed.punctAt_iff.1 (Bracketed.punctAt_of_closesAt hc)
  rw [ht] at hu
  cases hu
  simp only [Lexeme.isPunct, Bool.and_eq_true, beq_iff_eq] at hp
  cases k <;> simp [ScanState.step, hp.1, hp.2, Bracket.closer, ScanState.punctuatorStep, Move.one]

theorem closesOne (h : Aligned b i s) (hb : b.Nested) (hi : i < b.lexemes.size)
    (hp : b.pairs.partner? i = some o) (hoi : o < i) :
    s.ClosesOne b i o (s.step b i b.lexemes[i]).state := by
  obtain ⟨k, -, hc⟩ := hb.matched (hb.partner_symm hp) hoi
  have ht : b.at? i = some b.lexemes[i] := Array.getElem?_eq_getElem hi
  rw [step_state_of_closesAt ht hc]
  rcases h.innermost_of_closer hb hp hc with
    ⟨group, rest, hgroups, ho, hrest⟩ | ⟨htop, hk, scope, outer, hscopes, ho, hrest⟩
  · have hgroup := (h.closeGroup hp hi hgroups ho hrest).1
    have hbrace : s.closeBrace b i = s.closeGroup b i := by
      simp [ScanState.closeBrace, hp, hgroups, ho]
    refine Or.inl ⟨group, rest, hgroups, ho, ?_⟩
    rw [hbrace, hgroup, ite_self]
  · obtain ⟨hclosed, -⟩ := h.closeBrace_scope hp hi htop hscopes ho hrest
    rw [if_pos hk]
    rw [hk] at hc
    exact Or.inr ⟨htop, Bracketed.punctAt_of_closesAt hc, scope, outer, hscopes, ho, hclosed⟩

theorem empty_of_openers (h : s.openers = []) : s.scopes = [] ∧ s.groups = [] := by
  simp only [ScanState.openers, List.append_eq_nil_iff, List.flatMap_eq_nil_iff,
    List.map_eq_nil_iff, List.reverse_eq_nil_iff, List.mem_reverse] at h
  refine ⟨List.eq_nil_iff_forall_not_mem.2 fun scope hscope => ?_, h.2⟩
  simpa [Scope.openers] using h.1 scope hscope

end Aligned

/-- The walk over a text, whatever its brackets: at every boundary the openers it remembers are,
in strictly increasing order, exactly the paired openers before the boundary whose closers are not
passed.  So a closer with a partner closes one thing, the one its partner opened; no curly closer
with a partner meets an expression it does not belong to or fails to find its scope; and the walk
ends, behind the last token, with nothing open. -/
theorem walk_remembers_open_brackets (text : String) :
    (∀ (i : Nat) (s : ScanState), Boundary (.ofText text) i s →
      i ≤ (Bracketed.ofText text).size ∧
      s.openers.Pairwise (· < ·) ∧
      (∀ o, o ∈ s.openers ↔
        o < i ∧ ∃ c, (Bracketed.ofText text).pairs.partner? o = some c ∧ i ≤ c) ∧
      ∀ (o : Nat) (hi : i < (Bracketed.ofText text).lexemes.size),
        (Bracketed.ofText text).pairs.partner? i = some o → o < i →
          s.ClosesOne (.ofText text) i o
            (s.step (.ofText text) i (Bracketed.ofText text).lexemes[i]).state ∧
          (s.groups ≠ [] → s.groups.any (·.opener = o) = true) ∧
          (s.groups.any (·.opener = o) = true ∨ s.scopes.any (·.opener = o) = true)) ∧
    (∃ s, Boundary (.ofText text) (Bracketed.ofText text).size s) ∧
    ∀ s, Boundary (.ofText text) (Bracketed.ofText text).size s → s.scopes = [] ∧ s.groups = [] := by
  have hb : (Bracketed.ofText text).Nested := Bracketed.nested_ofLexemes _
  refine ⟨?_, ?_, ?_⟩
  · intro i s h
    have ha := h.aligned hb
    refine ⟨ha.le_size, ?_, ?_, ?_⟩
    · rw [ha.openers_eq]
      exact Pairing.openAt_sorted _ i
    · intro o
      rw [ha.openers_eq]
      exact Pairing.mem_openAt
    · intro o hi hp hoi
      have hcloses := ha.closesOne hb hi hp hoi
      refine ⟨hcloses, ?_⟩
      rcases hcloses with ⟨group, rest, hgroups, ho, -⟩ | ⟨htop, -, scope, outer, hscopes, ho, -⟩
      · exact ⟨fun _ => by simp [hgroups, ho], Or.inl (by simp [hgroups, ho])⟩
      · exact ⟨fun hne => absurd htop hne, Or.inr (by simp [hscopes, ho])⟩
  · obtain ⟨j, s, h, hj⟩ := (Boundary.start (b := Bracketed.ofText text)).exists_end
    have hle := (h.aligned hb).le_size
    have : j = (Bracketed.ofText text).size := Nat.le_antisymm hle hj
    exact ⟨s, this ▸ h⟩
  · intro s h
    refine Aligned.empty_of_openers ?_
    rw [(h.aligned hb).openers_eq]
    exact hb.openAt_size

end CxxFloor
