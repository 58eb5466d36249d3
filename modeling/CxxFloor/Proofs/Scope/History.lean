/-
# What a walk has come through

The scopes that are open at a boundary, and what is known there of records, are
told by the boundaries before it and by the table of brackets.  A scope is open
exactly from its brace to the partner of its brace (`Boundary.mem_scopes_iff`);
a record is completed once the braces of a definition of its name are closed
(`Boundary.mem_completed_iff`); and until then it is known to be declared once
a statement declared it outside its own definition
(`Boundary.mem_forward_iff`).
-/
import CxxFloor.Proofs.Scope.Records

namespace CxxFloor

/-- The brace where the scope stands opens it. -/
def Bracketed.Opens (b : Bracketed) (scope : Scope) : Prop :=
  ∃ s, Boundary b scope.opener s ∧ b.punctAt scope.opener "\x7b" = true ∧
    (s.openBrace b scope.opener).1.scopes = scope :: s.scopes

namespace Bracketed

def HasOpen (b : Bracketed) (i : Nat) (scope : Scope) : Prop :=
  b.Opens scope ∧ scope.opener ∈ b.pairs.openAt i

/-- The braces of a definition of the record are closed before index `i`. -/
def DefinedBefore (b : Bracketed) (i : Nat) (name : String) : Prop :=
  ∃ scope, b.Opens scope ∧ scope.Defines name ∧
    ∃ c, b.pairs.partner? scope.opener = some c ∧ scope.opener < c ∧ c < i

/-- A statement before index `i` declares the record, outside every definition of it. -/
def DeclaredBefore (b : Bracketed) (i : Nat) (name : String) : Prop :=
  ∃ p s, p < i ∧ Boundary b p s ∧ s.Declares b p name ∧
    ∀ scope, b.HasOpen p scope → ¬ scope.Defines name

end Bracketed

/-! ## Scopes -/

theorem ScanState.step_openBrace {b : Bracketed} {i : Nat} {s : ScanState} {t : Lexeme}
    (ht : t.isPunct "\x7b" = true) :
    s.step b i t = .one (s.openBrace b i).1 (s.openBrace b i).2 := by
  simp only [Lexeme.isPunct, Bool.and_eq_true, beq_iff_eq] at ht
  simp [ScanState.step, ScanState.punctuatorStep, ht.1, ht.2]

namespace Bracketed.Opens

variable {b : Bracketed} {scope scope' : Scope}

theorem unique (h : b.Opens scope) (h' : b.Opens scope') (ho : scope.opener = scope'.opener) :
    scope = scope' := by
  obtain ⟨s, hs, -, hscopes⟩ := h
  obtain ⟨t, ht, -, hscopes'⟩ := h'
  rw [ho] at hs hscopes
  obtain rfl := hs.unique ht
  rw [hscopes] at hscopes'
  exact (List.cons.inj hscopes').1

/-- The step at the brace leads into its scope. -/
theorem step (h : b.Opens scope) {s : ScanState} (hs : Boundary b scope.opener s)
    (hi : scope.opener < b.lexemes.size) :
    (s.step b scope.opener b.lexemes[scope.opener]).next = scope.opener + 1 ∧
      (s.step b scope.opener b.lexemes[scope.opener]).state.scopes = scope :: s.scopes := by
  obtain ⟨t, ht, hbrace, hscopes⟩ := h
  obtain rfl := hs.unique ht
  obtain ⟨u, hu, hpunct⟩ := punctAt_iff.1 hbrace
  have hu : b.lexemes[scope.opener] = u :=
    Option.some.inj ((Array.getElem?_eq_getElem hi).symm.trans hu)
  rw [hu, ScanState.step_openBrace hpunct]
  exact ⟨rfl, hscopes⟩

end Bracketed.Opens

namespace Boundary

variable {b : Bracketed} {i : Nat} {s : ScanState}

theorem opens_of_mem (h : Boundary b i s) (hb : b.Nested) :
    ∀ scope ∈ s.scopes, b.Opens scope := by
  induction h with
  | start =>
      intro scope hscope
      exact absurd hscope List.not_mem_nil
  | @step i s h hi ih =>
      intro scope hscope
      rcases (h.aligned hb).recordStep hb hi with
        ⟨new, hopener, hbrace, hopen, hscopes, -, -⟩ | ⟨closed, outer, -, -, hinner, hscopes, -, -⟩ |
          ⟨hscopes, -, -⟩
      · rw [hscopes] at hscope
        rcases List.mem_cons.1 hscope with rfl | hscope
        · subst hopener
          exact ⟨s, h, hbrace, hopen⟩
        · exact ih scope hscope
      · rw [hscopes] at hscope
        exact ih scope (hinner ▸ List.mem_cons_of_mem _ hscope)
      · exact ih scope (hscopes ▸ hscope)

theorem mem_of_opens (h : Boundary b i s) (hb : b.Nested) {scope : Scope} (hscope : b.Opens scope)
    {c : Nat} (hc : b.pairs.partner? scope.opener = some c) (hlt : scope.opener < i)
    (hle : i ≤ c) : scope ∈ s.scopes := by
  induction h with
  | start => omega
  | @step i s h hi ih =>
      have hlater := (s.step b i b.lexemes[i]).later
      rcases Nat.lt_trichotomy scope.opener i with hbefore | heq | hbehind
      · have hmem := ih hbefore (by omega)
        rcases (h.aligned hb).recordStep hb hi with
          ⟨new, -, -, -, hscopes, -, -⟩ | ⟨closed, outer, -, hpartner, hinner, hscopes, -, -⟩ |
            ⟨hscopes, -, -⟩
        · rw [hscopes]
          exact List.mem_cons_of_mem _ hmem
        · rw [hinner] at hmem
          rcases List.mem_cons.1 hmem with rfl | hmem
          · have hclosed := hb.partner_symm hpartner
            rw [hc] at hclosed
            cases hclosed
            omega
          · exact hscopes ▸ hmem
        · exact hscopes ▸ hmem
      · subst heq
        rw [(hscope.step h hi).2]
        exact List.mem_cons_self
      · obtain ⟨t, ht, -⟩ := hscope
        have := h.next_le ht hbehind hi
        omega

theorem mem_scopes_iff (h : Boundary b i s) (hb : b.Nested) {scope : Scope} :
    scope ∈ s.scopes ↔ b.HasOpen i scope := by
  constructor
  · intro hscope
    refine ⟨h.opens_of_mem hb scope hscope, ?_⟩
    rw [← (h.aligned hb).openers_eq]
    refine List.mem_append_left _ (List.mem_flatMap.2 ⟨scope, List.mem_reverse.2 hscope, ?_⟩)
    exact List.mem_append_right _ List.mem_cons_self
  · rintro ⟨hopens, hopen⟩
    obtain ⟨hlt, c, hc, hle⟩ := Pairing.mem_openAt.1 hopen
    exact h.mem_of_opens hb hopens hc hlt hle

/-- A scope whose brace is closed within a step is closed by the step. -/
theorem closed_by_step (h : Boundary b i s) (hb : b.Nested) (hi : i < b.lexemes.size)
    {scope : Scope} (hopens : b.Opens scope) {c : Nat}
    (hc : b.pairs.partner? scope.opener = some c) (hoc : scope.opener < c) (hic : i ≤ c)
    (hlt : c < (s.step b i b.lexemes[i]).next) :
    scope ∈ s.scopes ∧ scope ∉ (s.step b i b.lexemes[i]).state.scopes := by
  have hbefore : scope.opener < i := by
    rcases Nat.lt_trichotomy scope.opener i with hbefore | heq | hbehind
    · exact hbefore
    · subst heq
      have := (hopens.step h hi).1
      omega
    · obtain ⟨t, ht, -⟩ := hopens
      have := h.next_le ht hbehind hi
      omega
  refine ⟨h.mem_of_opens hb hopens hc hbefore hic, fun hmem => ?_⟩
  obtain ⟨-, c', hc', hle⟩ := Pairing.mem_openAt.1 (((h.step hi).mem_scopes_iff hb).1 hmem).2
  rw [hc] at hc'
  cases hc'
  omega

/-! ## Records -/

theorem mem_completed_iff (h : Boundary b i s) (hb : b.Nested) {name : String} :
    name ∈ s.completed ↔ b.DefinedBefore i name := by
  induction h with
  | start => simp [Bracketed.DefinedBefore]
  | @step i s h hi ih =>
      have hlater := (s.step b i b.lexemes[i]).later
      have hstep := (h.aligned hb).recordStep hb hi
      constructor
      · intro hname
        rcases Classical.em (name ∈ s.completed) with hold | hnew
        · obtain ⟨scope, hopens, hdefines, c, hc, hoc, hlt⟩ := ih.1 hold
          exact ⟨scope, hopens, hdefines, c, hc, hoc, by omega⟩
        · cases hstep with
          | opened _ _ _ _ _ hcompleted _ => exact absurd (hcompleted ▸ hname) hnew
          | closed scope outer hbrace hpartner hinner _ hcompleted _ =>
              have hdefines := ((hcompleted name).1 hname).resolve_right hnew
              have hmem : scope ∈ s.scopes := hinner ▸ List.mem_cons_self
              have hc : b.closesAt i .curly := Bracketed.closesAt_of_punctAt hbrace
              exact ⟨scope, h.opens_of_mem hb scope hmem, hdefines, i, hb.partner_symm hpartner,
                hb.gt_of_closesAt hpartner hc, hlater⟩
          | kept _ hcompleted _ => exact absurd (hcompleted ▸ hname) hnew
      · rintro ⟨scope, hopens, hdefines, c, hc, hoc, hlt⟩
        rcases Nat.lt_or_ge c i with hci | hic
        · exact hstep.mem_completed (ih.2 ⟨scope, hopens, hdefines, c, hc, hoc, hci⟩)
        · obtain ⟨hmem, hgone⟩ := h.closed_by_step hb hi hopens hc hoc hic hlt
          cases hstep with
          | opened _ _ _ _ hscopes _ _ =>
              exact absurd (hscopes ▸ List.mem_cons_of_mem _ hmem) hgone
          | closed closed outer _ _ hinner hscopes hcompleted _ =>
              rw [hinner] at hmem
              rcases List.mem_cons.1 hmem with rfl | hmem
              · exact (hcompleted name).2 (.inl hdefines)
              · exact absurd (hscopes ▸ hmem) hgone
          | kept hscopes _ _ => exact absurd (hscopes ▸ hmem) hgone

theorem recordIsOpen_eq_false (h : Boundary b i s) (hb : b.Nested) {name : String} :
    s.recordIsOpen name = false ↔ ∀ scope, b.HasOpen i scope → ¬ scope.Defines name := by
  simp only [ScanState.recordIsOpen, List.any_eq_false, h.mem_scopes_iff hb, Bool.and_eq_true,
    beq_iff_eq, Scope.Defines]

/-- Until a record is completed, it is known to be declared once a statement declared it outside
its own definition. -/
theorem mem_forward_iff (h : Boundary b i s) (hb : b.Nested) {name : String}
    (hname : name ∉ s.completed) :
    name ∈ s.forward ↔ b.DeclaredBefore i name := by
  induction h with
  | start => simp [Bracketed.DeclaredBefore]
  | @step i s h hi ih =>
      have hlater := (s.step b i b.lexemes[i]).later
      have hstep := (h.aligned hb).recordStep hb hi
      rw [hstep.mem_forward hname, ih fun hold => hname (hstep.mem_completed hold),
        h.recordIsOpen_eq_false hb]
      constructor
      · rintro (⟨p, t, hp, ht, hdeclares⟩ | hdeclares)
        · exact ⟨p, t, by omega, ht, hdeclares⟩
        · exact ⟨i, s, hlater, h, hdeclares⟩
      · rintro ⟨p, t, hp, ht, hdeclares⟩
        rcases Nat.lt_trichotomy p i with hlt | rfl | hgt
        · exact .inl ⟨p, t, hlt, ht, hdeclares⟩
        · obtain rfl := ht.unique h
          exact .inr hdeclares
        · have := h.next_le ht hgt hi
          omega

end Boundary

end CxxFloor
