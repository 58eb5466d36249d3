/-
# Incomplete records

A size query is told which records are incomplete where it stands.  These are
the records whose definition is open around the query with no body of a
function or lambda in between, and those that a statement declared while no
definition of them was open, as long as the braces of no definition are closed
(`incomplete_types_of_size_queries`).

What counts as a definition is decided by the head of the brace alone: the head
starts with a class key, and the first name behind the key is the record's.  So
a function is a definition of the record that its return type is spelled with,
key included, and a definition with a qualified name is one of its first
component.
-/
import CxxFloor.Proofs.Scope.Heads
import CxxFloor.Proofs.Scope.Origin

namespace CxxFloor

/-- A definition of the record is open around index `i`, and no body of a function or lambda is
open inside it. -/
def Bracketed.Surrounds (b : Bracketed) (i : Nat) (name : String) : Prop :=
  ∃ scope, b.HasOpen i scope ∧ scope.Defines name ∧
    ∀ inner, b.HasOpen i inner → scope.opener < inner.opener → inner.kind.isBody = false

/-! ## Innermost scopes -/

theorem mem_takeWhile_of_descending {α : Type} {f : α → Nat} {p : α → Bool} {l : List α}
    (h : l.Pairwise fun a a' => f a' < f a) {a : α} :
    a ∈ l.takeWhile p ↔ a ∈ l ∧ ∀ a' ∈ l, f a ≤ f a' → p a' = true := by
  induction l with
  | nil => simp
  | cons first rest ih =>
      obtain ⟨hfirst, hrest⟩ := List.pairwise_cons.1 h
      cases hp : p first with
      | false =>
          rw [List.takeWhile_cons_of_neg (by simp [hp])]
          constructor
          · intro hmem
            exact absurd hmem List.not_mem_nil
          · rintro ⟨hmem, hall⟩
            have hle : f a ≤ f first := by
              rcases List.mem_cons.1 hmem with rfl | hmem
              · exact Nat.le_refl _
              · exact Nat.le_of_lt (hfirst a hmem)
            rw [hall first List.mem_cons_self hle] at hp
            cases hp
      | true =>
          rw [List.takeWhile_cons_of_pos hp, List.mem_cons, ih hrest]
          constructor
          · rintro (rfl | ⟨hmem, hall⟩)
            · refine ⟨List.mem_cons_self, fun a' ha' hle => ?_⟩
              rcases List.mem_cons.1 ha' with rfl | ha'
              · exact hp
              · have := hfirst a' ha'
                omega
            · refine ⟨List.mem_cons_of_mem _ hmem, fun a' ha' hle => ?_⟩
              rcases List.mem_cons.1 ha' with rfl | ha'
              · exact hp
              · exact hall a' ha' hle
          · rintro ⟨hmem, hall⟩
            rcases List.mem_cons.1 hmem with rfl | hmem
            · exact .inl rfl
            · exact .inr ⟨hmem, fun a' ha' => hall a' (List.mem_cons_of_mem _ ha')⟩

theorem ScopeKind.isBody_of_isClass {kind : ScopeKind} (h : kind.isClass = true) :
    kind.isBody = false := by
  cases kind <;> first | rfl | cases h

namespace Boundary

variable {b : Bracketed} {i : Nat} {s : ScanState}

theorem scopes_descend (h : Boundary b i s) (hb : b.Nested) :
    s.scopes.Pairwise fun scope outer => outer.opener < scope.opener := by
  have hsorted : s.openers.Pairwise (· < ·) := by
    rw [(h.aligned hb).openers_eq]
    exact Pairing.openAt_sorted _ i
  have hscopes := (List.pairwise_flatMap.1 (List.pairwise_append.1 hsorted).1).2
  rw [List.pairwise_reverse] at hscopes
  refine hscopes.imp fun hlt => hlt _ ?_ _ ?_ <;> simp [Scope.openers]

theorem mem_surrounding_iff (h : Boundary b i s) (hb : b.Nested) {name : String} :
    (∃ scope ∈ s.scopes.takeWhile (!·.kind.isBody), scope.Defines name) ↔
      b.Surrounds i name := by
  simp only [mem_takeWhile_of_descending (h.scopes_descend hb), h.mem_scopes_iff hb,
    Bool.not_eq_true', Bracketed.Surrounds]
  refine exists_congr fun scope => ?_
  constructor
  · rintro ⟨⟨hopen, hall⟩, hdefines⟩
    exact ⟨hopen, hdefines, fun inner hinner hlt => hall inner hinner (Nat.le_of_lt hlt)⟩
  · rintro ⟨hopen, hdefines, hall⟩
    refine ⟨⟨hopen, fun inner hinner hle => ?_⟩, hdefines⟩
    rcases Nat.eq_or_lt_of_le hle with heq | hlt
    · obtain rfl := hopen.1.unique hinner.1 heq
      exact ScopeKind.isBody_of_isClass hdefines.1
    · exact hall inner hinner hlt

theorem mem_incompleteTypes_iff (h : Boundary b i s) (hb : b.Nested) {name : String} :
    name ∈ s.incompleteTypes ↔
      b.Surrounds i name ∨ b.DeclaredBefore i name ∧ ¬ b.DefinedBefore i name := by
  rw [ScanState.incompleteTypes, List.mem_append, ScanState.mem_classNames, List.mem_filter,
    h.mem_surrounding_iff hb, Bool.not_eq_true', ← Bool.not_eq_true, List.contains_iff_mem,
    ← h.mem_completed_iff hb, or_comm]
  refine or_congr_right ⟨?_, ?_⟩
  · rintro ⟨hforward, hcompleted⟩
    exact ⟨(h.mem_forward_iff hb hcompleted).1 hforward, hcompleted⟩
  · rintro ⟨hdeclared, hcompleted⟩
    exact ⟨(h.mem_forward_iff hb hcompleted).2 hdeclared, hcompleted⟩

end Boundary

/-! ## Size queries -/

/-- The size query at a place is told of the records that are incomplete there. -/
theorem ScanState.incompleteTypes_of_mem_step {b : Bracketed} {s : ScanState} {i : Nat} {t : Lexeme}
    {first last : Nat} {context : Context}
    (h : .span .sizeQuery first last context ∈ (s.step b i t).cuts) :
    context.incompleteTypes = s.incompleteTypes := by
  cases emits_of_cut h with
  | sizeQuery => rfl

/-- In every text, the records that a size query is told to be incomplete are those whose
definition is open around it with no body of a function or lambda in between, and those that were
declared outside their own definition and whose definition has not been closed.  And a brace opens
a definition exactly if its head starts with a class key and the first name behind the key is the
record's, whether or not it declares a function and whatever it is qualified with. -/
theorem incomplete_types_of_size_queries (name text : String) :
    (∀ f ∈ (scan name text).fragments, f.kind = .sizeQuery →
      ∃ (i last : Nat) (s : ScanState), Boundary (.ofText text) i s ∧
        (Source.ofText name text).Window f i last ∧
        ∀ record, record ∈ f.context.incompleteTypes ↔
          (Bracketed.ofText text).Surrounds i record ∨
            (Bracketed.ofText text).DeclaredBefore i record ∧
              ¬ (Bracketed.ofText text).DefinedBefore i record) ∧
    ∀ (i : Nat) (s : ScanState), Boundary (.ofText text) i s → ∀ record,
      (∃ scope, (Bracketed.ofText text).Opens scope ∧ scope.opener = i ∧ scope.Defines record) ↔
        s.ReadsHead (.ofText text) i ∧ s.HeadsClass (.ofText text) i record := by
  have hb : (Bracketed.ofText text).Nested := Bracketed.nested_ofLexemes _
  refine ⟨?_, fun i s h record => h.defines_iff⟩
  intro f hf hkind
  obtain ⟨i, s, hi, first, last, h, hcut, hstep, hwindow⟩ :=
    Source.exists_step hf (by rw [hkind]; decide)
  rw [hkind] at hcut hstep
  cases hstep with
  | sizeQuery hclose =>
      refine ⟨i, last, s, h, hwindow, fun record => ?_⟩
      rw [ScanState.incompleteTypes_of_mem_step hcut]
      exact h.mem_incompleteTypes_iff hb

/-- A declared record stays incomplete behind a function that returns pointers to it, but not if
the return type is spelled with the key; and it stays incomplete behind its own definition if the
name is qualified there. -/
theorem first_name_behind_key_completes :
    (∃ f ∈ (scan "a.cpp"
        "struct N; N* f() \x7b return 0; \x7d static_assert(sizeof(N) > 0);").fragments,
      f.kind = .sizeQuery ∧ f.text = "sizeof(N)" ∧ f.context.incompleteTypes = ["N"]) ∧
    (∃ f ∈ (scan "a.cpp"
        "struct N; struct N* f() \x7b return 0; \x7d static_assert(sizeof(N) > 0);").fragments,
      f.kind = .sizeQuery ∧ f.text = "sizeof(N)" ∧ f.context.incompleteTypes = []) ∧
    ∃ f ∈ (scan "a.cpp"
        "struct N; struct W::N \x7b int i; \x7d; static_assert(sizeof(N) > 0);").fragments,
      f.kind = .sizeQuery ∧ f.text = "sizeof(N)" ∧ f.context.incompleteTypes = ["N"] := by
  refine ⟨?_, ?_, ?_⟩
  all_goals
    rw [scan_fragments_eq (by decide +kernel)]
    decide +kernel

end CxxFloor
