/-
# What a fragment is told

A declaration is cut where it ends, and what it is told of templates is read off
the state there.  It is what holds where the declaration starts.  The walk came
to the head of every statement, those that are suspended included, with the
scopes that are still around the statement (`Boundary.statementsStarted`): a
lambda's body takes the head away and hands it back, together with the scopes.
So a fragment of any kind is told what holds at its first token
(`Source.exists_start`), and that can be said without the walk: the front of the
statement there, and the scopes whose braces are open (`Source.template_iff`).
-/
import CxxFloor.Proofs.Scope.Statements
import CxxFloor.Proofs.Scope.Heads

namespace CxxFloor

/-! ## Where statements start -/

/-- The walk came to index `head` at the start of a statement, inside these scopes. -/
def StatementStarts (b : Bracketed) (head : Nat) (scopes : List Scope) : Prop :=
  ∃ t, Boundary b head t ∧ t.head = head ∧ t.scopes = scopes

/-- The statement in progress and the suspended ones started inside the scopes that are around
them. -/
structure StatementsStarted (b : Bracketed) (s : ScanState) : Prop where
  head : StatementStarts b s.head s.scopes
  suspended : AllSuspended (fun head _ outer => StatementStarts b head outer) s.scopes

/-- A step to a boundary starts the new statement there, or takes up one that was started. -/
theorem HeadStep.statementsStarted {b : Bracketed} {i next : Nat} {s s' : ScanState}
    (h : HeadStep b i next s s') (hstarted : StatementsStarted b s) (hnext : Boundary b next s') :
    StatementsStarted b s' := by
  have hnew : s'.head = next → StatementStarts b s'.head s'.scopes := by
    intro hhead
    exact ⟨s', hhead ▸ hnext, rfl, rfl⟩
  cases h with
  | keeps hscopes hhead =>
      exact ⟨by rw [hhead, hscopes]; exact hstarted.head, hscopes ▸ hstarted.suspended⟩
  | starts hscopes hhead => exact ⟨hnew hhead, hscopes ▸ hstarted.suspended⟩
  | opens hscopes hopener hresume hhead =>
      refine ⟨hnew hhead, ?_⟩
      rw [hscopes]
      refine ⟨fun resume hr => ?_, hstarted.suspended⟩
      rw [hresume resume hr]
      exact hstarted.head
  | closes hinner hscopes hhead =>
      have hsuspended := hstarted.suspended
      rw [hinner] at hsuspended
      exact ⟨hnew hhead, hscopes ▸ hsuspended.2⟩
  | resumes hinner hresume _ _ hscopes hhead =>
      have hsuspended := hstarted.suspended
      rw [hinner] at hsuspended
      refine ⟨?_, hscopes ▸ hsuspended.2⟩
      rw [hhead, hscopes]
      exact hsuspended.1 _ hresume

theorem Boundary.statementsStarted {b : Bracketed} {i : Nat} {s : ScanState} (hb : b.Nested)
    (h : Boundary b i s) : StatementsStarted b s := by
  induction h with
  | start => exact ⟨⟨_, .start, rfl, rfl⟩, trivial⟩
  | step h hi ih => exact (h.headStep hb hi).statementsStarted ih (h.step hi)

/-! ## Fragments -/

/-- Every fragment that is no preprocessor line starts where the walk stops, and is told of
templates what holds there. -/
theorem Source.exists_start {name text : String} {f : Fragment}
    (hf : f ∈ (scan name text).fragments) (hkind : f.kind ≠ .directive) :
    ∃ first last t, (Source.ofText name text).Window f first last ∧
      Boundary (.ofText text) first t ∧
      f.context.inTemplate = (t.context (.ofText text) first).inTemplate ∧
      f.context.templateNames = (t.context (.ofText text) first).templateNames := by
  obtain ⟨i, s, hi, first, last, hs, hcut, -, hwindow⟩ := exists_step hf hkind
  refine ⟨first, last, ?_⟩
  generalize f.kind = kind, f.context = context at hcut ⊢
  cases ScanState.emits_of_cut hcut with
  | declaration | operator | member =>
      obtain ⟨t, ht, hhead, hscopes⟩ := (hs.statementsStarted (Bracketed.nested_ofLexemes _)).head
      refine ⟨t, hwindow, ht, ?_⟩
      simp only [ScanState.context, hhead, hscopes, true_and]
  | _ => exact ⟨s, hwindow, hs, rfl, rfl⟩

/-- A fragment is told that it stands in a template, and with which parameters, by the front of the
statement where it starts and by the scopes whose braces are open there. -/
theorem Source.template_iff {name text : String} {f : Fragment}
    (hf : f ∈ (scan name text).fragments) (hkind : f.kind ≠ .directive) {first last : Nat}
    (hwindow : (Source.ofText name text).Window f first last) :
    ∃ t, Boundary (.ofText text) first t ∧
      (f.context.inTemplate = true ↔
        ((Bracketed.ofText text).headFront t.head (Bracketed.ofText text).size).template = true ∨
          ∃ scope, (Bracketed.ofText text).HasOpen first scope ∧ scope.template = true) ∧
      ∀ p, p ∈ f.context.templateNames ↔
        p ∈ ((Bracketed.ofText text).headFront t.head (Bracketed.ofText text).size).templateNames ∨
          ∃ scope, (Bracketed.ofText text).HasOpen first scope ∧ p ∈ scope.templateNames := by
  obtain ⟨first', last', t, hwindow', ht, htemplate, hnames⟩ := exists_start hf hkind
  obtain ⟨rfl, -⟩ := hwindow.unique hwindow'
  have hscopes : ∀ scope, scope ∈ t.scopes ↔ (Bracketed.ofText text).HasOpen first scope :=
    fun _ => ht.mem_scopes_iff (Bracketed.nested_ofLexemes _)
  refine ⟨t, ht, ?_, fun p => ?_⟩
  · rw [htemplate]
    simp only [ScanState.context, Bool.or_eq_true, List.any_eq_true, hscopes]
  · rw [hnames]
    simp only [ScanState.context, List.mem_append, List.mem_flatMap, hscopes]

end CxxFloor
