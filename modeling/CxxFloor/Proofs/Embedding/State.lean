/-
# What the walk remembers inside a longer file

The walk over the longer file remembers, at the moved index, what the walk
over the file alone remembers, moved (`ScanState.Moved`).  Three differences
are left, and none of them is ever read.  Of what was announced before the
file some entries may be left over, but they stand before its first token.
The file scope has no place of its own.  And the records declared earlier are
known, which only a size or alignment query asks for; so they have to agree
where the file has such a query.
-/
import CxxFloor.Proofs.Embedding.Around

namespace CxxFloor

/-- The cut moved on by `d` tokens and `k` preprocessor lines. -/
def Cut.shift (d k : Nat) : Cut → Cut
  | .directive number => .directive (k + number)
  | .span kind first last context => .span kind (d + first) (d + last) context

namespace ScanState

/-- `s'` is what a walk remembers where `s` is remembered by a walk over `b` alone, `d` tokens
earlier. -/
structure Moved (b : Bracketed) (d : Nat) (s s' : ScanState) : Prop where
  scopes : s'.scopes = s.scopes.map (Scope.shift d)
  groups : s'.groups = s.groups.map (Group.shift d)
  head : s'.head = d + s.head
  lambdaBodies : ∃ old : List Scope,
    s'.lambdaBodies = s.lambdaBodies.map (Scope.shift d) ++ old ∧ ∀ body ∈ old, body.opener < d
  constantOpeners : ∃ old : List Nat,
    s'.constantOpeners = s.constantOpeners.map (d + ·) ++ old ∧ ∀ o ∈ old, o < d
  lambdaParameters : ∃ old : List Nat,
    s'.lambdaParameters = s.lambdaParameters.map (d + ·) ++ old ∧ ∀ o ∈ old, o < d
  records : (∃ i, b.wordInAt i sizeQueries = true) →
    s'.forward = s.forward ∧ s'.completed = s.completed

/-- The states and the cuts correspond. -/
structure Echoes (b : Bracketed) (d k : Nat) (r r' : ScanState × List Cut) : Prop where
  state : r.1.Moved b d r'.1
  cuts : r'.2 = r.2.map (Cut.shift d k)

namespace Moved

variable {b b' : Bracketed} {d k i : Nat} {s s' : ScanState}

/-! ## The innermost scope -/

theorem scope_kind (hm : s.Moved b d s') : s'.scope.kind = s.scope.kind := by
  unfold scope
  rw [hm.scopes]
  cases s.scopes <;> rfl

theorem scope_template (hm : s.Moved b d s') : s'.scope.template = s.scope.template := by
  unfold scope
  rw [hm.scopes]
  cases s.scopes <;> rfl

theorem scope_templateNames (hm : s.Moved b d s') :
    s'.scope.templateNames = s.scope.templateNames := by
  unfold scope
  rw [hm.scopes]
  cases s.scopes <;> rfl

theorem atTop_eq (hm : s.Moved b d s') : s'.atTop = s.atTop := by
  unfold atTop
  rw [hm.groups, List.isEmpty_map]

theorem any_constant (hm : s.Moved b d s') :
    s'.groups.head?.any (·.constant) = s.groups.head?.any (·.constant) := by
  rw [hm.groups]
  cases s.groups <;> rfl

theorem head_beq (hm : s.Moved b d s') : (s'.head == d + i) = (s.head == i) := by
  rw [hm.head, Bool.eq_iff_iff, beq_iff_eq, beq_iff_eq, Nat.add_left_cancel_iff]

/-! ## Announced indices -/

theorem contains_append {os old : List Nat} (hold : ∀ o ∈ old, o < d) :
    (os.map (d + ·) ++ old).contains (d + i) = os.contains i := by
  rw [Bool.eq_iff_iff, List.contains_iff_mem, List.contains_iff_mem, List.mem_append, List.mem_map]
  constructor
  · rintro (⟨o, ho, heq⟩ | ho)
    · rwa [← Nat.add_left_cancel heq]
    · have := hold _ ho
      omega
  · intro hi
    exact Or.inl ⟨i, hi, rfl⟩

theorem constantOpeners_contains (hm : s.Moved b d s') :
    s'.constantOpeners.contains (d + i) = s.constantOpeners.contains i := by
  obtain ⟨old, heq, hold⟩ := hm.constantOpeners
  rw [heq, contains_append hold]

theorem lambdaParameters_contains (hm : s.Moved b d s') :
    s'.lambdaParameters.contains (d + i) = s.lambdaParameters.contains i := by
  obtain ⟨old, heq, hold⟩ := hm.lambdaParameters
  rw [heq, contains_append hold]

theorem find?_lambdaBodies (hm : s.Moved b d s') :
    s'.lambdaBodies.find? (·.opener = d + i)
      = (s.lambdaBodies.find? (·.opener = i)).map (Scope.shift d) := by
  obtain ⟨old, heq, hold⟩ := hm.lambdaBodies
  have hsame : (fun scope : Scope => decide (scope.opener = d + i)) ∘ Scope.shift d
      = fun scope => decide (scope.opener = i) := by
    funext scope
    simp [Scope.shift]
  have hnone : old.find? (·.opener = d + i) = none := by
    refine List.find?_eq_none.2 fun body hbody => ?_
    have := hold body hbody
    simp only [decide_eq_true_eq]
    omega
  rw [heq, List.find?_append, List.find?_map, hsame, hnone, Option.or_none]

/-! ## Groups -/

theorem openGroup (hm : s.Moved b d s') (h : b.Embeds b' d) (hi : b.Visible b' d i)
    (constant : Bool) : (s.openGroup b i constant).Moved b d (s'.openGroup b' (d + i) constant) := by
  unfold ScanState.openGroup
  rw [h.isSome_partner? hi]
  split
  · refine { hm with groups := ?_ }
    simp only [hm.any_constant, hm.constantOpeners_contains]
    rw [hm.groups]
    rfl
  · exact hm

theorem closeGroup (hm : s.Moved b d s') (h : b.Embeds b' d) (hi : b.Visible b' d i) :
    (s.closeGroup b i).Moved b d (s'.closeGroup b' (d + i)) := by
  have hsame : ∀ o, (fun group : Group => decide (group.opener ≠ d + o)) ∘ Group.shift d
      = fun group => decide (group.opener ≠ o) := by
    intro o
    funext group
    simp [Group.shift]
  unfold ScanState.closeGroup
  rw [h.partner?_eq hi]
  cases b.pairs.partner? i with
  | none => exact hm
  | some o =>
      refine { hm with groups := ?_ }
      show (s'.groups.dropWhile fun group => group.opener ≠ d + o).drop 1 = _
      rw [hm.groups, List.dropWhile_map, hsame, List.map_drop]

/-! ## Contexts -/

theorem inConstantFunction_eq (hm : s.Moved b d s') :
    s'.inConstantFunction = s.inConstantFunction := by
  have hsame : (fun scope : Scope => decide (scope.kind ≠ .block)) ∘ Scope.shift d
      = fun scope => decide (scope.kind ≠ .block) := rfl
  unfold inConstantFunction
  rw [hm.scopes, List.find?_map, hsame]
  cases s.scopes.find? fun scope => decide (scope.kind ≠ .block) <;> rfl

theorem context_eq (hm : s.Moved b d s') (h : b.Embeds b' d) (hhead : b.Visible b' d s.head)
    (first : Nat) : s'.context b' (d + first) = s.context b first := by
  have htemplate : s'.scopes.any (·.template) = s.scopes.any (·.template) := by
    rw [hm.scopes, List.any_map]
    rfl
  have hnames : s'.scopes.flatMap (·.templateNames) = s.scopes.flatMap (·.templateNames) := by
    rw [hm.scopes, List.flatMap_map]
    rfl
  unfold context
  simp only [hm.head_beq]
  simp only [hm.head, h.headFront_eq h.sameEnd_size hhead, HeadFront.shift, htemplate, hnames,
    hm.inConstantFunction_eq, hm.atTop_eq]

theorem span_eq (hm : s.Moved b d s') (h : b.Embeds b' d) (hhead : b.Visible b' d s.head)
    (kind : FragmentKind) (first last : Nat) :
    s'.span b' kind (d + first) (d + last) = (s.span b kind first last).shift d k := by
  rw [span, span, hm.context_eq h hhead]
  rfl

theorem incompleteTypes_eq (hm : s.Moved b d s') (hquery : b.wordInAt i sizeQueries = true) :
    s'.incompleteTypes = s.incompleteTypes := by
  obtain ⟨hforward, hcompleted⟩ := hm.records ⟨i, hquery⟩
  have hsame : (fun scope : Scope => !scope.kind.isBody) ∘ Scope.shift d
      = fun scope => !scope.kind.isBody := rfl
  unfold incompleteTypes
  rw [hforward, hcompleted, hm.scopes, List.takeWhile_map, hsame, List.filterMap_map]
  rfl

theorem inConstantContext_eq (hm : s.Moved b d s') (h : b.Embeds b' d)
    (hhead : b.Visible b' d s.head) (hi : i ≤ b.size) :
    s'.inConstantContext b' (d + i) = s.inConstantContext b i := by
  unfold inConstantContext
  rw [hm.any_constant, hm.scope_kind, hm.atTop_eq, hm.head,
    h.declaresConstantVariable_eq hi hhead]

theorem tryIsConstant_eq (hm : s.Moved b d s') (h : b.Embeds b' d)
    (hhead : b.Visible b' d s.head) (hi : i ≤ b.size) :
    s'.tryIsConstant b' (d + i) = s.tryIsConstant b i := by
  unfold tryIsConstant
  rw [hm.inConstantFunction_eq, hm.scope_kind, hm.head, h.declaresConstantFunction_eq hi hhead]

theorem startsParameter_eq (hm : s.Moved b d s') (h : b.Embeds b' d) (hi : b.Visible b' d i)
    (hgroup : ∀ g ∈ s.groups.head?, g.opener < b.size) :
    s'.startsParameter b' (d + i) = s.startsParameter b i := by
  unfold startsParameter
  rw [hm.groups]
  cases hgroups : s.groups with
  | nil => rfl
  | cons group outer =>
      have hlt : group.opener < b.size := hgroup group (by simp [hgroups])
      have hbefore : (decide (0 < d + i) && b'.punctInAt (d + i - 1) ["(", ","]) =
          (decide (0 < i) && b.punctInAt (i - 1) ["(", ","]) := by
        rcases Nat.eq_zero_or_pos i with rfl | hpos
        · cases d with
          | zero => rfl
          | succ d =>
              have hnone : b'.punctInAt d ["(", ","] = false := h.punctInAt_before (by decide)
              simp [hnone]
        · have hpos' : 0 < d + i := by omega
          have hpred : b.Visible b' d (i - 1) := Bracketed.Embeds.visible_of_le hi (Nat.sub_le i 1)
          rw [Nat.add_sub_assoc hpos, h.punctInAt_eq hpred]
          simp only [hpos, hpos']
      simp only [List.map_cons, Group.shift, hbefore, h.punctAt_eq (Or.inl hlt),
        hm.lambdaParameters_contains, List.isEmpty_map, hm.scope_kind, hm.head,
        h.opensParameters_eq (Nat.le_of_lt hlt)]

end Moved

end ScanState

end CxxFloor
