/-
# What a step reads without asking

Most reads of the walk ask first whether there is a token.  Those that do not
are listed here, one constructor for each place where they occur and under the
conditions that hold there (`Reads`): in the head that ends at the step, behind
the token of the step, and around the group that is open.  That the heads are
in front of the step and the openers behind the start of the file is what the
walk has to see to (`Boundary.lt_size_of_reads`).
-/
import CxxFloor.Proofs.Scope.Openers
import CxxFloor.Proofs.Scope.Range

namespace CxxFloor

namespace ScanState

def bodyOfHead (b : Bracketed) (s : ScanState) (i : Nat) : Nat := (b.headFront s.head i).bodyStart

def endOfHead (b : Bracketed) (s : ScanState) (i : Nat) : Nat :=
  b.withoutTry (s.bodyOfHead b i) i

/-- The indices at which the step from index `i` takes it that there is a token. -/
inductive Reads (b : Bracketed) (s : ScanState) (i : Nat) : Nat → Prop
  | token : Reads b s i i
  -- what stands before: an introducer, a structured binding, the return type of an arrow
  | back {k : Nat} (h : k < i) : Reads b s i k
  -- the way through the head: its front, its names and groups, the search for an `=`
  | head {k : Nat} (h : s.head ≤ k) (hk : k < i) : Reads b s i k
  -- the last token, which may be a `try`
  | last (h : s.bodyOfHead b i < i) : Reads b s i (i - 1)
  -- the first token of the body, and the one behind an `inline`
  | first (h : s.bodyOfHead b i < s.endOfHead b i) : Reads b s i (s.bodyOfHead b i)
  | second (h : s.bodyOfHead b i < s.endOfHead b i)
      (hinline : b.wordAt (s.bodyOfHead b i) "inline" = true) :
      Reads b s i (s.bodyOfHead b i + 1)
  -- the last token of the body of a control statement, a label or a constructor
  | tail (h : s.bodyOfHead b i < s.endOfHead b i) : Reads b s i (s.endOfHead b i - 1)
  -- a statement: the first token of its body, its last one, and the symbol of an operator in it
  | statement (h : s.bodyOfHead b i < i) : Reads b s i (s.bodyOfHead b i)
  | declaration (h : s.head < i) : Reads b s i (i - 1)
  | symbol {k j : Nat} (h : s.head ≤ k) (hk : k + 2 < b.withoutTry 0 i) (hj : j ≤ k + 2) :
      Reads b s i j
  -- the parenthesis that may hold parameters, what stands before it, and the way up to it
  | group {g : Group} (h : g ∈ s.groups.head?) : Reads b s i g.opener
  | beforeGroup {g : Group} (h : g ∈ s.groups.head?) (hhead : s.head < g.opener) :
      Reads b s i (g.opener - 1)
  | upToGroup {g : Group} (h : g ∈ s.groups.head?) {k : Nat} (hk : k < g.opener) : Reads b s i k
  -- on that way the last token of the file stands before the first one
  | around : Reads b s i (b.size - 1)

/-- The indices at which the step from index `i` takes it that the table has a partner. -/
inductive Looks (b : Bracketed) (s : ScanState) (i : Nat) : Nat → Prop
  -- the introducer of a lambda
  | introducer (h : b.introducesLambda i = true) : Looks b s i i
  -- the operand of an assertion or a size query, and that of an `auto`
  | operand (h : (b.roundEnd? (i + 1)).isSome = true) : Looks b s i (i + 1)
  | call (h : (b.closer? (i + 1)).isSome = true) : Looks b s i (i + 1)
  -- the bracket of a group or a scope that is open
  | opener {o : Nat} (h : o ∈ s.openers) : Looks b s i o

end ScanState

namespace Bracketed

variable {b : Bracketed}

theorem wordInAt_headFront {k stop : Nat} (h : (b.headFront k stop).bodyStart < stop) :
    b.wordInAt (b.headFront k stop).bodyStart leadingSpecifiers = false := by
  fun_induction headFront b k stop with
  | case1 k hk c hc rest ih => exact ih h
  | case2 k hk hnone c hc hlt ih => exact ih h
  | case3 k hk hnone c hc hge =>
      have hsquare : b.punctAt k "[" = true := by
        unfold attributeEnd? at hc
        split at hc
        next hb =>
          rw [Bool.and_eq_true] at hb
          exact hb.1
        next => cases hc
      exact wordInAt_of_punctAt hsquare
  | case4 k hk hnone hnone' hword ih => exact ih h
  | case5 k hk hnone hnone' hword => simpa using hword
  | case6 k hk => exact absurd h hk

theorem withoutTry_le (start stop : Nat) : b.withoutTry start stop ≤ stop := by
  unfold withoutTry
  split
  · exact Nat.sub_le stop 1
  · exact Nat.le_refl stop

end Bracketed

namespace Boundary

variable {b : Bracketed} {i k : Nat} {s : ScanState}

/-- The openers that the walk remembers are paired and stand before the place where it is. -/
theorem of_mem_openers (h : Boundary b i s) (hb : b.Nested) {o : Nat} (ho : o ∈ s.openers) :
    o < i ∧ ∃ c, b.pairs.partner? o = some c ∧ i ≤ c := by
  rw [(h.aligned hb).openers_eq] at ho
  exact Pairing.mem_openAt.1 ho

theorem opener_lt (h : Boundary b i s) (hb : b.Nested) {g : Group} (hg : g ∈ s.groups.head?) :
    g.opener < i := by
  refine (h.of_mem_openers hb ?_).1
  have hmem : g ∈ s.groups := List.mem_of_mem_head? hg
  exact List.mem_append_right _ (List.mem_map.2 ⟨g, List.mem_reverse.2 hmem, rfl⟩)

theorem lt_size_of_reads (h : Boundary b i s) (hb : b.Nested) (hi : i < b.size)
    (hk : s.Reads b i k) : k < b.size := by
  have hend : s.endOfHead b i ≤ i := Bracketed.withoutTry_le _ _
  cases hk with
  | token => exact hi
  | back hk => omega
  | head _ hk => omega
  | last hk => omega
  | first hk => omega
  | second hk hinline =>
      have hno := Bracketed.wordInAt_headFront (Nat.lt_of_lt_of_le hk hend)
      obtain ⟨t, ht, hword⟩ := (Option.any_eq_true _ _).1 hinline
      have hin : b.wordInAt (s.bodyOfHead b i) leadingSpecifiers = true := by
        simp only [Lexeme.isWord, Bool.and_eq_true, beq_iff_eq] at hword
        simp [Bracketed.wordInAt, ht, Lexeme.isWordIn, hword.1, hword.2, leadingSpecifiers]
      exact absurd hin (by rw [ScanState.bodyOfHead, hno]; exact Bool.false_ne_true)
  | tail hk => omega
  | statement hk => omega
  | declaration hk => omega
  | symbol _ hk hj =>
      have := b.withoutTry_le 0 i
      omega
  | group hg =>
      have := h.opener_lt hb hg
      omega
  | beforeGroup hg _ =>
      have := h.opener_lt hb hg
      omega
  | upToGroup hg hk =>
      have := h.opener_lt hb hg
      omega
  | around => omega

theorem isSome_of_looks (h : Boundary b i s) (hb : b.Nested) (hk : s.Looks b i k) :
    (b.pairs.partner? k).isSome = true := by
  cases hk with
  | introducer hl =>
      unfold Bracketed.introducesLambda at hl
      simp only [Bool.and_eq_true] at hl
      exact hl.1.2
  | operand hl =>
      obtain ⟨c, hc⟩ := Option.isSome_iff_exists.1 hl
      rw [Bracketed.partner?_of_closer? (Bracketed.closer?_of_roundEnd? hc)]
      rfl
  | call hl =>
      obtain ⟨c, hc⟩ := Option.isSome_iff_exists.1 hl
      rw [Bracketed.partner?_of_closer? hc]
      rfl
  | opener ho =>
      obtain ⟨-, c, hc, -⟩ := h.of_mem_openers hb ho
      rw [hc]
      rfl

end Boundary

end CxxFloor
