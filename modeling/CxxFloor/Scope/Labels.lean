/-
# Labels

A label is a word before a colon, `default` before a colon, or `case` with its
expression up to a colon outside parentheses and square brackets.
-/
import CxxFloor.Scope.Head

namespace CxxFloor

def accessSpecifiers : List String := ["public", "private", "protected"]

namespace Bracketed

/-- The colon that ends the `case` whose expression is read from index `j` on. -/
def caseEnd? (b : Bracketed) (j : Nat) : Option Nat :=
  if j < b.size then
    if b.punctAt j ":" then some j
    else
      match h : b.operandEnd? j with
      | some c => b.caseEnd? (c + 1)
      | none => if b.punctInAt j [";", "\x7b", "\x7d"] then none else b.caseEnd? (j + 1)
  else none
termination_by b.size - j
decreasing_by
  · have := lt_of_operandEnd? h; omega
  · omega

/-- The colon that ends the label whose first word stands at index `i`. -/
def labelEnd? (b : Bracketed) (i : Nat) : Option Nat :=
  if b.wordAt i "case" then b.caseEnd? (i + 1)
  else if (b.wordAt i "default" || !b.wordInAt i (controlKeywords ++ accessSpecifiers))
      && b.punctAt (i + 1) ":" then
    some (i + 1)
  else none

theorem le_of_caseEnd? {b : Bracketed} {j k : Nat} (h : b.caseEnd? j = some k) : j ≤ k := by
  fun_induction caseEnd? b j with
  | case1 => simp at h; omega
  | case2 j _ _ c hc ih =>
    have := ih h
    have := lt_of_operandEnd? hc
    omega
  | case3 => cases h
  | case4 j _ _ _ _ ih => have := ih h; omega
  | case5 => cases h

theorem lt_of_labelEnd? {b : Bracketed} {i k : Nat} (h : b.labelEnd? i = some k) : i < k := by
  unfold labelEnd? at h
  split at h
  · have := le_of_caseEnd? h; omega
  · split at h
    · simp at h; omega
    · cases h

end Bracketed

end CxxFloor
