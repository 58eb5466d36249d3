/-
# Template headers before a declaration

The front of a declaration as a feature sees it: template headers and
attributes, in any order.  The names of the template parameters are read from
the headers that come first, up to the first attribute.
-/
import CxxFloor.Scope.Head

namespace CxxFloor

namespace Bracketed

/-- The index behind the template headers and attributes from index `k` on. -/
def skipHeaders (b : Bracketed) (k : Nat) : Nat :=
  if k < b.size then
    match h : b.templateHeaderEnd? k b.size with
    | some c => b.skipHeaders (c + 1)
    | none =>
      match h' : b.attributeEnd? k with
      | some c => b.skipHeaders (c + 1)
      | none => k
  else k
termination_by b.size - k
decreasing_by
  · have := lt_of_templateHeaderEnd? h; omega
  · have := lt_of_attributeEnd? h'; omega

/-- The names that the template headers from index `k` on declare. -/
def headerNames (b : Bracketed) (k : Nat) : List String :=
  if k < b.size then
    match _h : b.templateHeaderEnd? k b.size with
    | some c => templateParameterNames (b.between (k + 2) c) ++ b.headerNames (c + 1)
    | none => []
  else []
termination_by b.size - k
decreasing_by
  have := lt_of_templateHeaderEnd? _h
  omega

end Bracketed

end CxxFloor
