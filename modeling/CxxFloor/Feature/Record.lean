/-
# Incomplete records and union members

A size query of a record that is incomplete where it stands, in a constant
context, and a data member of a union with an initialiser of its own.
-/
import CxxFloor.Feature.Verdict
import CxxFloor.Scope.Head

namespace CxxFloor

/-- The operand of a size query, without a class key in front. -/
def queriedType (v : View) : List Lexeme :=
  match (v.lexemes.extract 2 (v.lexemes.size - 1)).toList with
  | t :: ts => if classKeys.contains t.text then ts else t :: ts
  | [] => []

/-- In a constant context, the size of an incomplete record. -/
def examineSizeQuery (v : View) : Verdict :=
  match queriedType v with
  | [t] =>
    if v.context.constantContext && t.isName && v.context.incompleteTypes.contains t.text then
      .found none
    else .absent
  | _ => .absent

/-- A member with `=`, or with a brace behind its name, at the top level. -/
def examineMember (v : View) : Verdict :=
  let b := v.bracketed
  if (b.topLevel 0 b.size).any fun k => b.punctAt k "=" || (b.punctAt k "\x7b" && 0 < k) then
    .found none
  else .absent

def incompleteSizeQuery : Matcher :=
  ⟨"incomplete-type-size-query-in-constant-context", [.sizeQuery], examineSizeQuery⟩

def unionMemberInitializer : Matcher :=
  ⟨"default-initializer-in-variant-record", [.unionMember], examineMember⟩

end CxxFloor
