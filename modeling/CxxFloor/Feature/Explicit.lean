/-
# Explicit specifiers

A condition on `explicit`, and deduction guides that are explicit.  Behind a
condition a name, a destructor or a scope must follow; a second group in
parentheses leaves open which of the two is the condition.  Whether a guide
needs a newer standard depends on how it is used, so a guide is never more
than a note.
-/
import CxxFloor.Declarator.Header
import CxxFloor.Feature.Verdict

namespace CxxFloor

namespace Bracketed

/-- The first `explicit` at the top level, with the closing parenthesis of its condition. -/
def explicitSpecifier? (b : Bracketed) : Option (Nat × Option Nat) :=
  match (b.topLevel (b.skipHeaders 0) b.size).find? fun k => b.wordAt k "explicit" with
  | some k => some (k, b.roundEnd? (k + 1))
  | none => none

/-- The qualified name that starts at index `j`: its words and the index behind it. -/
def qualifiedName (b : Bracketed) (j : Nat) : String × Nat :=
  let part := (b.between j b.size).takeWhile fun t => t.isName || t.isPunct "::"
  (String.join (part.map (·.text)), j + part.length)

end Bracketed

/-- What stands behind the last `::` of a name.  `read` is what was read since the one before, the
last character first. -/
def afterScope : (read : List Char) → List Char → List Char
  | read, [] => read.reverse
  | _, ':' :: ':' :: rest => afterScope [] rest
  | read, c :: rest => afterScope (c :: read) rest

def simpleName (name : String) : String := String.ofList (afterScope [] name.toList)

/-- A condition in the specifier. -/
def examineCondition (v : View) : Verdict :=
  let b := v.bracketed
  match b.explicitSpecifier? with
  | some (k, some close) =>
    if b.nameAt (close + 1) || b.punctInAt (close + 1) ["~", "::"] then .found (some ⟨k, close⟩)
    else if b.punctAt (close + 1) "(" then
      if close = k + 3 && b.nameAt (k + 2) then .absent
      else
        .ambiguous (some ⟨k, close⟩) "explicit followed by two parenthesized groups"
          ["conditional-explicit"]
    else .absent
  | _ => .absent

/-- Why an explicit guide is only noted: the condition text decides; `none` if the guide is not
explicit after all. -/
def guideReason? : (condition : Option String) → Option String
  | none => some "explicit deduction guides are also valid C++17"
  | some "false" => none
  | some "true" => some "explicit(true) deduction guides are also valid C++20"
  | some condition =>
    some ("deduction guide restriction depends on explicit(" ++ condition ++ ")")

/-- Where the target of the deduction guide named at index `name` ends, its argument list left
out.  A guide's target is a template of its own name. -/
def Bracketed.guideTargetEnd? (b : Bracketed) (name : Nat) : Option Nat := do
  if !b.nameAt name then none
  let close ← b.roundEnd? (name + 1)
  if !b.punctAt (close + 1) "->" then none
  let (target, stop) := b.qualifiedName (close + 2)
  if stop = close + 2 || !b.punctAt stop "<" then none
  else if (b.at? name).any (·.text == simpleName target) then some stop
  else none

/-- An explicit deduction guide. -/
def examineGuide (v : View) : Verdict :=
  let b := v.bracketed
  match b.explicitSpecifier? with
  | none => .absent
  | some (k, close?) =>
    match b.guideTargetEnd? (close?.getD k + 1) with
    | none => .absent
    | some stop =>
      match guideReason? (close?.map fun close => joined (b.between (k + 2) close)) with
      | some reason =>
        .ambiguous (some ⟨k, stop - 1⟩) reason ["deduction-guide-for-restricted-constructor"]
      | none => .absent

def conditionalExplicit : Matcher := ⟨"conditional-explicit", [.declaration], examineCondition⟩

def restrictedGuide : Matcher :=
  ⟨"deduction-guide-for-restricted-constructor", [.declaration], examineGuide⟩

end CxxFloor
