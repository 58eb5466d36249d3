/-
# Walking bracketed lexemes

Lexemes with their bracket table, and the ways to walk them: by index, along
the top level of a range (a paired group shows its opener only), and along a
template argument list to its closing angle.  Angles are no brackets of the
table: they are counted on the way, and the count ends the list.
-/
import CxxFloor.Bracket.Pairing

namespace CxxFloor

/-- Lexemes with a table of their brackets. -/
structure Bracketed where
  lexemes : Array Lexeme
  pairs : Pairing
deriving DecidableEq, Repr

namespace Bracketed

def ofLexemes (ts : Array Lexeme) : Bracketed := ⟨ts, .ofLexemes ts.toList⟩

def size (b : Bracketed) : Nat := b.lexemes.size

def at? (b : Bracketed) (i : Nat) : Option Lexeme := b.lexemes[i]?

def punctAt (b : Bracketed) (i : Nat) (s : String) : Bool := (b.at? i).any (·.isPunct s)

def punctInAt (b : Bracketed) (i : Nat) (ss : List String) : Bool :=
  (b.at? i).any (·.isPunctIn ss)

def wordAt (b : Bracketed) (i : Nat) (s : String) : Bool := (b.at? i).any (·.isWord s)

def wordInAt (b : Bracketed) (i : Nat) (ss : List String) : Bool :=
  (b.at? i).any (·.isWordIn ss)

def nameAt (b : Bracketed) (i : Nat) : Bool := (b.at? i).any (·.isName)

/-- A lexeme spelled like one of these, of whatever kind, stands at index `i`. -/
def textInAt (b : Bracketed) (i : Nat) (ss : List String) : Bool :=
  (b.at? i).any fun t => ss.contains t.text

def between (b : Bracketed) (start stop : Nat) : List Lexeme :=
  (b.lexemes.extract start stop).toList

/-- The range as bracketed lexemes of its own: a bracket whose partner lies outside is unpaired
in it. -/
def slice (b : Bracketed) (start stop : Nat) : Bracketed :=
  ⟨b.lexemes.extract start stop, b.pairs.restrict start stop⟩

def take (b : Bracketed) (n : Nat) : Bracketed := { b with lexemes := b.lexemes.extract 0 n }

def closer? (b : Bracketed) (i : Nat) : Option Nat := b.pairs.closer? i

def groupEnd? (b : Bracketed) (i : Nat) : Option Nat :=
  if (b.at? i).any (·.opens?.isSome) then b.closer? i else none

/-- The closer of the parenthesis or square bracket group that starts at index `i`. -/
def operandEnd? (b : Bracketed) (i : Nat) : Option Nat :=
  if b.punctInAt i ["(", "["] then b.closer? i else none

def roundEnd? (b : Bracketed) (i : Nat) : Option Nat :=
  if b.punctAt i "(" then b.closer? i else none

/-- The closer of the double square bracket group that starts at index `i`. -/
def attributeEnd? (b : Bracketed) (i : Nat) : Option Nat :=
  if b.punctAt i "[" && b.punctAt (i + 1) "[" then b.closer? i else none

theorem lt_of_groupEnd? {b : Bracketed} {i j : Nat} (h : b.groupEnd? i = some j) : i < j := by
  unfold groupEnd? at h
  split at h
  · exact Pairing.lt_of_closer? h
  · cases h

theorem lt_of_operandEnd? {b : Bracketed} {i j : Nat} (h : b.operandEnd? i = some j) : i < j := by
  unfold operandEnd? at h
  split at h
  · exact Pairing.lt_of_closer? h
  · cases h

theorem lt_of_attributeEnd? {b : Bracketed} {i j : Nat} (h : b.attributeEnd? i = some j) :
    i < j := by
  unfold attributeEnd? at h
  split at h
  · exact Pairing.lt_of_closer? h
  · cases h

/-! ## The top level -/

/-- The indices from `i` on and before `stop` that stand in no group of the range; of a paired
group only the opener is met. -/
def topLevel (b : Bracketed) (i stop : Nat) : List Nat :=
  if i < stop then
    match h : b.groupEnd? i with
    | some j => i :: b.topLevel (j + 1) stop
    | none => i :: b.topLevel (i + 1) stop
  else []
termination_by stop - i
decreasing_by
  · have := lt_of_groupEnd? h; omega
  · omega

theorem mem_topLevel {b : Bracketed} {i stop k : Nat} (h : k ∈ b.topLevel i stop) :
    i ≤ k ∧ k < stop := by
  fun_induction topLevel b i stop with
  | case1 i hlt j hj ih =>
      rcases List.mem_cons.1 h with rfl | h
      · exact ⟨Nat.le_refl k, hlt⟩
      · have := ih h
        have := lt_of_groupEnd? hj
        omega
  | case2 i hlt hj ih =>
      rcases List.mem_cons.1 h with rfl | h
      · exact ⟨Nat.le_refl k, hlt⟩
      · have := ih h
        omega
  | case3 i hge => simp at h

/-! ## Template argument lists -/

/-- The angle that brings the count from `depth` to zero.  A group in parentheses or square
brackets is passed over; a semicolon, a curly bracket or a stray closer ends the search. -/
def angleFrom? (b : Bracketed) (i : Nat) (depth : Int) : Option Nat :=
  if i < b.size then
    if b.punctAt i "<" then b.angleFrom? (i + 1) (depth + 1)
    else if b.punctAt i ">" then
      if depth = 1 then some i else b.angleFrom? (i + 1) (depth - 1)
    else if b.punctInAt i ["(", "["] then
      match h : b.closer? i with
      | some j => b.angleFrom? (j + 1) depth
      | none => none
    else if b.punctInAt i [";", "\x7b", "\x7d", ")", "]"] then none
    else b.angleFrom? (i + 1) depth
  else none
termination_by b.size - i
decreasing_by
  · omega
  · omega
  · have := Pairing.lt_of_closer? h; omega
  · omega

/-- The closing angle of the template argument list that starts at index `i`. -/
def angleEnd? (b : Bracketed) (i : Nat) : Option Nat := b.angleFrom? i 0

theorem le_of_angleFrom? {b : Bracketed} {i j : Nat} {depth : Int}
    (h : b.angleFrom? i depth = some j) : i ≤ j := by
  fun_induction angleFrom? b i depth with
  | case1 i depth _ _ ih => have := ih h; omega
  | case2 i _ _ _ => simp at h; omega
  | case3 i depth _ _ _ _ ih => have := ih h; omega
  | case4 i depth _ _ _ _ k hk ih =>
    have := ih h
    have := Pairing.lt_of_closer? hk
    omega
  | case5 => cases h
  | case6 => cases h
  | case7 i depth _ _ _ _ _ ih => have := ih h; omega
  | case8 => cases h

theorem le_of_angleEnd? {b : Bracketed} {i j : Nat} (h : b.angleEnd? i = some j) : i ≤ j :=
  le_of_angleFrom? h

end Bracketed

end CxxFloor
