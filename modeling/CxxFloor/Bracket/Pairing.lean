/-
# Pairing brackets

Every opening bracket is paired with its closer in one pass over the lexemes.
A closer takes the innermost pending opener of its own kind; the openers above
that one are given up, and a closer without any such opener is given up
itself.  What is given up is an orphan, and each orphan is remarked on at its
token.

The result is a table from indices to indices.  `closer?` only ever answers
with a later index (`lt_of_closer?`), so a walk that jumps over groups always
moves on, whatever table it is given.
-/
import CxxFloor.Token.Basic
import CxxFloor.Token.Fault

namespace CxxFloor

/-- The kinds of bracket. -/
inductive Bracket where
  | round
  | square
  | curly
deriving DecidableEq, Repr

namespace Bracket

/-- The spelling of the opening bracket. -/
def opener : Bracket → String
  | round => "("
  | square => "["
  | curly => "\x7b"

/-- The spelling of the closing bracket. -/
def closer : Bracket → String
  | round => ")"
  | square => "]"
  | curly => "\x7d"

def all : List Bracket := [round, square, curly]

end Bracket

def Lexeme.opens? (t : Lexeme) : Option Bracket := Bracket.all.find? fun b => t.isPunct b.opener

def Lexeme.closes? (t : Lexeme) : Option Bracket := Bracket.all.find? fun b => t.isPunct b.closer

/-- A bracket that is left without a partner, or closes over one that is. -/
inductive Orphan where
  /-- A closer that did not meet its opener at once. -/
  | unbalanced (index : Nat) (bracket : Bracket)
  /-- An opener that is never closed. -/
  | unclosed (index : Nat) (bracket : Bracket)
deriving DecidableEq, Repr

namespace Orphan

/-- The index of the remarked token. -/
def index : Orphan → Nat
  | unbalanced i _ => i
  | unclosed i _ => i

/-- The wording of the remark. -/
def message : Orphan → String
  | unbalanced _ b => "Unbalanced '" ++ b.closer ++ "'"
  | unclosed _ b => "Unclosed '" ++ b.opener ++ "'"

end Orphan

/-! ## The pass -/

/-- An opening bracket that waits for its closer. -/
structure OpenBracket where
  index : Nat
  bracket : Bracket
deriving DecidableEq, Repr

/-- What the pass knows: the pending openers, innermost first, the pairs found, latest first, and
the orphans in the order they were noticed. -/
structure Matching where
  pending : List OpenBracket := []
  pairs : List (Nat × Nat) := []
  orphans : List Orphan := []
deriving DecidableEq, Repr

namespace Matching

/-- The closer at index `i`. -/
def close (m : Matching) (i : Nat) (b : Bracket) : Matching :=
  let skipped := m.pending.takeWhile (·.bracket ≠ b)
  match m.pending.dropWhile (·.bracket ≠ b) with
  | [] => { m with orphans := m.orphans ++ [.unbalanced i b] }
  | top :: rest =>
    let remarks :=
      if skipped.isEmpty then []
      else .unbalanced i b :: skipped.reverse.map fun o => .unclosed o.index o.bracket
    { pending := rest, pairs := (top.index, i) :: m.pairs, orphans := m.orphans ++ remarks }

/-- The lexeme at index `i`. -/
def step (m : Matching) (i : Nat) (t : Lexeme) : Matching :=
  match t.opens? with
  | some b => { m with pending := ⟨i, b⟩ :: m.pending }
  | none =>
    match t.closes? with
    | some b => m.close i b
    | none => m

/-- The lexemes from index `i` on. -/
def steps (m : Matching) (i : Nat) : List Lexeme → Matching
  | [] => m
  | t :: ts => (m.step i t).steps (i + 1) ts

def ofLexemes (ts : List Lexeme) : Matching := ({} : Matching).steps 0 ts

/-- All orphans: those noticed on the way, then the openers still pending, outermost first. -/
def allOrphans (m : Matching) : List Orphan :=
  m.orphans ++ m.pending.reverse.map fun o => .unclosed o.index o.bracket

end Matching

/-! ## The table -/

/-- The partner of every paired bracket, by index. -/
structure Pairing where
  table : Array (Option Nat)
deriving DecidableEq, Repr

namespace Pairing

/-- The table of `size` entries that holds the pairs, both ways. -/
def ofPairs (size : Nat) (pairs : List (Nat × Nat)) : Pairing :=
  ⟨pairs.foldl (fun a p => (a.setIfInBounds p.1 (some p.2)).setIfInBounds p.2 (some p.1))
    (Array.replicate size none)⟩

def ofLexemes (ts : List Lexeme) : Pairing := ofPairs ts.length (Matching.ofLexemes ts).pairs

def partner? (p : Pairing) (i : Nat) : Option Nat := p.table[i]?.join

def closer? (p : Pairing) (i : Nat) : Option Nat := (p.partner? i).filter (i < ·)

theorem lt_of_closer? {p : Pairing} {i j : Nat} (h : p.closer? i = some j) : i < j := by
  have := (Option.filter_eq_some_iff.1 h).2
  simpa using this

/-- The pairs of the table, opener first, in the order of the openers. -/
def toList (p : Pairing) : List (Nat × Nat) :=
  (List.range p.table.size).filterMap fun i => (p.closer? i).map (i, ·)

/-- The pairs with both ends from index `start` on and before `stop`, counted from `start`. -/
def restrict (p : Pairing) (start stop : Nat) : Pairing :=
  ⟨(List.range (stop - start)).toArray.map fun k =>
    (p.partner? (start + k)).bind fun j =>
      if start ≤ j && j < stop then some (j - start) else none⟩

end Pairing

/-- The remarks on the brackets of a token sequence. -/
def bracketDiagnostics (ts : List Token) : List Diagnostic :=
  let table := ts.toArray
  (Matching.ofLexemes (ts.map (·.toLexeme))).allOrphans.filterMap fun o =>
    table[o.index]?.map fun t => ⟨t.start.line, t.start.column, o.message⟩

end CxxFloor
