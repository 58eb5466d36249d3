/-
# A walk that waits

Fragments can be asked for one by one.  A traversal is a walk over a source
that stops as soon as something is cut: it knows where the walk stands, which
preprocessor lines it has not come to, and which fragments of its last step
nobody has taken.  It goes on only when all of those are taken, and then no
further than to the next step or preprocessor line that cuts something.

The whole text is cut into tokens before a traversal starts, since the walk
looks up brackets ahead of where it stands.
-/
import CxxFloor.Fragment.Scan

namespace CxxFloor

/-- A walk over a source that is under way. -/
structure Traversal where
  source : Source
  brackets : Bracketed
  /-- Where the walk stands. -/
  index : Nat := 0
  /-- What it remembers there. -/
  state : ScanState := {}
  /-- The number of the next preprocessor line. -/
  number : Nat := 0
  /-- The preprocessor lines that are left: of each, how many words stand before it. -/
  directives : List Nat
  /-- What has been cut and not been taken. -/
  ready : List Fragment := []

namespace Traversal

/-- The traversal of a source at its start. -/
def ofText (name text : String) : Traversal :=
  let sheet := Sheet.ofLexemes ((tokens text.toList).map (·.toLexeme))
  { source := .ofText name text
    brackets := sheet.bracketed
    directives := sheet.directives }

/-- The traversal behind its next preprocessor line, `rest` being left. -/
def passLine (t : Traversal) (rest : List Nat) : Traversal :=
  { t with
    number := t.number + 1
    directives := rest
    ready := (t.source.fragment? (.directive t.number)).toList }

/-- The traversal behind its next step. -/
def passStep (t : Traversal) (lexeme : Lexeme) : Traversal :=
  let move := t.state.step t.brackets t.index lexeme
  { t with
    index := move.next
    state := move.state
    ready := move.cuts.filterMap t.source.fragment? }

/-- The traversal one preprocessor line or one step further; `none` at the end. -/
def advance? (t : Traversal) : Option Traversal :=
  match t.directives, t.brackets.at? t.index with
  | [], none => none
  | _ :: rest, none => some (t.passLine rest)
  | [], some lexeme => some (t.passStep lexeme)
  | before :: rest, some lexeme =>
    some (if before ≤ t.index then t.passLine rest else t.passStep lexeme)

/-- What the walk has before it, steps and preprocessor lines: an upper bound. -/
def ahead (t : Traversal) : Nat := t.brackets.size - t.index + t.directives.length

theorem ahead_passStep {t : Traversal} {lexeme : Lexeme} (h : t.brackets.at? t.index = some lexeme) :
    (t.passStep lexeme).ahead < t.ahead := by
  have hlt : t.index < t.brackets.size := (Array.getElem?_eq_some_iff.1 h).1
  have hlater := (t.state.step t.brackets t.index lexeme).later
  simp only [passStep, ahead]
  omega

theorem ahead_lt_of_advance? {t t' : Traversal} (h : t.advance? = some t') : t'.ahead < t.ahead := by
  unfold advance? at h
  split at h
  · cases h
  next rest hlines hend =>
    cases h
    simp [passLine, ahead, hlines]
  next lexeme hlines hat =>
    cases h
    exact ahead_passStep hat
  next before rest lexeme hlines hat =>
    cases h
    split
    · simp [passLine, ahead, hlines]
    · exact ahead_passStep hat

/-- The next fragment, and the traversal behind it; `none` if there is no other. -/
def next? (t : Traversal) : Option (Fragment × Traversal) :=
  match t.ready with
  | f :: fs => some (f, { t with ready := fs })
  | [] =>
    match _h : t.advance? with
    | some t' => t'.next?
    | none => none
termination_by t.ahead
decreasing_by exact ahead_lt_of_advance? _h

theorem lt_of_next? {t t' : Traversal} {f : Fragment} (h : t.next? = some (f, t')) :
    t'.ahead < t.ahead ∨ t'.ahead = t.ahead ∧ t'.ready.length < t.ready.length := by
  fun_induction next? t with
  | case1 t f fs hready =>
      cases h
      exact .inr ⟨rfl, by simp [hready]⟩
  | case2 t hready u hu ih =>
      have hlt := ahead_lt_of_advance? hu
      rcases ih h with hlt' | ⟨heq, -⟩
      · exact .inl (Nat.lt_trans hlt' hlt)
      · exact .inl (heq ▸ hlt)
  | case3 => cases h

/-- All fragments that are left, and the traversal behind the last of them. -/
def drain (t : Traversal) : List Fragment × Traversal :=
  match _h : t.next? with
  | none => ([], t)
  | some (f, t') =>
    let (fs, last) := t'.drain
    (f :: fs, last)
termination_by (t.ahead, t.ready.length)
decreasing_by
  rcases lt_of_next? _h with hlt | ⟨heq, hlt⟩
  · exact .left _ _ hlt
  · exact heq ▸ .right _ hlt

end Traversal

end CxxFloor
