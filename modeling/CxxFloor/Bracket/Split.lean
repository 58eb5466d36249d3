/-
# Splitting at the top level

A list of lexemes is split at a separator outside all brackets.  With angles
tracked, a `<` behind a word opens a template argument list, and a separator
inside it does not split either.  Depths are counted from the start of the
list, so a stray closer takes them below zero.

A part knows the index of its first lexeme, so that what is found in it can be
pointed at.
-/
import CxxFloor.Bracket.Pairing

namespace CxxFloor

/-- A run of lexemes, and the index of its first one in the sequence it was taken from. -/
structure Part where
  start : Nat
  lexemes : List Lexeme
deriving DecidableEq, Repr, Inhabited

/-- Where a split stands: bracket depth, open angles and the lexeme before. -/
structure SplitState where
  depth : Int := 0
  angles : Nat := 0
  previous : Option Lexeme := none
deriving DecidableEq, Repr

namespace SplitState

/-- The lexeme separates here. -/
def separates (s : SplitState) (separator : String) (trackAngles : Bool) (t : Lexeme) : Bool :=
  t.kind == .punctuator && t.opens?.isNone && t.closes?.isNone
    && !(trackAngles && s.depth == 0 && t.text == "<" && s.previous.any (·.isName))
    && !(trackAngles && s.depth == 0 && t.text == ">" && 0 < s.angles)
    && t.text == separator && s.depth == 0 && s.angles == 0

/-- The state behind a lexeme. -/
def next (s : SplitState) (trackAngles : Bool) (t : Lexeme) : SplitState :=
  let s' := { s with previous := some t }
  if t.opens?.isSome then { s' with depth := s.depth + 1 }
  else if t.closes?.isSome then { s' with depth := s.depth - 1 }
  else if trackAngles && s.depth == 0 && t.isPunct "<" && s.previous.any (·.isName) then
    { s' with angles := s.angles + 1 }
  else if trackAngles && s.depth == 0 && t.isPunct ">" && 0 < s.angles then
    { s' with angles := s.angles - 1 }
  else s'

end SplitState

/-- The parts from index `i` on: the one in progress, and the later ones. -/
def splitFrom (separator : String) (trackAngles : Bool) (i : Nat) (s : SplitState) :
    List Lexeme → Part × List Part
  | [] => (⟨i, []⟩, [])
  | t :: ts =>
    let (part, later) := splitFrom separator trackAngles (i + 1) (s.next trackAngles t) ts
    if s.separates separator trackAngles t then (⟨i, []⟩, part :: later)
    else (⟨i, t :: part.lexemes⟩, later)

/-- The lexemes, the first at index `start`, split at the separators of the top level.  An empty
list has no part. -/
def splitTopLevel (separator : String) (trackAngles : Bool) (start : Nat) (ts : List Lexeme) :
    List Part :=
  if ts.isEmpty then []
  else
    let (part, later) := splitFrom separator trackAngles start {} ts
    part :: later

/-- The parameters of a parameter list, or the parameters of a template. -/
def parameters (start : Nat) (ts : List Lexeme) : List Part := splitTopLevel "," true start ts

/-- The name a template parameter declares: the last word before its default that is no
placeholder for one. -/
def declaredName? (parameter : List Lexeme) : Option String :=
  ((parameter.takeWhile fun t => !t.isPunct "=").reverse.find? fun t =>
    t.isName && !(["typename", "class", "auto"].contains t.text)).map (·.text)

def templateParameterNames (ts : List Lexeme) : List String :=
  (parameters 0 ts).filterMap fun part => declaredName? part.lexemes

end CxxFloor
