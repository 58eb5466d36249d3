/-
# Tokens

A lexeme is what a token says: its kind and its spelling.  A token is a lexeme
at a place.  Everything that decides whether a feature is used reads lexemes
only; places are attached again when a finding is reported.  So the layout of
a source (blanks, comments, line ends) cannot reach a decision.
-/
import CxxFloor.Text.Position

namespace CxxFloor

/-- The kinds of token.  Keywords are words like any other, and a preprocessor line is one
token. -/
inductive TokenKind where
  | word
  | number
  | string
  | character
  | punctuator
  | directive
deriving DecidableEq, Repr, Inhabited

/-- What a token says. -/
structure Lexeme where
  kind : TokenKind
  text : String
deriving DecidableEq, Repr, Inhabited

/-- A lexeme at a place: its first character stands at `start`, its last one before the offset
`stop`. -/
structure Token extends Lexeme where
  start : Position
  stop : Nat
deriving DecidableEq, Repr, Inhabited

namespace Lexeme

def isPunct (t : Lexeme) (s : String) : Bool := t.kind == .punctuator && t.text == s

def isWord (t : Lexeme) (s : String) : Bool := t.kind == .word && t.text == s

def isPunctIn (t : Lexeme) (ss : List String) : Bool := t.kind == .punctuator && ss.contains t.text

def isWordIn (t : Lexeme) (ss : List String) : Bool := t.kind == .word && ss.contains t.text

def isName (t : Lexeme) : Bool := t.kind == .word

end Lexeme

def joined (ts : List Lexeme) : String := " ".intercalate (ts.map (·.text))

end CxxFloor
