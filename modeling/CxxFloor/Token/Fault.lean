/-
# Faults and diagnostics

What can be wrong with a source without stopping its reading: a token that is
never finished, a character that starts none, and brackets that do not pair.
A diagnostic is a fault's wording at a line and a column.  Diagnostics may be
made by hand as well as by a scan, so their places are integers.
-/
import CxxFloor.Text.Quoted

namespace CxxFloor

/-- Why a piece of a source is no token. -/
inductive Fault where
  | unterminatedComment
  | unterminatedString
  | unterminatedCharacter
  | malformedDelimiter
  | unterminatedRawString
  | unexpected (c : Char)
deriving DecidableEq, Repr

/-- The wording of a fault. -/
def Fault.message : Fault → String
  | .unterminatedComment => "Unterminated block comment"
  | .unterminatedString => "Unterminated string literal"
  | .unterminatedCharacter => "Unterminated character literal"
  | .malformedDelimiter => "Malformed raw string delimiter"
  | .unterminatedRawString => "Unterminated raw string literal"
  | .unexpected c => "Unexpected character " ++ String.ofList (Text.quoted [c])

/-- A remark on a source at a line and a column. -/
structure Diagnostic where
  line : Int
  column : Int
  message : String
deriving DecidableEq, Repr, Inhabited

def Diagnostic.render (d : Diagnostic) : String :=
  toString d.line ++ ":" ++ toString d.column ++ ": " ++ d.message

end CxxFloor
