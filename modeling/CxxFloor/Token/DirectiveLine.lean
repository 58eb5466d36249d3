/-
# Preprocessor lines

A preprocessor line reaches to the first line end that no backslash precedes
and no block comment holds.  Its spelling is its text with every joined line
end and every block comment turned into one space, without a line comment, and
without blanks at its end.  The reach and the spelling are two functions: the
spelling is taken of the text that the reach cut out.
-/
import CxxFloor.Token.Extent
import CxxFloor.Text.Blank

namespace CxxFloor

namespace DirectiveLine

/-- The reach of a preprocessor line.  The only way to be unclosed is a block comment that is
never closed; the number is then that of the characters before the comment. -/
def extent : List Char → Extent
  | [] => .closed 0
  | '\n' :: _ => .closed 0
  | '\\' :: '\n' :: rest => (extent rest).shift 2
  | '/' :: '/' :: rest => .closed (2 + Extent.lineComment rest)
  | '/' :: '*' :: rest =>
    match Extent.blockComment? rest with
    | some n => (extent (rest.drop n)).shift (2 + n)
    | none => .unclosed 0
  | _ :: rest => (extent rest).shift 1
termination_by cs => cs.length
decreasing_by all_goals simp [List.length_drop]; try omega

/-- The line with its comments and joined line ends taken out. -/
def flatten : List Char → List Char
  | [] => []
  | '\\' :: '\n' :: rest => ' ' :: flatten rest
  | '/' :: '/' :: _ => []
  | '/' :: '*' :: rest =>
    match Extent.blockComment? rest with
    | some n => ' ' :: flatten (rest.drop n)
    | none => []
  | c :: rest => c :: flatten rest
termination_by cs => cs.length
decreasing_by all_goals simp [List.length_drop]; try omega

def spelling (raw : List Char) : String := String.ofList (Text.trimEnd (flatten raw))

end DirectiveLine

end CxxFloor
