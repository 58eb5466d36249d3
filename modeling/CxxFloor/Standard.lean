/-
# Language standards

A standard is named by its number, perhaps behind a prefix such as `c++`.  Two
standards are known.
-/
import CxxFloor.Error
import CxxFloor.Text.Integer

namespace CxxFloor

namespace Standard

def known : List Int := [20, 23]

def lowest : Int := 20

def prefixes : List (List Char) := ["c++".toList, "cxx".toList, "cpp".toList, "c".toList]

/-- The text without the first of these prefixes that it starts with. -/
def dropPrefix : (ps : List (List Char)) → List Char → List Char
  | [], cs => cs
  | p :: ps, cs => if p.isPrefixOf cs then cs.drop p.length else dropPrefix ps cs

/-- The standard a text names.  Case does not matter, and blanks may stand at either end.  Only
ASCII letters have a lower case that can occur in a prefix.  Digits that are no decimal digits
pass for a number and are refused as one. -/
def parse (text : String) : Except Refusal Int := do
  let digits := dropPrefix prefixes ((Text.trim text.toList).map Char.toLower)
  if digits.isEmpty || !digits.all Text.isDigit then throw (.unknownStandard text)
  match Text.readInteger (String.ofList digits) with
  | .error fault => throw (.integer fault)
  | .ok n => if known.contains n then pure n else throw (.unknownStandard text)

def label (n : Int) : String := "C++" ++ toString n

end Standard

end CxxFloor
