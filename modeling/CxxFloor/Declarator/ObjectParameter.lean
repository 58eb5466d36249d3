/-
# Explicit object parameters

A first parameter that starts with `this`, attributes in front of it left
aside.  Its type is a placeholder if `auto` or `decltype` occurs in it;
otherwise its base name, the first word that is no qualifier, tells whether it
depends on a template parameter.
-/
import CxxFloor.Bracket.Split

namespace CxxFloor

/-- The number of lexemes up to and with the square bracket that closes the outermost of `depth`
open ones. -/
def closingSquare? : (depth : Nat) → List Lexeme → Option Nat
  | _, [] => none
  | depth, t :: ts =>
    if t.isPunct "[" then (closingSquare? (depth + 1) ts).map (1 + ·)
    else if t.isPunct "]" then
      if depth = 1 then some 1 else (closingSquare? (depth - 1) ts).map (1 + ·)
    else (closingSquare? depth ts).map (1 + ·)

/-- The number of lexemes of the attributes a parameter starts with. -/
def leadingAttributes : List Lexeme → Nat
  | t :: u :: rest =>
    if t.isPunct "[" && u.isPunct "[" then
      match closingSquare? 2 rest with
      | some n => 2 + n + leadingAttributes (rest.drop n)
      | none => 0
    else 0
  | _ => 0
termination_by ts => ts.length
decreasing_by simp [List.length_drop]; omega

/-- A parameter without the attributes in front of it. -/
def Part.stripAttributes (p : Part) : Part :=
  let n := leadingAttributes p.lexemes
  ⟨p.start + n, p.lexemes.drop n⟩

/-- A leading `this` parameter. -/
structure ObjectParameter where
  part : Part
deriving DecidableEq, Repr

def typeQualifiers : List String := ["const", "volatile", "typename"]

namespace ObjectParameter

def typeLexemes (p : ObjectParameter) : List Lexeme :=
  (p.part.lexemes.drop 1).filter fun t => !t.isPunct "="

def placeholder (p : ObjectParameter) : Bool :=
  p.typeLexemes.any (·.isWordIn ["auto", "decltype"])

def baseName? (p : ObjectParameter) : Option String :=
  (p.typeLexemes.find? fun t => t.isName && !typeQualifiers.contains t.text).map (·.text)

/-- The type is deduced at the call: it is a placeholder, or named after a template parameter. -/
def deduced (p : ObjectParameter) (templateNames : List String) : Bool :=
  p.placeholder || p.baseName?.any templateNames.contains

def declared (p : ObjectParameter) : Part :=
  ⟨p.part.start, p.part.lexemes.takeWhile fun t => !t.isPunct "="⟩

end ObjectParameter

/-- The explicit object parameter of a parameter list. -/
def objectParameter? (params : List Part) : Option ObjectParameter :=
  match params with
  | [] => none
  | first :: _ =>
    let part := first.stripAttributes
    if part.lexemes.head?.any (·.isWord "this") then some ⟨part⟩ else none

/-- The parameter list is spelled `void`. -/
def isVoidList (params : List Part) : Bool :=
  match params with
  | [⟨_, [t]⟩] => t.isWord "void"
  | _ => false

end CxxFloor
