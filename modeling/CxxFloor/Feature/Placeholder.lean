/-
# Copies through a placeholder

`auto(x)` and `auto{x}` as expressions.  With braces there is no other
reading.  With parentheses `auto` may be a type, by what stands before it; at
the place of a declaration, what follows the group decides, and a token that
could follow in both readings leaves the question open.
-/
import CxxFloor.Feature.Verdict

namespace CxxFloor

def beforeType : List String := ["new", "operator", "->"]

/-- Specifiers of a declaration. -/
def declarationSpecifiers : List String :=
  ["static", "const", "constexpr", "constinit", "inline", "extern", "thread_local", "volatile",
   "typedef", "friend", "mutable", "register"]

def declaratorFollowers : List String := ["=", ";", ",", "(", "[", "\x7b"]

/-- Punctuators that go on with an expression. -/
def expressionFollowers : List String :=
  [".", "->", "++", "--", "+", "-", "*", "/", "%", "==", "!=", "<", ">", "<=", ">=", "<=>", "&&",
   "||", "&", "|", "^", "<<", "?", ".*", "->*", "+=", "-=", "*=", "/=", "%=", "&=", "|=", "^=",
   "<<="]

def mayStartDeclaration (v : View) : Bool :=
  v.context.atStatementStart || v.previous.any (·.isWordIn declarationSpecifiers)

/-- An `auto` that copies its operand. -/
def examinePlaceholder (v : View) : Verdict :=
  if v.previous.any fun t => beforeType.contains t.text then .absent
  else if v.context.placeholderType then .absent
  else if v.bracketed.punctAt 1 "\x7b" then .found none
  else if !mayStartDeclaration v then .found none
  else if v.next.any (·.isPunctIn declaratorFollowers) then .absent
  else if v.next.any (·.isPunctIn expressionFollowers) then .found none
  else
    .ambiguous none "auto(...) at statement start may begin a declaration"
      ["copy-initialized-deduced-parameter"]

def placeholderCopy : Matcher :=
  ⟨"copy-initialized-deduced-parameter", [.call], examinePlaceholder⟩

end CxxFloor
