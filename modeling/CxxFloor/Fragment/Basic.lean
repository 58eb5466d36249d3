/-
# Fragments

A fragment is a short run of tokens that may show a feature: a declaration, a
lambda introducer, a literal.  It exists in three forms, and each next one
adds something the earlier does not need:

  * a `Cut` says which tokens of a source make the fragment, and what the
    enclosing scopes say about it; it is found without looking at places;
  * a `View` is what a feature may look at: the lexemes, the neighbours and the
    context.  Spans in it are counted from its own first lexeme, so a view is
    the same wherever in a file the fragment stands;
  * a `Fragment` is the located whole, for display.
-/
import CxxFloor.Bracket.Walk

namespace CxxFloor

/-- The shapes that are cut out of a source. -/
inductive FragmentKind where
  /-- `auto(x)` or `auto{x}`. -/
  | call
  /-- The head of a declaration. -/
  | declaration
  /-- A declaration that names a call or subscript operator. -/
  | operatorDefinition
  /-- A lambda from its introducer up to its body. -/
  | captureList
  /-- A data member declared directly in a union. -/
  | unionMember
  /-- A static assertion with its operands. -/
  | staticAssertion
  /-- `try` with its brace. -/
  | tryBlock
  /-- `if`, possibly with its compile-time marker. -/
  | branch
  /-- A size or alignment query with its operand. -/
  | sizeQuery
  /-- A number. -/
  | literal
  /-- A preprocessor line. -/
  | directive
  /-- An attribute group. -/
  | attributeGroup
  /-- A label with its colon. -/
  | label
deriving DecidableEq, Repr, Inhabited

namespace FragmentKind

/-- The name under which a kind is shown. -/
def name : FragmentKind → String
  | call => "call-expr"
  | declaration => "declaration"
  | operatorDefinition => "operator-def"
  | captureList => "capture-list"
  | unionMember => "union-member"
  | staticAssertion => "static-assert"
  | tryBlock => "try-block"
  | branch => "branch"
  | sizeQuery => "size-query"
  | literal => "literal"
  | directive => "directive"
  | attributeGroup => "attribute"
  | label => "label"

/-- All kinds. -/
def all : List FragmentKind :=
  [call, declaration, operatorDefinition, captureList, unionMember, staticAssertion, tryBlock,
   branch, sizeQuery, literal, directive, attributeGroup, label]

def ofName? (s : String) : Option FragmentKind := all.find? (·.name == s)

end FragmentKind

/-- What the enclosing scopes say about a fragment.  The two lists stand for sets. -/
structure Context where
  inTemplate : Bool := false
  inConstantFunction : Bool := false
  constantContext : Bool := false
  atStatementStart : Bool := false
  /-- The `auto` of the fragment is a type: a trailing return type or a parameter. -/
  placeholderType : Bool := false
  /-- The names the enclosing template headers declare. -/
  templateNames : List String := []
  /-- The records that are incomplete at this place. -/
  incompleteTypes : List String := []
deriving DecidableEq, Repr, Inhabited

/-- The members of a set given by a list, each once, in the order of their characters. -/
def sortedNames (names : List String) : List String :=
  names.eraseDups.mergeSort fun a b => decide (a ≤ b)

/-- Which tokens make a fragment.  Directives are numbered apart from the other tokens. -/
inductive Cut where
  /-- The preprocessor line with this number. -/
  | directive (number : Nat)
  /-- The tokens from `first` to `last`, both included. -/
  | span (kind : FragmentKind) (first last : Nat) (context : Context)
deriving DecidableEq, Repr

/-- What a feature may look at. -/
structure View where
  kind : FragmentKind
  lexemes : Array Lexeme
  text : String := ""
  previous : Option Lexeme := none
  next : Option Lexeme := none
  context : Context := {}
deriving Repr

namespace View

def bracketed (v : View) : Bracketed := .ofLexemes v.lexemes

end View

/-- A fragment of a source file. -/
structure Fragment where
  kind : FragmentKind
  file : String
  start : Position
  stop : Nat
  text : String
  tokens : Array Token
  previous : Option Token := none
  next : Option Token := none
  context : Context := {}
deriving Repr

namespace Fragment

/-- What a feature may look at in the fragment. -/
def view (f : Fragment) : View :=
  { kind := f.kind
    lexemes := f.tokens.map (·.toLexeme)
    text := f.text
    previous := f.previous.map (·.toLexeme)
    next := f.next.map (·.toLexeme)
    context := f.context }

end Fragment

end CxxFloor
