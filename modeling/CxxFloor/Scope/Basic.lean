/-
# Scopes and expression groups

What a walk over the tokens of a file remembers between two of them.  Braces
that hold statements or declarations open scopes; parentheses, square brackets
and the braces of initialisers open groups.  Groups belong to the statement in
progress, whose first token is the head.

The body of a lambda is a scope inside a group.  While it is open, the groups
and the head of the statement around it are kept in its scope and taken up
again when it closes (`Resume`).  So scopes and groups together always list
the open brackets from the outside in, those of a suspended statement between
its scope and the lambda's.
-/

namespace CxxFloor

/-- What a brace opens, or the file itself. -/
inductive ScopeKind where
  | file
  | namespaceScope
  | record
  | union
  | enumeration
  | function
  | lambda
  | block
deriving DecidableEq, Repr, Inhabited

namespace ScopeKind

/-- The statements of the scope are declarations. -/
def holdsDeclarations : ScopeKind → Bool
  | file | namespaceScope | record | union => true
  | enumeration | function | lambda | block => false

/-- The statements of the scope are executed. -/
def holdsCode : ScopeKind → Bool
  | function | lambda | block => true
  | file | namespaceScope | record | union | enumeration => false

/-- The scope defines a class. -/
def isClass : ScopeKind → Bool
  | record | union => true
  | file | namespaceScope | enumeration | function | lambda | block => false

/-- The scope is the body of a function or of a lambda. -/
def isBody : ScopeKind → Bool
  | function | lambda => true
  | file | namespaceScope | record | union | enumeration | block => false

end ScopeKind

/-- An open parenthesis, square bracket or initialiser brace of an expression. -/
structure Group where
  opener : Nat
  /-- What it holds is a constant expression. -/
  constant : Bool
deriving DecidableEq, Repr

/-- The statement around a lambda, taken up again when its body closes. -/
structure Resume where
  groups : List Group
  head : Nat
deriving DecidableEq, Repr

/-- An open scope. -/
structure Scope where
  kind : ScopeKind
  opener : Nat := 0
  name : Option String := none
  /-- A function or lambda that is, or may be, evaluated at compile time. -/
  constant : Bool := false
  template : Bool := false
  templateNames : List String := []
  resume : Option Resume := none
deriving DecidableEq, Repr

def Scope.file : Scope := { kind := .file }

/-- What the walk remembers.  `scopes` and `groups` are listed from the inside out, and the file
is not among the scopes.  The last three lists stand for sets of token indices and of scopes
announced by what was read ahead. -/
structure ScanState where
  scopes : List Scope := []
  groups : List Group := []
  /-- The first token of the statement in progress. -/
  head : Nat := 0
  /-- The records declared without a body. -/
  forward : List String := []
  /-- The records whose body was closed. -/
  completed : List String := []
  /-- The lambda bodies whose brace has not been reached. -/
  lambdaBodies : List Scope := []
  /-- The parentheses known to hold a constant expression. -/
  constantOpeners : List Nat := []
  /-- The parentheses known to hold the parameters of a lambda. -/
  lambdaParameters : List Nat := []
deriving DecidableEq, Repr

namespace ScanState

def scope (s : ScanState) : Scope := s.scopes.headD .file

def atTop (s : ScanState) : Bool := s.groups.isEmpty

end ScanState

end CxxFloor
