/-
# The tokens of a text

The pieces of a text are placed one behind the other from its start; its
tokens are the pieces that are tokens, and its diagnostics are the faulty
pieces, each at the place where its fault is recorded.
-/
import CxxFloor.Token.Piece

namespace CxxFloor

/-- Pieces with the positions of their first characters, the first of them at `p`. -/
def placed (p : Position) : List Piece → List (Position × Piece)
  | [] => []
  | piece :: rest => (p, piece) :: placed (p.after piece.raw) rest

/-- The token a placed piece is. -/
def Piece.asToken? : Position × Piece → Option Token
  | (p, ⟨.token lexeme, raw⟩) => some ⟨lexeme, p, p.offset + raw.length⟩
  | _ => none

/-- The fault of a placed piece, and where it is recorded. -/
def Piece.asFault? : Position × Piece → Option (Position × Fault)
  | (p, ⟨.faulty fault place, raw⟩) => some (p.after (raw.take place), fault)
  | _ => none

def Fault.diagnostic (p : Position) (fault : Fault) : Diagnostic :=
  ⟨p.line, p.column, fault.message⟩

def placedPieces (text : List Char) : List (Position × Piece) :=
  placed .start (pieces true text)

def tokens (text : List Char) : List Token := (placedPieces text).filterMap Piece.asToken?

def faults (text : List Char) : List (Position × Fault) :=
  (placedPieces text).filterMap Piece.asFault?

def tokenDiagnostics (text : List Char) : List Diagnostic :=
  (faults text).map fun (p, fault) => fault.diagnostic p

/-- The part of a text that tokens span, from the first of them to the last. -/
def spanned (text : List Char) (ts : List Token) : String :=
  match ts.head?, ts.getLast? with
  | some t, some u => Text.slice text t.start.offset u.stop
  | _, _ => ""

end CxxFloor
