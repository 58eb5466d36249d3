/-
# Pieces of a source

A source is cut into pieces without a gap and without a remainder: layout,
joined line ends, comments, tokens, and faulty stretches.  A faulty stretch is
what was read of a token or comment that cannot be finished, together with the
rest of its line, where reading goes on.

Two statements carry the whole of it: no character is lost
(`flatMap_raw_pieces`), and no piece is empty (`raw_ne_nil_of_mem_pieces`).

The one thing the cutting remembers is whether the line is fresh, that is,
whether no token has started on it: a `#` starts a directive on a fresh line
and is a punctuator elsewhere.
-/
import CxxFloor.Token.Basic
import CxxFloor.Token.DirectiveLine
import CxxFloor.Token.Fault

namespace CxxFloor

/-- What a piece of source is. -/
inductive PieceKind where
  | layout
  | splice
  | lineComment
  | blockComment
  | token (lexeme : Lexeme)
  /-- A stretch given up on; the fault is recorded `place` characters into it. -/
  | faulty (fault : Fault) (place : Nat)
deriving DecidableEq, Repr

/-- A piece of source with its characters. -/
structure Piece where
  kind : PieceKind
  raw : List Char
deriving DecidableEq, Repr

namespace Piece

/-! ## Recognising the piece a text starts with

Every recogniser answers with the kind of the piece and the number of its characters. -/

def tokenOf (kind : TokenKind) (cs : List Char) (n : Nat) : PieceKind × Nat :=
  (.token ⟨kind, String.ofList (cs.take n)⟩, n)

/-- A stretch given up on after `read` characters: it takes the rest of the line along. -/
def faultyOf (fault : Fault) (place read : Nat) (cs : List Char) : PieceKind × Nat :=
  (.faulty fault place, read + ((cs.drop read).takeWhile (· ≠ '\n')).length)

/-- A comment, joined line end or layout at the start of the text. -/
def trivia? (cs : List Char) : Option (PieceKind × Nat) :=
  match cs with
  | '\\' :: '\n' :: _ => some (.splice, 2)
  | '/' :: '/' :: rest => some (.lineComment, 2 + Extent.lineComment rest)
  | '/' :: '*' :: rest =>
    match Extent.blockComment? rest with
    | some n => some (.blockComment, 2 + n)
    | none => some (faultyOf .unterminatedComment 0 cs.length cs)
  | c :: rest =>
    if Text.isLayout c then some (.layout, 1 + (rest.takeWhile Text.isLayout).length) else none
  | [] => none

/-- The directive at the start of a fresh line. -/
def directive (cs : List Char) : PieceKind × Nat :=
  match DirectiveLine.extent cs with
  | .closed n => (.token ⟨.directive, DirectiveLine.spelling (cs.take n)⟩, n)
  | .unclosed place => faultyOf .unterminatedComment place cs.length cs

/-- What may stand before the quote of a string or a character literal.  A prefix that ends in
`R` announces a raw string. -/
def encodingPrefixes : List (List Char) :=
  ["u8R".toList, "uR".toList, "UR".toList, "LR".toList, "R".toList, "u8".toList, "u".toList,
   "U".toList, "L".toList]

/-- The prefix of the literal a text starts with. -/
def literalPrefix? (cs : List Char) : Option (List Char) :=
  encodingPrefixes.find? fun p =>
    p.isPrefixOf cs &&
      match cs[p.length]? with
      | some '"' => true
      | some c => c == Text.singleQuote && !p.contains 'R'
      | none => false

/-- A string or character literal whose quote stands after `before` characters. -/
def quotation (before : Nat) (quote : Char) (cs : List Char) : PieceKind × Nat :=
  match Extent.quotation quote (cs.drop (before + 1)) with
  | .closed n => tokenOf (if quote == '"' then .string else .character) cs (before + 1 + n)
  | .unclosed n =>
    faultyOf (if quote == '"' then .unterminatedString else .unterminatedCharacter) before
      (before + 1 + n) cs

/-- A raw string whose quote stands after `before` characters. -/
def rawString (before : Nat) (cs : List Char) : PieceKind × Nat :=
  let inside := cs.drop (before + 1)
  let delimiter := Extent.rawDelimiter inside
  let opening := before + 1 + delimiter.length
  match inside.drop delimiter.length with
  | '(' :: body =>
    match Extent.firstOccurrence? (Extent.rawTerminator delimiter) body with
    | some n => tokenOf .string cs (opening + 1 + n + (delimiter.length + 2))
    | none => faultyOf .unterminatedRawString before (opening + 1) cs
  | _ => faultyOf .malformedDelimiter before opening cs

/-- The literal behind an encoding prefix. -/
def prefixed (p : List Char) (cs : List Char) : PieceKind × Nat :=
  if p.contains 'R' then rawString p.length cs
  else quotation p.length (if cs[p.length]? == some '"' then '"' else Text.singleQuote) cs

/-- The punctuators of more than one character, the longer ones first.  `>>` is not among them,
so that the closers of nested template argument lists stay apart. -/
def longPunctuators : List (List Char) :=
  ["<=>".toList, "<<=".toList, "->*".toList, "...".toList, "::".toList, "->".toList, "++".toList,
   "--".toList, "<<".toList, "<=".toList, ">=".toList, "==".toList, "!=".toList, "&&".toList,
   "||".toList, "+=".toList, "-=".toList, "*=".toList, "/=".toList, "%=".toList, "&=".toList,
   "|=".toList, "^=".toList, ".*".toList, "##".toList]

def shortPunctuators : List Char :=
  "()[]\x7b\x7d;:,.<>+-*/%&|^!~=?#".toList

/-- A punctuator, or a character that starts no token. -/
def punctuator (c : Char) (cs : List Char) : PieceKind × Nat :=
  match longPunctuators.find? (·.isPrefixOf cs) with
  | some p => tokenOf .punctuator cs p.length
  | none =>
    if shortPunctuators.contains c then tokenOf .punctuator cs 1
    else faultyOf (.unexpected c) 0 1 cs

/-- The text starts with a number: with a digit, or with a point before one. -/
def startsNumber : List Char → Bool
  | '.' :: c :: _ => Text.isDigit c
  | c :: _ => Text.isDigit c
  | [] => false

/-- The token a text starts with, `c` being its first character. -/
def token (fresh : Bool) (c : Char) (cs : List Char) : PieceKind × Nat :=
  if c == '#' && fresh then directive cs
  else
    match literalPrefix? cs with
    | some p => prefixed p cs
    | none =>
      if Text.startsWord c then tokenOf .word cs (Extent.word cs)
      else if startsNumber cs then tokenOf .number cs (Extent.number cs)
      else if c == '"' || c == Text.singleQuote then quotation 0 c cs
      else punctuator c cs

def recognise (fresh : Bool) (c : Char) (cs : List Char) : PieceKind × Nat :=
  (trivia? cs).getD (token fresh c cs)

/-! ## Cutting a text -/

/-- The line is fresh after the piece: a line end was passed, or the line was fresh and no token
has started. -/
def freshAfter (fresh : Bool) (p : Piece) : Bool :=
  p.raw.contains '\n' ||
    match p.kind with
    | .token _ | .faulty _ _ => false
    | _ => fresh

end Piece

/-- The pieces of a text, the line being `fresh` at its start.  A piece takes its first
character in any case, so every step shortens the text. -/
def pieces (fresh : Bool) : List Char → List Piece
  | [] => []
  | c :: rest =>
    let (kind, length) := Piece.recognise fresh c (c :: rest)
    let piece : Piece := ⟨kind, c :: rest.take (length - 1)⟩
    piece :: pieces (piece.freshAfter fresh) (rest.drop (length - 1))
termination_by cs => cs.length
decreasing_by simp only [List.length_drop, List.length_cons]; omega

theorem flatMap_raw_pieces (fresh : Bool) (cs : List Char) :
    (pieces fresh cs).flatMap (·.raw) = cs := by
  fun_induction pieces fresh cs with
  | case1 => rfl
  | case2 fresh c rest kind length hk piece ih =>
    simp only [List.flatMap_cons, ih, piece, List.cons_append, List.take_append_drop]

theorem raw_ne_nil_of_mem_pieces {fresh : Bool} {cs : List Char} {p : Piece}
    (h : p ∈ pieces fresh cs) : p.raw ≠ [] := by
  fun_induction pieces fresh cs with
  | case1 => simp at h
  | case2 fresh c rest kind length hk piece ih =>
    rcases List.mem_cons.1 h with rfl | h
    · simp [piece]
    · exact ih h

end CxxFloor
