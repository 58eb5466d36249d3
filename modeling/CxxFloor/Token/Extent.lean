/-
# How far a token or a comment reaches

Each function here looks at the text after the opening of a token or comment
and says how many of its characters belong to it.  None of them knows a
position or keeps a cursor, and none builds text: a length is enough, because
the text read is the first so many characters.  Where an end is missing, the
length says how much was read before that showed, since reading goes on from
there at the end of the line.
-/
import CxxFloor.Text.Alphanumeric

namespace CxxFloor

/-- The reach of something that has to be closed. -/
inductive Extent where
  /-- It ends after `length` characters. -/
  | closed (length : Nat)
  /-- It does not end; `read` characters were passed before that showed. -/
  | unclosed (read : Nat)
deriving DecidableEq, Repr

namespace Extent

/-- The same reach, seen from `n` characters earlier. -/
def shift (n : Nat) : Extent → Extent
  | closed length => closed (n + length)
  | unclosed read => unclosed (n + read)

/-! ## Comments -/

/-- The characters up to the end of the line, a backslash at the end of a line taking the next
line along. -/
def lineComment : List Char → Nat
  | [] => 0
  | '\\' :: '\n' :: rest => 2 + lineComment rest
  | '\n' :: _ => 0
  | _ :: rest => 1 + lineComment rest

/-- The characters up to and with the first `*/`. -/
def blockComment? : List Char → Option Nat
  | [] => none
  | '*' :: '/' :: _ => some 2
  | _ :: rest => (blockComment? rest).map (1 + ·)

/-! ## Literals -/

/-- The characters up to and with the closing quote.  A backslash takes the next character
along, a line end included; a line end on its own leaves the literal unclosed. -/
def quotation (quote : Char) : List Char → Extent
  | [] => unclosed 0
  | '\n' :: _ => unclosed 0
  | ['\\'] => unclosed 1
  | '\\' :: _ :: rest => (quotation quote rest).shift 2
  | c :: rest => if c = quote then closed 1 else (quotation quote rest).shift 1

/-- The place of the first occurrence of `pattern`. -/
def firstOccurrence? (pattern : List Char) : List Char → Option Nat
  | [] => if pattern.isEmpty then some 0 else none
  | c :: rest =>
    if pattern.isPrefixOf (c :: rest) then some 0
    else (firstOccurrence? pattern rest).map (1 + ·)

/-- A delimiter of a raw string is read for at most this many characters. -/
def maxDelimiter : Nat := 17

/-- The delimiter a raw string starts with: what stands before the parenthesis, on one line. -/
def rawDelimiter (cs : List Char) : List Char :=
  (cs.takeWhile fun c => c ≠ '(' && c ≠ '\n').take maxDelimiter

def rawTerminator (delimiter : List Char) : List Char := ')' :: delimiter ++ ['"']

/-- The characters of a number after `previous`, which is part of it.  A sign continues the
number after an exponent letter, unless the number is hexadecimal and the letter is an `e`; a
single quote does when an alphanumeric character follows. -/
def numberTail (hexadecimal : Bool) (previous : Char) : List Char → Nat
  | [] => 0
  | c :: rest =>
    if (c == '+' || c == '-') && ['e', 'E', 'p', 'P'].contains previous then
      if hexadecimal && ['e', 'E'].contains previous then 0
      else 1 + numberTail hexadecimal c rest
    else if c == Char.ofNat 39 && rest.head?.any Text.isAlphanumeric then
      1 + numberTail hexadecimal c rest
    else if c == '.' || Text.continuesWord c then 1 + numberTail hexadecimal c rest
    else 0

/-- The text starts with `0x`. -/
def startsHexadecimal : List Char → Bool
  | '0' :: x :: _ => x == 'x' || x == 'X'
  | _ => false

/-- The characters of the number a text starts with. -/
def number : List Char → Nat
  | [] => 0
  | c :: rest => 1 + numberTail (startsHexadecimal (c :: rest)) c rest

def word (cs : List Char) : Nat := (cs.takeWhile Text.continuesWord).length

end Extent

end CxxFloor
