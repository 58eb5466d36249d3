/-
# JSON documents in ASCII

A value of the JSON data model as far as reports use it, and its layout: two
spaces for each level, one item or field to a line, and `[]` or a pair of
braces for what is empty.  Text is written in printable ASCII.  Quotes and
backslashes are escaped, and control characters by a letter where there is
one; every other character is written by number, above U+FFFF as a surrogate
pair.

Where integers may only have so many digits, a value that holds a longer one is
not written at all (`Json.fault?`).
-/
import CxxFloor.Text.Integer

namespace CxxFloor

/-- A JSON value.  Fields keep their order. -/
inductive Json where
  | number (n : Int)
  | text (s : String)
  | array (items : List Json)
  | object (fields : List (String × Json))

namespace Json

/-! ## Text -/

def escapeUnit (n : Nat) : List Char := '\\' :: 'u' :: Text.hex 4 n

/-- A code point by number: one code unit, or a surrogate pair. -/
def escapeCode (n : Nat) : List Char :=
  if n < 0x10000 then escapeUnit n
  else
    escapeUnit (0xD800 + (n - 0x10000) / 0x400) ++ escapeUnit (0xDC00 + (n - 0x10000) % 0x400)

/-- The letter that escapes a character. -/
def shortEscape? (c : Char) : Option Char :=
  match c with
  | '"' => some '"'
  | '\\' => some '\\'
  | '\n' => some 'n'
  | '\r' => some 'r'
  | '\t' => some 't'
  | '\x0c' => some 'f'
  | '\x08' => some 'b'
  | _ => none

/-- One character of a text. -/
def escape (c : Char) : List Char :=
  match shortEscape? c with
  | some e => ['\\', e]
  | none => if 0x20 ≤ c.toNat && c.toNat < 0x7F then [c] else escapeCode c.toNat

/-- A text between double quotes. -/
def quote (s : String) : List Char := '"' :: s.toList.flatMap escape ++ ['"']

/-! ## Layout -/

/-- A line end and the margin of a level. -/
def newline (level : Nat) : List Char := '\n' :: List.replicate (2 * level) ' '

mutual

/-- The value, its first line in place and the later ones at the margin of `level`. -/
def layout (level : Nat) : Json → List Char
  | .number n => (toString n).toList
  | .text s => quote s
  | .array [] => ['[', ']']
  | .array (item :: items) =>
    '[' :: newline (level + 1) ++ layout (level + 1) item ++ layoutItems (level + 1) items
      ++ newline level ++ [']']
  | .object [] => ['\x7b', '\x7d']
  | .object ((key, value) :: fields) =>
    '\x7b' :: newline (level + 1) ++ quote key ++ ':' :: ' ' :: layout (level + 1) value
      ++ layoutFields (level + 1) fields ++ newline level ++ ['\x7d']

/-- The items behind the first one, each on a line. -/
def layoutItems (level : Nat) : List Json → List Char
  | [] => []
  | item :: items => ',' :: newline level ++ layout level item ++ layoutItems level items

/-- The fields behind the first one, each on a line. -/
def layoutFields (level : Nat) : List (String × Json) → List Char
  | [] => []
  | (key, value) :: fields =>
    ',' :: newline level ++ quote key ++ ':' :: ' ' :: layout level value
      ++ layoutFields level fields

end

/-- The value as a document, all its numbers written out. -/
def render (j : Json) : String := String.ofList (layout 0 j)

/-! ## Numbers -/

mutual

/-- The numbers in a value, in the order they are written. -/
def numbers : Json → List Int
  | .number n => [n]
  | .text _ => []
  | .array items => numbersOfItems items
  | .object fields => numbersOfFields fields

def numbersOfItems : List Json → List Int
  | [] => []
  | item :: items => numbers item ++ numbersOfItems items

def numbersOfFields : List (String × Json) → List Int
  | [] => []
  | (_, value) :: fields => numbers value ++ numbersOfFields fields

end

/-- Why the value cannot be written where integers have at most `limit` digits. -/
def fault? (limit : Option Nat) (j : Json) : Option Text.IntegerFault :=
  match limit with
  | none => none
  | some k => if j.numbers.all (Text.fitsDigits k) then none else some (.unwritable k)

end Json

end CxxFloor
