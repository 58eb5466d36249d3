/-
# Reading JSON

The other direction of `Json.render`: a text is read as a JSON document.  The
reader knows more spellings than are ever written.  Blanks may stand between
all parts, hexadecimal digits have either case, a solidus may be escaped, and
two escaped surrogates are joined to one character.  What is no JSON document
is refused, and so is what the values here do not tell: truth values, null,
fractions and exponents, and a surrogate that stands alone.

Every function takes what it reads off the front of the text and hands on the
rest.  Each value, item, field and character takes one character at least, so
the length of the text is steps enough, and `read?` starts with that many.
-/
import CxxFloor.Text.Json

namespace CxxFloor

namespace Json

def isBlank (c : Char) : Bool := c == ' ' || c == '\t' || c == '\n' || c == '\r'

/-- The text behind the blanks it starts with. -/
def skip (cs : List Char) : List Char := cs.dropWhile isBlank

/-! ## Numbers -/

/-- A number without a sign: its digits up to the first other character, without a zero in front
of others. -/
def natural? (cs : List Char) : Option (Nat × List Char) :=
  let digits := cs.takeWhile Char.isDigit
  if digits = [] ∨ digits.head? = some '0' ∧ digits ≠ ['0'] then none
  else some (Nat.ofDigitChars 10 digits 0, cs.dropWhile Char.isDigit)

/-- A number. -/
def integer? : List Char → Option (Int × List Char)
  | '-' :: cs => (natural? cs).map fun (n, rest) => (-n, rest)
  | cs => (natural? cs).map fun (n, rest) => (n, rest)

/-! ## Text -/

/-- The value of a hexadecimal digit. -/
def hexValue? (c : Char) : Option Nat :=
  if '0' ≤ c ∧ c ≤ '9' then some (c.toNat - 0x30)
  else if 'a' ≤ c ∧ c ≤ 'f' then some (c.toNat - 0x57)
  else if 'A' ≤ c ∧ c ≤ 'F' then some (c.toNat - 0x37)
  else none

/-- A code unit of four hexadecimal digits. -/
def unit? : List Char → Option (Nat × List Char)
  | a :: b :: c :: d :: rest => do
    pure (((← hexValue? a) * 0x1000 + (← hexValue? b) * 0x100 + (← hexValue? c) * 0x10
      + (← hexValue? d)), rest)
  | _ => none

/-- A character by number, behind the backslash and the letter: one code unit, or a surrogate and
another escape with its partner. -/
def coded? (cs : List Char) : Option (Char × List Char) := do
  let (unit, rest) ← unit? cs
  if unit < 0xD800 ∨ 0xE000 ≤ unit then pure (Char.ofNat unit, rest)
  else
    match rest with
    | '\\' :: 'u' :: rest => do
      let (partner, rest) ← unit? rest
      if unit < 0xDC00 ∧ 0xDC00 ≤ partner ∧ partner < 0xE000 then
        pure (Char.ofNat (0x10000 + (unit - 0xD800) * 0x400 + (partner - 0xDC00)), rest)
      else none
    | _ => none

/-- What a letter stands for behind a backslash. -/
def lettered? : Char → Option Char
  | '"' => some '"'
  | '\\' => some '\\'
  | '/' => some '/'
  | 'b' => some '\x08'
  | 'f' => some '\x0c'
  | 'n' => some '\n'
  | 'r' => some '\r'
  | 't' => some '\t'
  | _ => none

/-- A character of a text, escaped or not.  Quotes and control characters have to be escaped. -/
def character? : List Char → Option (Char × List Char)
  | '\\' :: 'u' :: cs => coded? cs
  | '\\' :: e :: cs => (lettered? e).map fun c => (c, cs)
  | c :: cs => if c = '"' ∨ c = '\\' ∨ c.toNat < 0x20 then none else some (c, cs)
  | [] => none

/-- The characters of a text up to the quote that ends it. -/
def characters? : (steps : Nat) → List Char → Option (List Char × List Char)
  | _, '"' :: rest => some ([], rest)
  | 0, _ => none
  | steps + 1, cs => do
    let (c, cs) ← character? cs
    (characters? steps cs).map fun (s, rest) => (c :: s, rest)

def quoted? (cs : List Char) : Option (String × List Char) :=
  (characters? cs.length cs).map fun (s, rest) => (String.ofList s, rest)

/-! ## Values -/

mutual

/-- A value, blanks in front of it left out. -/
def value? : (steps : Nat) → List Char → Option (Json × List Char)
  | 0, _ => none
  | steps + 1, cs =>
    match skip cs with
    | '"' :: cs => (quoted? cs).map fun (s, rest) => (.text s, rest)
    | '[' :: cs =>
      match skip cs with
      | ']' :: rest => some (.array [], rest)
      | cs => do
        let (item, cs) ← value? steps cs
        (items? steps cs).map fun (items, rest) => (.array (item :: items), rest)
    | '\x7b' :: cs =>
      match skip cs with
      | '\x7d' :: rest => some (.object [], rest)
      | cs => do
        let (field, cs) ← member? steps cs
        (fields? steps cs).map fun (fields, rest) => (.object (field :: fields), rest)
    | cs => (integer? cs).map fun (n, rest) => (.number n, rest)

/-- The items behind one, up to the bracket that ends their array. -/
def items? : (steps : Nat) → List Char → Option (List Json × List Char)
  | 0, _ => none
  | steps + 1, cs =>
    match skip cs with
    | ',' :: cs => do
      let (item, cs) ← value? steps cs
      (items? steps cs).map fun (items, rest) => (item :: items, rest)
    | ']' :: rest => some ([], rest)
    | _ => none

/-- A key and its value. -/
def member? : (steps : Nat) → List Char → Option ((String × Json) × List Char)
  | 0, _ => none
  | steps + 1, cs =>
    match skip cs with
    | '"' :: cs => do
      let (key, cs) ← quoted? cs
      match skip cs with
      | ':' :: cs => (value? steps cs).map fun (value, rest) => ((key, value), rest)
      | _ => none
    | _ => none

/-- The fields behind one, up to the brace that ends their object. -/
def fields? : (steps : Nat) → List Char → Option (List (String × Json) × List Char)
  | 0, _ => none
  | steps + 1, cs =>
    match skip cs with
    | ',' :: cs => do
      let (field, cs) ← member? steps cs
      (fields? steps cs).map fun (fields, rest) => (field :: fields, rest)
    | '\x7d' :: rest => some ([], rest)
    | _ => none

end

/-- The document in a text; `none` if the text is none. -/
def read? (s : String) : Option Json :=
  match value? s.toList.length s.toList with
  | some (j, rest) => if skip rest = [] then some j else none
  | none => none

end Json

end CxxFloor
