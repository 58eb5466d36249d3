/-
# Quoted text

Messages show a piece of input between quotes.  The quote is the single one,
unless the text holds a single quote and no double one.  The quote in use and
the backslash are escaped by a backslash, the tab and the two line ends have
escapes of their own, and a character that is not printable is written by
number with two, four or eight hexadecimal digits, as few as hold it.  The
digits are in lower case and of a fixed number.
-/
import CxxFloor.Text.Printable

namespace CxxFloor

namespace Text

def hexDigit (d : Nat) : Char :=
  if d < 10 then Char.ofNat (0x30 + d) else Char.ofNat (0x57 + d)

/-- The last `width` hexadecimal digits of `n`, the most significant first. -/
def hex : (width : Nat) → (n : Nat) → List Char
  | 0, _ => []
  | width + 1, n => hex width (n / 16) ++ [hexDigit (n % 16)]

@[simp] theorem length_hex (width n : Nat) : (hex width n).length = width := by
  induction width generalizing n with
  | zero => rfl
  | succ w ih => simp [hex, ih]

def singleQuote : Char := Char.ofNat 39

def quoteFor (cs : List Char) : Char :=
  if cs.contains singleQuote && !cs.contains '"' then '"' else singleQuote

/-- A character that cannot be shown, by number. -/
def escapeByNumber (n : Nat) : List Char :=
  if n < 0x100 then '\\' :: 'x' :: hex 2 n
  else if n < 0x10000 then '\\' :: 'u' :: hex 4 n
  else '\\' :: 'U' :: hex 8 n

/-- One character of a text shown between `quote`s. -/
def escape (quote c : Char) : List Char :=
  if c == quote || c == '\\' then ['\\', c]
  else if c == '\t' then ['\\', 't']
  else if c == '\n' then ['\\', 'n']
  else if c == '\r' then ['\\', 'r']
  else if isPrintable c then [c]
  else escapeByNumber c.toNat

/-- The text between quotes. -/
def quoted (cs : List Char) : List Char :=
  let quote := quoteFor cs
  quote :: cs.flatMap (escape quote) ++ [quote]

end Text

end CxxFloor
