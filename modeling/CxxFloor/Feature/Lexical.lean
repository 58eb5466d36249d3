/-
# Literal suffixes and directives

Two suffixes of numbers: the `z` of sizes on integers, and the widths of the
extended floating-point types.  A number is taken apart from the left; what is
left when its digits, and for a floating-point number its point and exponent,
are read is its suffix.  Digits may be of any script where C++ asks for a
decimal digit, and a digit separator counts as a digit except in front.

Preprocessor lines are recognised by their name: the word behind the `#`,
blanks in between.
-/
import CxxFloor.Feature.Verdict
import CxxFloor.Text.Alphanumeric
import CxxFloor.Text.Blank
import CxxFloor.Text.Quoted

namespace CxxFloor

namespace NumberForm

def isSeparator (c : Char) : Bool := c == Text.singleQuote

def continuesDecimal (c : Char) : Bool := Text.isDecimal c || isSeparator c

def continuesHexadecimal (c : Char) : Bool :=
  c.isDigit || ('a' ≤ c && c ≤ 'f') || ('A' ≤ c && c ≤ 'F') || isSeparator c

def continuesBinary (c : Char) : Bool := c == '0' || c == '1' || isSeparator c

/-- What follows the digits a number starts with; `none` if it starts with no digit. -/
def afterDigits? (continues : Char → Bool) (cs : List Char) : Option (List Char) :=
  if cs.head?.any continues then some (cs.dropWhile continues) else none

def afterDecimal? (cs : List Char) : Option (List Char) :=
  if cs.head?.any Text.isDecimal then some (cs.dropWhile continuesDecimal) else none

/-- What follows an integer. -/
def integerSuffix? (cs : List Char) : Option (List Char) :=
  match cs with
  | '0' :: 'x' :: rest | '0' :: 'X' :: rest => afterDigits? continuesHexadecimal rest
  | '0' :: 'b' :: rest | '0' :: 'B' :: rest => afterDigits? continuesBinary rest
  | _ => afterDecimal? cs

/-- What follows the digits of an exponent, its letter read. -/
def afterExponent? (cs : List Char) : Option (List Char) :=
  match cs with
  | '+' :: rest | '-' :: rest => afterDecimal? rest
  | _ => afterDecimal? cs

/-- What follows a decimal exponent, if one stands there. -/
def afterOptionalExponent (cs : List Char) : List Char :=
  match cs with
  | 'e' :: rest | 'E' :: rest => (afterExponent? rest).getD cs
  | _ => cs

/-- What follows a decimal floating-point number: digits around a point and perhaps an exponent,
or digits and an exponent. -/
def decimalFloatSuffix? (cs : List Char) : Option (List Char) :=
  match afterDecimal? cs with
  | some ('.' :: rest) => some (afterOptionalExponent (rest.dropWhile continuesDecimal))
  | some ('e' :: rest) | some ('E' :: rest) => afterExponent? rest
  | some _ => none
  | none =>
    match cs with
    | '.' :: rest => some (afterOptionalExponent (rest.dropWhile continuesDecimal))
    | _ => none

/-- What follows the exponent of a hexadecimal floating-point number. -/
def afterBinaryExponent? (cs : List Char) : Option (List Char) :=
  match cs with
  | 'p' :: rest | 'P' :: rest => afterExponent? rest
  | _ => none

/-- What follows a hexadecimal floating-point number, its `0x` read. -/
def hexadecimalFloatSuffix? (cs : List Char) : Option (List Char) :=
  match cs.dropWhile continuesHexadecimal with
  | '.' :: rest => afterBinaryExponent? (rest.dropWhile continuesHexadecimal)
  | rest => afterBinaryExponent? rest

/-- What follows a floating-point number. -/
def floatSuffix? (cs : List Char) : Option (List Char) :=
  match cs with
  | '0' :: 'x' :: rest | '0' :: 'X' :: rest => hexadecimalFloatSuffix? rest
  | _ => decimalFloatSuffix? cs

/-- The suffix is one of these, whatever its case. -/
def isOneOf (suffixes : List String) (suffix : List Char) : Bool :=
  suffixes.contains (String.ofList (suffix.map Char.toLower))

end NumberForm

def sizeSuffixes : List String := ["z", "uz", "zu"]

def extendedFloatSuffixes : List String := ["f16", "f32", "f64", "f128", "bf16"]

/-- An integer with the suffix of a size. -/
def examineSizeSuffix (v : View) : Verdict :=
  if (NumberForm.integerSuffix? v.text.toList).any (NumberForm.isOneOf sizeSuffixes) then
    .found none
  else .absent

/-- A floating-point number with the suffix of an extended type. -/
def examineFloatSuffix (v : View) : Verdict :=
  if (NumberForm.floatSuffix? v.text.toList).any (NumberForm.isOneOf extendedFloatSuffixes) then
    .found none
  else .absent

def sizeSuffix : Matcher := ⟨"size-literal-suffix", [.literal], examineSizeSuffix⟩

def extendedFloatSuffix : Matcher :=
  ⟨"extended-floating-literal-suffix", [.literal], examineFloatSuffix⟩

/-! ## Directives -/

/-- The name of a directive.  It starts with an ASCII letter or an underscore. -/
def directiveName? (cs : List Char) : Option String :=
  match cs with
  | '#' :: rest =>
    let name := (rest.dropWhile Text.isBlank).takeWhile Text.continuesWord
    if name.head?.any fun c => c == '_' || c.isAlpha then some (String.ofList name) else none
  | _ => none

def examineDirective (names : List String) (v : View) : Verdict :=
  if (directiveName? v.text.toList).any names.contains then .found none else .absent

def elifdefDirective : Matcher :=
  ⟨"elifdef-directive", [.directive], examineDirective ["elifdef", "elifndef"]⟩

def warningDirective : Matcher :=
  ⟨"warning-directive", [.directive], examineDirective ["warning"]⟩

end CxxFloor
