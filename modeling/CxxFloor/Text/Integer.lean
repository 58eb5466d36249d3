/-
# Integers in text

What a setting that is a number may hold: blanks at either end, a sign, and
decimal digits of any script, which single underscores may separate
(`Text.readInteger`).  A run of more than 4300 digits is refused whatever
follows it; anything else that is not of this form is refused with the text
itself.  An integer of more digits is not written either.
-/
import CxxFloor.Text.Alphanumeric
import CxxFloor.Text.Blank
import CxxFloor.Text.Quoted

namespace CxxFloor

namespace Text

/-- Why a text is not an integer, or an integer gets no text. -/
inductive IntegerFault where
  | malformed (text : String)
  | tooLong (digits : Nat)
  | unwritable (limit : Nat)
deriving DecidableEq, Repr

def maxIntegerDigits : Nat := 4300

/-- The quoted text is cut after this many characters in a message. -/
def maxQuotedInteger : Nat := 200

/-- The wording of a refusal. -/
def IntegerFault.message : IntegerFault → String
  | .malformed text =>
    "invalid literal for int() with base 10: "
      ++ String.ofList ((quoted text.toList).take maxQuotedInteger)
  | .tooLong digits =>
    "Exceeds the limit (" ++ toString maxIntegerDigits
      ++ " digits) for integer string conversion: value has " ++ toString digits
      ++ " digits; use sys.set_int_max_str_digits() to increase the limit"
  | .unwritable limit =>
    "Exceeds the limit (" ++ toString limit
      ++ " digits) for integer string conversion; use sys.set_int_max_str_digits() to increase the limit"

def fitsDigits (k : Nat) (n : Int) : Bool := (Nat.toDigits 10 n.natAbs).length ≤ k

/-- A blank that may stand around an integer: a separator of source tokens, or a blank beyond
ASCII. -/
def isIntegerBlank (c : Char) : Bool :=
  isLayout c || (0x80 ≤ c.toNat && isBlank c)

/-- The digits a run starts with, by value, and what follows them.  One underscore may stand
between two digits; `none` if an underscore stands anywhere else. -/
def digitRun? : List Char → Option (List Nat × List Char)
  | [] => some ([], [])
  | c :: cs =>
    match decimalValue? c with
    | none => if c == '_' then none else some ([], c :: cs)
    | some d =>
      match cs with
      | '_' :: e :: rest =>
        if (decimalValue? e).isSome then (digitRun? (e :: rest)).map fun (ds, r) => (d :: ds, r)
        else none
      | ['_'] => none
      | rest => (digitRun? rest).map fun (ds, r) => (d :: ds, r)

/-- The number with these decimal digits, the most significant first. -/
def ofDigits (ds : List Nat) : Nat := ds.foldl (fun n d => 10 * n + d) 0

/-- The sign a text starts with, and the rest. -/
def signOf : List Char → Bool × List Char
  | '-' :: cs => (true, cs)
  | '+' :: cs => (false, cs)
  | cs => (false, cs)

/-- The integer a text holds. -/
def readInteger (text : String) : Except IntegerFault Int :=
  let (negative, body) := signOf (text.toList.dropWhile isIntegerBlank)
  match digitRun? body with
  | none => .error (.malformed text)
  | some (ds, rest) =>
    if maxIntegerDigits < ds.length then .error (.tooLong ds.length)
    else if ds.isEmpty || !rest.all isIntegerBlank then .error (.malformed text)
    else .ok (if negative then -(ofDigits ds : Int) else ofDigits ds)

end Text

end CxxFloor
