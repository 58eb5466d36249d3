/-
# Words of a command line

Every word is sorted before any is acted on: it is an operand, it names a
flag, perhaps with a value attached, or it looks like a flag and names none.
A long spelling may be cut short as long as one flag is meant.  The first `--`
makes operands of all words behind it.
-/
import CxxFloor.CommandLine.Fault
import CxxFloor.Text.Alphanumeric

namespace CxxFloor

/-- A value written in one word with its flag, and whether an equals sign joins them. -/
structure Attached where
  value : List Char
  joined : Bool
deriving DecidableEq, Repr

/-- What a word is. -/
inductive Role where
  /-- A path, or the value of the flag before it. -/
  | operand
  /-- The `--` that makes operands of what follows. -/
  | separator
  /-- A flag; `short` tells its kind of spelling. -/
  | flag (f : Flag) (short : Bool) (attached : Option Attached)
  /-- It looks like a flag and is none. -/
  | unknown
deriving DecidableEq, Repr

/-- A word and what it is. -/
structure Word where
  text : String
  role : Role
deriving DecidableEq, Repr

namespace Word

def isShort (spelling : String) : Bool := (spelling.toList.drop 1).head? != some '-'

/-- The characters before the first equals sign, and those behind it if there is one. -/
def splitEquals (cs : List Char) : List Char × Option (List Char) :=
  match cs.dropWhile (· ≠ '=') with
  | [] => (cs, none)
  | _ :: value => (cs.takeWhile (· ≠ '='), some value)

/-- The flag that the first two characters spell, the rest attached. -/
def cluster? (cs : List Char) : Option Role :=
  (Flag.ofSpelling? (String.ofList (cs.take 2))).map fun f =>
    .flag f true (some ⟨cs.drop 2, false⟩)

def completions (cs : List Char) : List (String × Flag) :=
  Flag.table.filter fun entry => cs.isPrefixOf entry.1.toList

/-- A number below zero, with or without a fraction; a line feed may follow it. -/
def isNegativeNumber (cs : List Char) : Bool :=
  match cs with
  | '-' :: body =>
    let digits := body.takeWhile Text.isDecimal
    let ends (rest : List Char) : Bool := rest.isEmpty || rest == ['\n']
    match body.dropWhile Text.isDecimal with
    | '.' :: rest =>
      !(rest.takeWhile Text.isDecimal).isEmpty && ends (rest.dropWhile Text.isDecimal)
    | rest => !digits.isEmpty && ends rest
  | _ => false

def unspelledRole (cs : List Char) : Role :=
  if isNegativeNumber cs || cs.contains ' ' then .operand else .unknown

/-- A word that starts with two hyphens: it may abbreviate a flag. -/
def longRole (cs : List Char) : Except UsageFault Role :=
  let (front, value) := splitEquals cs
  match completions front with
  | [] => .ok (unspelledRole cs)
  | [(spelling, f)] => .ok (.flag f (isShort spelling) (value.map (⟨·, true⟩)))
  | several => .error (.ambiguous (String.ofList cs) (several.map (·.1)))

/-- A word that starts with a hyphen and spells no flag as it stands. -/
def hyphenRole (cs : List Char) : Except UsageFault Role :=
  match splitEquals cs with
  | (front, some value) =>
    match Flag.ofSpelling? (String.ofList front) with
    | some f => .ok (.flag f (isShort (String.ofList front)) (some ⟨value, true⟩))
    | none => partialRole cs
  | (_, none) => partialRole cs
where
  /-- Neither the word nor what stands before its equals sign spells a flag. -/
  partialRole (cs : List Char) : Except UsageFault Role :=
    match cs with
    | '-' :: '-' :: _ => longRole cs
    | _ => .ok ((cluster? cs).getD (unspelledRole cs))

/-- What a word is, if no `--` stands before it. -/
def roleOf (text : String) : Except UsageFault Role :=
  match text.toList with
  | '-' :: c :: cs =>
    match Flag.ofSpelling? text with
    | some f => .ok (.flag f (isShort text) none)
    | none => hyphenRole ('-' :: c :: cs)
  | _ => .ok .operand

/-- The words of a command line, sorted. -/
def sorted : List String → Except UsageFault (List Word)
  | [] => .ok []
  | text :: texts =>
    if text = "--" then .ok (⟨text, .separator⟩ :: texts.map (⟨·, .operand⟩))
    else do
      let r ← roleOf text
      pure (⟨text, r⟩ :: (← sorted texts))

end Word

end CxxFloor
