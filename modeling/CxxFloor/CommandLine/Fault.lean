/-
# Faults of a command line

Why a command line is refused, and the line that says so.
-/
import CxxFloor.CommandLine.Flag
import CxxFloor.Error

namespace CxxFloor

/-- Why a command line is refused. -/
inductive UsageFault where
  /-- The word abbreviates several flags. -/
  | ambiguous (word : String) (spellings : List String)
  /-- The value of a flag is missing. -/
  | missingValue (flag : Flag)
  /-- A flag without a value was given one. -/
  | unexpectedValue (flag : Flag) (value : String)
  /-- The report format is none of those offered. -/
  | invalidChoice (value : String)
  /-- The number of jobs is no integer. -/
  | invalidInteger (value : String)
  /-- The words mean nothing. -/
  | unrecognized (words : List String)
  /-- No path is given. -/
  | noPath
  /-- A setting is refused. -/
  | setting (refusal : Refusal)
deriving DecidableEq, Repr

namespace UsageFault

def choices : List String := ["human", "machine", "json"]

def quoted (s : String) : String := String.ofList (Text.quoted s.toList)

def about (f : Flag) (s : String) : String := "argument " ++ f.title ++ ": " ++ s

/-- The wording of a fault. -/
def message : UsageFault → String
  | ambiguous word spellings =>
    "ambiguous option: " ++ word ++ " could match " ++ ", ".intercalate spellings
  | missingValue f => about f "expected one argument"
  | unexpectedValue f value => about f ("ignored explicit argument " ++ quoted value)
  | invalidChoice value =>
    about .output ("invalid choice: " ++ quoted value ++ " (choose from "
      ++ ", ".intercalate (choices.map quoted) ++ ")")
  | invalidInteger value => about .jobs ("invalid int value: " ++ quoted value)
  | unrecognized words => "unrecognized arguments: " ++ " ".intercalate words
  | noPath => "at least one path is required (or use --list-features)"
  | setting refusal => refusal.message

def line (f : UsageFault) : String := "stdgate: error: " ++ f.message

end UsageFault

end CxxFloor
