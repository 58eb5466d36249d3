/-
# Flags

The options of the command line: their spellings, in the order in which they
are tried, and whether a value belongs to them.
-/

namespace CxxFloor

/-- The options of the command line. -/
inductive Flag where
  | help
  | floor
  | output
  | failOnUnknown
  | outputFile
  | jobs
  | disable
  | listFeatures
deriving DecidableEq, Repr

namespace Flag

def all : List Flag :=
  [help, floor, output, failOnUnknown, outputFile, jobs, disable, listFeatures]

/-- The spellings of a flag, the short one first. -/
def spellings : Flag → List String
  | help => ["-h", "--help"]
  | floor => ["--floor"]
  | output => ["-o", "--output"]
  | failOnUnknown => ["--fail-on-unknown"]
  | outputFile => ["-O", "--output-file"]
  | jobs => ["-j", "--jobs"]
  | disable => ["--disable"]
  | listFeatures => ["--list-features"]

/-- A value belongs to the flag. -/
def takesValue : Flag → Bool
  | help | failOnUnknown | listFeatures => false
  | _ => true

def title (f : Flag) : String := "/".intercalate f.spellings

def table : List (String × Flag) := all.flatMap fun f => f.spellings.map (·, f)

def ofSpelling? (s : String) : Option Flag := table.lookup s

end Flag

end CxxFloor
