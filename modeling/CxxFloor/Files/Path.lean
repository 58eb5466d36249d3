/-
# Paths

Paths as they are spelled: names with slashes between them.  The plain
spelling of a path leaves out empty names and single dots, but keeps double
dots, whose meaning depends on what is there.
-/
import CxxFloor.Text.Fields

namespace CxxFloor

namespace Path

def names (path : String) : List String := (Text.fields '/' path.toList).map String.ofList

def isAbsolute (path : String) : Bool := path.toList.head? == some '/'

/-- The slashes that the plain spelling starts with.  Exactly two of them are kept. -/
def root (path : String) : String :=
  match (path.toList.takeWhile (· = '/')).length with
  | 0 => ""
  | 2 => "//"
  | _ => "/"

/-- The plain spelling of a path. -/
def plain (path : String) : String :=
  let kept := (names path).filter fun name => name ≠ "" && name ≠ "."
  if root path = "" && kept.isEmpty then "." else root path ++ "/".intercalate kept

/-- The plain spelling of what stands in the directory `path` under `below`. -/
def under (path : String) (below : List String) : String :=
  let base := plain path
  if base = "." then "/".intercalate below
  else if base.endsWith "/" then base ++ "/".intercalate below
  else base ++ "/" ++ "/".intercalate below

def isHidden (name : String) : Bool := name.toList.head? == some '.'

/-- The part of a name from its last dot on.  The dot must not be its first or last character. -/
def suffix (name : List Char) : List Char :=
  let tail := (name.reverse.takeWhile (· ≠ '.')).reverse
  if !tail.isEmpty && tail.length + 1 < name.length then '.' :: tail else []

end Path

end CxxFloor
