/-
# File trees

The files a program can see: a tree of directories with a place in it where
the program works.  A path is resolved name by name, and each name but the
last has to lead to a directory; an empty name and a single dot stay where
they are, a double dot goes up.
-/
import CxxFloor.Files.Fault
import CxxFloor.Files.Path

namespace CxxFloor

/-- A file with its bytes, or a directory with its entries by name. -/
inductive FileNode where
  | file (bytes : List UInt8)
  | directory (entries : List (String × FileNode))

namespace FileNode

def empty : FileNode := directory []

/-- The entries of a directory; a file has none. -/
def entries : FileNode → List (String × FileNode)
  | file _ => []
  | directory es => es

/-- The node is a directory. -/
def isDirectory : FileNode → Bool
  | file _ => false
  | directory _ => true

def child? (n : FileNode) (name : String) : Option FileNode := n.entries.lookup name

/-- What is found by following names downwards. -/
def find? : FileNode → List String → Option FileNode
  | n, [] => some n
  | n, name :: names => (n.child? name).bind (find? · names)

/-- The entries with one of them set. -/
def setEntry (name : String) (n : FileNode) (es : List (String × FileNode)) :
    List (String × FileNode) :=
  (name, n) :: es.filter (·.1 ≠ name)

/-- The node with `new` put where the names lead; directories on the way are made as needed. -/
def put : FileNode → List String → FileNode → FileNode
  | _, [], new => new
  | n, name :: names, new =>
    directory (setEntry name (put ((n.child? name).getD empty) names new) n.entries)

mutual

/-- The names that lead to each file. -/
def files : FileNode → List (List String)
  | file _ => [[]]
  | directory es => filesAmong es

/-- The names that lead to each file of these entries. -/
def filesAmong : List (String × FileNode) → List (List String)
  | [] => []
  | (name, n) :: es => n.files.map (name :: ·) ++ filesAmong es

end

end FileNode

/-- A tree of files and the place in it where the program works, by the names from the root. -/
structure FileTree where
  root : FileNode
  workingDirectory : List String

namespace FileTree

/-- The tree with nothing but its working directory, which has this name. -/
def fresh (name : String) : FileTree := ⟨FileNode.empty.put [name] .empty, [name]⟩

/-- The names that a path, taken from the working directory, spells out. -/
def placed (t : FileTree) (path : String) : List String :=
  t.workingDirectory ++ (Path.names path).filter fun name => name ≠ "" && name ≠ "."

/-- The tree with a file made at a path, and the directories it needs. -/
def withFile (t : FileTree) (path : String) (bytes : List UInt8) : FileTree :=
  { t with root := t.root.put (t.placed path) (.file bytes) }

/-- The tree with a directory made at a path, and those it needs. -/
def withDirectory (t : FileTree) (path : String) : FileTree :=
  if (t.root.find? (t.placed path)).isSome then t
  else { t with root := t.root.put (t.placed path) .empty }

def maxNameBytes : Nat := 255

def maxPathBytes : Nat := 4095

/-- The place that a name leads to from the place `here`. -/
def enter (here : List String) (name : String) : List String :=
  if name = "" || name = "." then here
  else if name = ".." then here.dropLast
  else here ++ [name]

/-- The place that names lead to from the place `here`. -/
def walk (t : FileTree) (here : List String) : List String → Except FileFault (List String)
  | [] => .ok here
  | name :: names =>
    match t.root.find? here with
    | none => .error .notFound
    | some node =>
      if !node.isDirectory then .error .notDirectory
      else if maxNameBytes < name.utf8ByteSize then .error .nameTooLong
      else t.walk (enter here name) names

def origin (t : FileTree) (path : String) : List String :=
  if Path.isAbsolute path then [] else t.workingDirectory

/-- What stands at a path, and where that is. -/
def locate (t : FileTree) (path : String) : Except FileFault (List String × FileNode) := do
  if path = "" then throw .notFound
  if maxPathBytes < path.utf8ByteSize then throw .nameTooLong
  let place ← t.walk (t.origin path) (Path.names path)
  match t.root.find? place with
  | some node => pure (place, node)
  | none => throw .notFound

/-- The bytes of the file at a path. -/
def read (t : FileTree) (path : String) : Except FileFault (List UInt8) := do
  match ← t.locate path with
  | (_, .file bytes) => pure bytes
  | (_, .directory _) => throw .isDirectory

/-- The directory that a file to be written at these names stands in.  They may not end in a name
that means a directory. -/
def folder (t : FileTree) (path : String) (front : List String) (last : String) :
    Except FileFault (List String) := do
  let place ← t.walk (t.origin path) front
  match t.root.find? place with
  | none => throw .notFound
  | some node => if !node.isDirectory then throw .notDirectory
  if last = "" || last = "." || last = ".." then throw .isDirectory
  if maxNameBytes < last.utf8ByteSize then throw .nameTooLong
  pure place

/-- The names of a path up to its last one, and that one; slashes at the end count as one empty
name. -/
def splitLast (path : String) : List String × String :=
  let names := (Path.names path).reverse
  match names.dropWhile (· = "") with
  | [] => ([], "")
  | last :: front =>
    if names.head? = some "" then (front.reverse, "") else (front.reverse, last)

/-- The tree with a file written at a path. -/
def write (t : FileTree) (path : String) (bytes : List UInt8) : Except FileFault FileTree := do
  if path = "" then throw .notFound
  if maxPathBytes < path.utf8ByteSize then throw .nameTooLong
  let (front, last) := splitLast path
  let place := (← t.folder path front last) ++ [last]
  if ((t.root.find? place).any (·.isDirectory)) then throw .isDirectory
  pure { t with root := t.root.put place (.file bytes) }

end FileTree

end CxxFloor
