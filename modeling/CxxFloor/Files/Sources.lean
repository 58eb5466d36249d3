/-
# Collecting source files

The source files that a path stands for: the file it leads to, whatever its
name, or all files below the directory it leads to that have a known
extension and are not hidden there.  They are listed in plain spelling, sorted
by their characters.
-/
import CxxFloor.Files.Tree

namespace CxxFloor

/-- The extensions of C++ sources and headers, in lower case. -/
def sourceExtensions : List String :=
  [".cpp", ".cc", ".cxx", ".c++", ".cppm", ".ixx", ".h", ".hh", ".hpp", ".hxx", ".h++", ".ipp",
   ".tpp", ".inl"]

/-- The name has the extension of a source.  The extensions are ASCII, and no other letter has one
of theirs for a lower case. -/
def isSourceName (name : String) : Bool :=
  sourceExtensions.contains (String.ofList ((Path.suffix name.toList).map Char.toLower))

def isVisibleSource (names : List String) : Bool :=
  !names.any Path.isHidden && names.getLast?.any isSourceName

namespace FileTree

/-- The path leads to a directory. -/
def isDirectory (t : FileTree) (path : String) : Except FileFault Bool :=
  match t.locate (Path.plain path) with
  | .ok (_, node) => .ok node.isDirectory
  | .error .nameTooLong => .error .nameTooLong
  | .error _ => .ok false

/-- The source files that a path stands for. -/
def sources (t : FileTree) (path : String) : List String :=
  match t.locate (Path.plain path) with
  | .error _ => []
  | .ok (_, .file _) => [Path.plain path]
  | .ok (_, node) =>
    ((node.files.filter isVisibleSource).map (Path.under path)).mergeSort
      fun a b => decide (a ≤ b)

end FileTree

end CxxFloor
