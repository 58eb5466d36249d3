/-
# The command line

The outermost layer.  It looks at the places in the file system that the
arguments name, hands what it saw to `Program.run`, and gives out what comes
back.
-/
import CxxFloor.CommandLine.Help
import CxxFloor.Program

namespace CxxFloor

namespace Snapshot

def spelled (place : List String) : String := "/" ++ "/".intercalate place

/-- The tree with what stands at a place. -/
def look (t : FileTree) (place : List String) : IO FileTree := do
  let path := (← IO.currentDir) / spelled place
  if ← path.isDir then
    if (t.root.find? place).isSome then return t
    return { t with root := t.root.put place .empty }
  if ← path.pathExists then
    return { t with root := t.root.put place (.file (← IO.FS.readBinFile path).toList) }
  return t

/-- The tree with the sources below a directory that are not hidden. -/
partial def lookBelow (t : FileTree) (place : List String) : IO FileTree := do
  let path := (← IO.currentDir) / spelled place
  let mut t := t
  for entry in ← path.readDir do
    let name := entry.fileName
    if Path.isHidden name then continue
    let inside := place ++ [name]
    if ← entry.path.isDir then
      if (← entry.path.symlinkMetadata).type != .symlink then t ← lookBelow t inside
    else if isSourceName name then t ← look t inside
  return t

/-- The tree with what stands along a path, and below it if it leads to a directory. -/
def follow (t : FileTree) (path : String) (below : Bool) : IO FileTree := do
  let mut t := t
  let mut place := t.origin path
  for name in Path.names path do
    place := FileTree.enter place name
    t ← look t place
  if below && (t.root.find? place).any (·.isDirectory) then t ← lookBelow t place
  return t

/-- The working directory. -/
def start : IO FileTree := do
  let here := (Path.names (← IO.currentDir).toString).filter (· ≠ "")
  return ⟨FileNode.empty.put here .empty, here⟩

/-- The tree as far as the arguments name it. -/
def ofArguments (a : Arguments) : IO FileTree := do
  let mut t ← start
  for path in a.paths do
    if path ≠ "-" then t ← follow t path true
  if let some path := a.outputFile then t ← follow t path false
  return t

/-- The variables that settings are read from. -/
def environment : IO Environment := do
  let names :=
    ["STDGATE_FLOOR", "STDGATE_FORMAT", "STDGATE_FAIL_ON_UNKNOWN", "STDGATE_JOBS",
     "STDGATE_ENCODING", "STDGATE_DISABLE", "STDGATE_NO_COLORS"]
  names.filterMapM fun name => do return (← IO.getEnv name).map (name, ·)

/-- The lines of a stream up to its end. -/
partial def readAll (stream : IO.FS.Stream) (before : String) : IO String := do
  let line ← stream.getLine
  if line.isEmpty then return before
  readAll stream (before ++ line)

/-- The standard input, if one of the paths asks for it. -/
def standardInput (a : Arguments) : IO String := do
  if a.paths.contains "-" then
    let text ← readAll (← IO.getStdin) ""
    return String.ofList (Text.unifyLineEnds text.toList)
  return ""

end Snapshot

/-- What the program starts with on this machine. -/
def surroundings (arguments : List String) : IO Surroundings := do
  let environment ← Snapshot.environment
  match Request.parse arguments with
  | .ok (.act a) =>
    return ⟨arguments, environment, ← Snapshot.standardInput a, ← Snapshot.ofArguments a⟩
  | _ => return ⟨arguments, environment, "", ← Snapshot.start⟩

/-- What a finished program leaves behind is given out. -/
def Leavings.giveOut (l : Leavings) : IO UInt32 := do
  for line in l.log do IO.eprintln line
  if let some (path, text) := l.written then IO.FS.writeFile path text
  IO.print l.output
  return l.exitCode.toUInt32

end CxxFloor

/-- The program on this machine. -/
def main (arguments : List String) : IO UInt32 := do
  match CxxFloor.Program.run (← CxxFloor.surroundings arguments) with
  | .help =>
    IO.print CxxFloor.helpText
    return 0
  | .usage fault =>
    IO.eprint (CxxFloor.usageText ++ fault.line ++ "\n")
    return 2
  | .done leavings => leavings.giveOut
