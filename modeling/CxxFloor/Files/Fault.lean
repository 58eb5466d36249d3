/-
# Faults of a path

Why a path cannot be opened, with the number, the class and the wording that
the operating system's interface gives each cause.
-/
import CxxFloor.Text.Quoted

namespace CxxFloor

/-- Why a path cannot be opened. -/
inductive FileFault where
  /-- A part of the path does not exist. -/
  | notFound
  /-- A file stands where the path needs a directory. -/
  | notDirectory
  /-- The path leads to a directory where a file is needed. -/
  | isDirectory
  /-- The path or a name in it has too many bytes. -/
  | nameTooLong
deriving DecidableEq, Repr

namespace FileFault

/-- The number of the cause. -/
def number : FileFault → Nat
  | notFound => 2
  | notDirectory => 20
  | isDirectory => 21
  | nameTooLong => 36

/-- The wording of the cause. -/
def reason : FileFault → String
  | notFound => "No such file or directory"
  | notDirectory => "Not a directory"
  | isDirectory => "Is a directory"
  | nameTooLong => "File name too long"

/-- The class of the cause. -/
def className : FileFault → String
  | notFound => "FileNotFoundError"
  | notDirectory => "NotADirectoryError"
  | isDirectory => "IsADirectoryError"
  | nameTooLong => "OSError"

/-- The full report on a path. -/
def report (f : FileFault) (path : String) : String :=
  "[Errno " ++ toString f.number ++ "] " ++ f.reason ++ ": "
    ++ String.ofList (Text.quoted path.toList)

end FileFault

end CxxFloor
