/-
# Inputs

What is to be classified, and how its text is come by: it is given, or it is
read from a file in some encoding.  An input that cannot be read is no reason
to stop.  Everything is stopped by a path that no file can have, and by an
error of the codec that is no statement about the bytes.
-/
import CxxFloor.Error
import CxxFloor.Files.Tree
import CxxFloor.Text.Encoding

namespace CxxFloor

/-- A source to classify: a text, or the path of a file.  A text wins over a path. -/
structure Input where
  name : String
  text : Option String := none
  path : Option String := none
deriving DecidableEq, Repr

namespace Input

def ofPath (path : String) : Input := { name := path, path := some path }

/-- The text of the file at a path, or why there is none. -/
def load (t : FileTree) (codec : Codec) (path : String) :
    Except Refusal (Except String String) :=
  match codec with
  | .barred className message => .error (.uncaught className message)
  | .decoder decode =>
    if path.toList.contains '\x00' then .error .nullInPath
    else
      match t.read path with
      | .error fault => .ok (.error fault.reason)
      | .ok bytes =>
        match decode bytes with
        | .text cs => .ok (.ok (String.ofList (Text.unifyLineEnds cs)))
        | .unreadable reason => .ok (.error reason)
        | .fails className message => .error (.uncaught className message)

/-- The text of an input, or why there is none. -/
def read (t : FileTree) (codec : Codec) (i : Input) : Except Refusal (Except String String) :=
  match i.text, i.path with
  | some text, _ => .ok (.ok text)
  | none, some path => load t codec path
  | none, none => .ok (.error "no text or path given")

end Input

end CxxFloor
