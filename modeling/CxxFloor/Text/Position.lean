/-
# Positions in a text

A position counts characters: an offset from 0, and a line and a column from
1.  Reading a line feed starts a line, and nothing else does.  Positions are
never carried through the token reader; they are computed afterwards from the
text that was passed (`Position.after`), so every position is right by
construction.
-/

namespace CxxFloor

/-- A place between two characters of a text. -/
structure Position where
  offset : Nat
  line : Nat
  column : Nat
deriving DecidableEq, Repr, Inhabited

namespace Position

def start : Position := ⟨0, 1, 1⟩

def next (p : Position) (c : Char) : Position :=
  if c = '\n' then ⟨p.offset + 1, p.line + 1, 1⟩ else ⟨p.offset + 1, p.line, p.column + 1⟩

/-- The place after the characters of `cs`. -/
def after (p : Position) (cs : List Char) : Position := cs.foldl next p

@[simp] theorem after_nil (p : Position) : p.after [] = p := rfl

@[simp] theorem after_cons (p : Position) (c : Char) (cs : List Char) :
    p.after (c :: cs) = (p.next c).after cs := rfl

@[simp] theorem after_append (p : Position) (cs ds : List Char) :
    p.after (cs ++ ds) = (p.after cs).after ds := by
  simp [after]

@[simp] theorem next_offset (p : Position) (c : Char) : (p.next c).offset = p.offset + 1 := by
  unfold next; split <;> rfl

@[simp] theorem after_offset (p : Position) (cs : List Char) :
    (p.after cs).offset = p.offset + cs.length := by
  induction cs generalizing p with
  | nil => rfl
  | cons c cs ih => simp [ih]; omega

end Position

def Text.slice (cs : List Char) (start stop : Nat) : String :=
  String.ofList ((cs.drop start).take (stop - start))

end CxxFloor
