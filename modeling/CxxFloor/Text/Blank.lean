/-
# Blanks

Two notions of a blank are in use.  `isBlank` is the one of Unicode: it decides
what is trimmed from the ends of a text and what may follow the `#` of a
directive.  `isLayout` is the one of C++ source: only the six ASCII characters
that separate tokens.  The second is part of the first (`isBlank_of_isLayout`).
-/
import CxxFloor.Text.Alphanumeric

namespace CxxFloor

namespace Text

/-- A character that separates tokens of C++ source: the space, the tab, the two line ends,
the form feed and the vertical tab. -/
def isLayout (c : Char) : Bool :=
  c == ' ' || c == '\t' || c == '\r' || c == '\x0c' || c == '\x0b' || c == '\n'

/-- The blanks of Unicode, the four information separators of ASCII among them. -/
def blankRanges : List (Nat × Nat) :=
  [(0x09, 0x0D), (0x1C, 0x20), (0x85, 0x85), (0xA0, 0xA0), (0x1680, 0x1680), (0x2000, 0x200A),
   (0x2028, 0x2029), (0x202F, 0x202F), (0x205F, 0x205F), (0x3000, 0x3000)]

def isBlank (c : Char) : Bool := inRanges blankRanges c.toNat

theorem isBlank_of_isLayout {c : Char} (h : isLayout c = true) : isBlank c = true := by
  simp only [isLayout, Bool.or_eq_true, beq_iff_eq] at h
  rcases h with ((((rfl | rfl) | rfl) | rfl) | rfl) | rfl <;> decide

def trimEnd (cs : List Char) : List Char := (cs.reverse.dropWhile isBlank).reverse

def trim (cs : List Char) : List Char := trimEnd (cs.dropWhile isBlank)

end Text

end CxxFloor
