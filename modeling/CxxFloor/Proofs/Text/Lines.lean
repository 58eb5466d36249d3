/-
# Lines and columns

A position is computed by passing characters one after the other.  Here line
and column are read off the text instead: the line counts the line feeds before
an offset, the column the characters since the last of them.  The two ways
agree (`Position.after_eq_placeAt`), so a position carried along with an offset
can be checked against the text alone.

No two offsets of a text have the same line and the same column
(`Text.placeAt_inj`).  So a remark that has a line and a column only still says
where it belongs.
-/
import CxxFloor.Text.Position
import Mathlib.Data.List.Induction

namespace CxxFloor

namespace Text

def lineAt (cs : List Char) (n : Nat) : Nat := 1 + (cs.take n).count '\n'

/-- The column of an offset: one more than the characters between the last line feed before it,
or the start of the text, and the offset. -/
def columnAt (cs : List Char) (n : Nat) : Nat :=
  1 + ((cs.take n).reverse.takeWhile (· ≠ '\n')).length

def placeAt (cs : List Char) (n : Nat) : Position := ⟨n, lineAt cs n, columnAt cs n⟩

end Text

namespace Position

theorem after_line (p : Position) (cs : List Char) :
    (p.after cs).line = p.line + cs.count '\n' := by
  induction cs generalizing p with
  | nil => rfl
  | cons c cs ih =>
      rw [after_cons, ih, List.count_cons]
      unfold next
      by_cases hc : c = '\n'
      · simp [hc]; omega
      · simp [hc]

theorem after_column (p : Position) {cs : List Char} (h : '\n' ∉ cs) :
    (p.after cs).column = p.column + cs.length := by
  induction cs generalizing p with
  | nil => rfl
  | cons c cs ih =>
      obtain ⟨hc, hcs⟩ := not_or.1 (mt List.mem_cons.2 h)
      rw [after_cons, ih _ hcs, next, if_neg (Ne.symm hc), List.length_cons]
      dsimp only
      omega

theorem after_eq_placeAt (cs : List Char) : start.after cs = Text.placeAt cs cs.length := by
  induction cs using List.reverseRecOn with
  | nil => rfl
  | append_singleton cs c ih =>
      rw [after_append, ih, after_cons, after_nil]
      unfold Text.placeAt Text.lineAt Text.columnAt next
      rw [List.take_length, List.take_length, List.reverse_append, List.reverse_singleton,
        List.singleton_append, List.takeWhile_cons, List.count_append, List.length_append]
      by_cases hc : c = '\n'
      · simp [hc, Nat.add_assoc]
      · simp [hc]
        omega

end Position

namespace Text

variable {cs : List Char} {m n : Nat}

theorem after_take (h : n ≤ cs.length) : Position.start.after (cs.take n) = placeAt cs n := by
  have hlength : (cs.take n).length = n := List.length_take_of_le h
  rw [Position.after_eq_placeAt, hlength]
  unfold placeAt lineAt columnAt
  rw [List.take_take, Nat.min_self]

theorem after_prefix (before behind : List Char) :
    Position.start.after before = placeAt (before ++ behind) before.length := by
  rw [← after_take (by simp), List.take_left]

theorem exists_last_line (cs : List Char) : ∃ lines line, cs = lines ++ line ∧ '\n' ∉ line ∧
    (lines = [] ∨ lines.getLast? = some '\n') ∧
      line.length = (cs.reverse.takeWhile (· ≠ '\n')).length := by
  refine ⟨(cs.reverse.dropWhile (· ≠ '\n')).reverse, (cs.reverse.takeWhile (· ≠ '\n')).reverse,
    ?_, fun hmem => ?_, ?_, List.length_reverse⟩
  · rw [← List.reverse_append, List.takeWhile_append_dropWhile, List.reverse_reverse]
  · have := List.all_eq_true.1 List.all_takeWhile _ (List.mem_reverse.1 hmem)
    simp at this
  · rw [List.getLast?_reverse]
    have hhead := List.head?_dropWhile_not (fun c => decide (c ≠ '\n')) cs.reverse
    cases hlines : cs.reverse.dropWhile fun c => decide (c ≠ '\n') with
    | nil => exact .inl rfl
    | cons c lines =>
        rw [hlines] at hhead
        refine .inr (congrArg some ?_)
        simpa using hhead

theorem placeAt_lt (hlt : m < n) (h : n ≤ cs.length) :
    lineAt cs m < lineAt cs n ∨ lineAt cs m = lineAt cs n ∧ columnAt cs m < columnAt cs n := by
  obtain ⟨k, rfl⟩ := Nat.exists_eq_add_of_lt hlt
  -- the characters between the two offsets
  have hafter : placeAt cs (m + k + 1)
      = (placeAt cs m).after ((cs.drop m).take (k + 1)) := by
    rw [← after_take h, ← after_take (Nat.le_trans (Nat.le_of_lt hlt) h), ← Position.after_append,
      Nat.add_assoc, List.take_add]
  have hline := congrArg Position.line hafter
  rw [Position.after_line] at hline
  change lineAt cs (m + k + 1) = lineAt cs m + _ at hline
  by_cases hfeed : '\n' ∈ (cs.drop m).take (k + 1)
  · have := List.count_pos_iff.2 hfeed
    omega
  · have hcolumn := congrArg Position.column hafter
    rw [Position.after_column _ hfeed, List.length_take_of_le (by rw [List.length_drop]; omega)]
      at hcolumn
    change columnAt cs (m + k + 1) = columnAt cs m + (k + 1) at hcolumn
    rw [List.count_eq_zero_of_not_mem hfeed] at hline
    omega

theorem placeAt_inj (hm : m ≤ cs.length) (hn : n ≤ cs.length) (hline : lineAt cs m = lineAt cs n)
    (hcolumn : columnAt cs m = columnAt cs n) : m = n := by
  rcases Nat.lt_trichotomy m n with hlt | heq | hlt
  · have := placeAt_lt hlt hn
    omega
  · exact heq
  · have := placeAt_lt hlt hm
    omega

end Text

end CxxFloor
