/-
# Fields of a text

A text is cut at every occurrence of one character.  Between two occurrences
there is a field, possibly an empty one, so a text has always one field more
than separators (`length_fields`).
-/

namespace CxxFloor

namespace Text

/-- The fields of a text between the occurrences of `separator`. -/
def fields (separator : Char) : List Char → List (List Char)
  | [] => [[]]
  | c :: cs =>
    if c = separator then [] :: fields separator cs
    else
      match fields separator cs with
      | [] => [[c]]
      | f :: fs => (c :: f) :: fs

theorem fields_ne_nil (separator : Char) (cs : List Char) : fields separator cs ≠ [] := by
  cases cs with
  | nil => simp [fields]
  | cons c cs =>
    rw [fields]
    split
    · simp
    · split <;> simp

theorem length_fields (separator : Char) (cs : List Char) :
    (fields separator cs).length = cs.count separator + 1 := by
  induction cs with
  | nil => rfl
  | cons c cs ih =>
    by_cases h : c = separator
    · simp [fields, h, ih]
    · have hc : (c == separator) = false := by simp [h]
      simp only [fields, if_neg h, List.count_cons, hc]
      cases hf : fields separator cs with
      | nil => exact absurd hf (fields_ne_nil separator cs)
      | cons f fs => rw [hf] at ih; simpa using ih

end Text

end CxxFloor
