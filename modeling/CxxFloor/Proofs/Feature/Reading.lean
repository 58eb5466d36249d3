/-
# What the matchers read

A matcher is given a view and so knows nothing of places.  Of the view it reads
less than there is: the text only where the fragment is a literal or a
preprocessor line, and of the token before only whether `auto` is a type behind
it and whether it is a specifier.  Views that agree on the rest get the same
verdict from every standard matcher (`examine_congr`).
-/
import CxxFloor.Feature.Dispatch

namespace CxxFloor

/-- The fragment is judged by its text. -/
def FragmentKind.isSpelled : FragmentKind → Bool
  | literal | directive => true
  | _ => false

namespace View

def marksType (t : Lexeme) : Bool := beforeType.contains t.text

/-- What the matchers read of two views is the same. -/
structure Alike (v w : View) : Prop where
  kind : v.kind = w.kind
  lexemes : v.lexemes = w.lexemes
  text : v.kind.isSpelled = true → v.text = w.text
  type : v.previous.any marksType = w.previous.any marksType
  specifier : v.previous.any (·.isWordIn declarationSpecifiers)
    = w.previous.any (·.isWordIn declarationSpecifiers)
  next : v.next = w.next
  context : v.context = w.context

variable {v w : View}

theorem Alike.examinePlaceholder (h : v.Alike w) : examinePlaceholder v = examinePlaceholder w := by
  obtain ⟨kind, lexemes, text, previous, next, context⟩ := v
  obtain ⟨kind', lexemes', text', previous', next', context'⟩ := w
  obtain ⟨rfl, rfl, -, htype, hspecifier, rfl, rfl⟩ := h
  have htype' : previous.any (fun t => beforeType.contains t.text)
      = previous'.any (fun t => beforeType.contains t.text) := htype
  have hstart : mayStartDeclaration ⟨kind, lexemes, text, previous, next, context⟩
      = mayStartDeclaration ⟨kind, lexemes, text', previous', next, context⟩ := by
    unfold mayStartDeclaration
    rw [hspecifier]
  unfold CxxFloor.examinePlaceholder
  rw [htype', hstart]
  rfl

end View

/-- A standard matcher reaches the same verdict on views alike.  It reads the text only if it is
shown nothing else than fragments judged by their text. -/
theorem Matcher.examine_congr {m : Matcher} (hm : m ∈ standardMatchers) {v w : View}
    (hshown : m.kinds.contains v.kind = true) (h : v.Alike w) : m.examine v = m.examine w := by
  by_cases hp : m = placeholderCopy
  · subst hp
    exact h.examinePlaceholder
  obtain ⟨kind, lexemes, text, previous, next, context⟩ := v
  obtain ⟨kind', lexemes', text', previous', next', context'⟩ := w
  obtain ⟨rfl, rfl, htext, -, -, rfl, rfl⟩ := h
  have hspelled : text = text' ∨ ¬ kind.isSpelled = true := by
    by_cases hs : kind.isSpelled = true
    · exact .inl (htext hs)
    · exact .inr hs
  simp only [standardMatchers, List.mem_cons, List.not_mem_nil, or_false] at hm
  rcases hm with rfl | rfl | rfl | rfl | rfl | rfl | rfl | rfl | rfl | rfl | rfl | rfl | rfl |
    rfl | rfl | rfl | rfl | rfl | rfl | rfl | rfl | rfl
  any_goals rfl
  · exact absurd rfl hp
  -- the matchers of literals and of preprocessor lines are left
  all_goals
    rcases hspelled with rfl | hs
    · rfl
    · exfalso
      dsimp only at hshown
      revert hs hshown
      cases kind <;> decide

end CxxFloor
