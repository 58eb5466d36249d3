/-
# How often a run asks its signal

The two loops of a run ask the signal at every fragment, and the first of them
once more at its end.  So what they do is decided by one number of questions
each: one more than there are fragments while the run scans (`Run.collect_eq`),
and as many as there are fragments while it matches (`Run.examineAll_eq`).
-/
import CxxFloor.Run.Basic

namespace CxxFloor

namespace Signal

variable {m n k : Nat}

/-- The signal behind `n` questions that are all answered by no; `none` if one is not. -/
def pass? : (n : Nat) → Signal → Option Signal
  | 0, signal => some signal
  | n + 1, signal => signal.ask?.bind (pass? n)

theorem pass?_add (m n : Nat) (signal : Signal) :
    signal.pass? (m + n) = (signal.pass? m).bind (pass? n) := by
  induction m generalizing signal with
  | zero => rw [Nat.zero_add, pass?, Option.bind_some]
  | succ m ih =>
      rw [Nat.succ_add, pass?, pass?]
      cases signal.ask? with
      | none => rfl
      | some next => exact ih next

@[simp] theorem pass?_never (n : Nat) : never.pass? n = some never := by
  induction n with
  | zero => rfl
  | succ n ih => exact ih

theorem pass?_some (n k : Nat) :
    (⟨some k⟩ : Signal).pass? n = if n ≤ k then some ⟨some (k - n)⟩ else none := by
  induction n generalizing k with
  | zero => rfl
  | succ n ih =>
      cases k with
      | zero => rfl
      | succ k =>
          show pass? n ⟨some k⟩ = _
          rw [ih, Nat.add_sub_add_right]
          simp only [Nat.add_le_add_iff_right]

theorem exists_pass?_iff : (∃ after, (⟨some k⟩ : Signal).pass? n = some after) ↔ n ≤ k := by
  rw [pass?_some]
  split <;> simp_all

theorem pass?_eq_none (h : k < n) : (⟨some k⟩ : Signal).pass? n = none := by
  rw [pass?_some, if_neg (Nat.not_le_of_lt h)]

end Signal

namespace Run

theorem collect_eq (signal : Signal) (fs : List Fragment) :
    collect signal fs = (signal.pass? (fs.length + 1)).map fun after => (fs, after) := by
  induction fs generalizing signal with
  | nil =>
      show (signal.ask? >>= fun next => pure ([], next)) = (signal.ask?.bind some).map _
      cases signal.ask? <;> rfl
  | cons f fs ih =>
      show (signal.ask? >>= fun next => collect next fs >>= fun rest =>
        pure (f :: rest.1, rest.2)) = (signal.ask?.bind (Signal.pass? (fs.length + 1))).map _
      cases signal.ask? with
      | none => rfl
      | some next =>
          show (collect next fs >>= _) = (next.pass? (fs.length + 1)).map _
          rw [ih]
          cases next.pass? (fs.length + 1) <;> rfl

theorem examineAll_eq (d : Dispatcher) (signal : Signal) (fs : List Fragment) :
    examineAll d signal fs = (signal.pass? fs.length).map fun after => (d.run fs, after) := by
  induction fs generalizing signal with
  | nil => rfl
  | cons f fs ih =>
      show (signal.ask? >>= fun next => examineAll d next fs >>= fun rest =>
        pure ((d.examine f).append rest.1, rest.2))
          = (signal.ask?.bind (Signal.pass? fs.length)).map _
      cases signal.ask? with
      | none => rfl
      | some next =>
          show (examineAll d next fs >>= _) = (next.pass? fs.length).map _
          rw [ih]
          -- what a list of fragments gives is what the first gives and the rest behind it
          cases next.pass? fs.length <;> rfl

end Run

end CxxFloor
