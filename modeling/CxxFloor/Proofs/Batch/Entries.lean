/-
# The entries of a batch

Each input of a batch becomes an entry of its own, whatever stands beside it
and whatever the signal still allows (`Plan.becomes_of_entries`).  So the
entries of a batch that is made are those of its inputs one by one, and where
nothing is cancelled the batch is made unless reading one of its inputs raises
an error (`Plan.entries_never`); the first such input decides the error
(`Plan.mapM_become_of_raises`).

The reports of a batch are those on the inputs that can be read, and its
failures are the other inputs (`Plan.reports_of_become`,
`Plan.failures_of_become`).
-/
import CxxFloor.Proofs.Run.Cancellation

namespace CxxFloor

namespace Input

/-- The text of an input that can be read. -/
def text? (t : FileTree) (codec : Codec) (i : Input) : Option String :=
  match i.read t codec with
  | .ok (.ok text) => some text
  | _ => none

/-- Why an input cannot be read. -/
def reason? (t : FileTree) (codec : Codec) (i : Input) : Option String :=
  match i.read t codec with
  | .ok (.error reason) => some reason
  | _ => none

theorem reason?_eq_none_iff {t : FileTree} {codec : Codec} {i : Input} (hi : i.Possible t codec) :
    i.reason? t codec = none ↔ (i.text? t codec).isSome = true := by
  obtain ⟨answer, hread⟩ := possible_iff.1 hi
  unfold reason? text?
  rw [hread]
  cases answer <;> simp

end Input

namespace Plan

variable {p : Plan} {i : Input} {is : List Input} {e : Entry} {es : List Entry}

/-- What an input becomes where nothing is cancelled. -/
def become (p : Plan) (i : Input) : Except Refusal Entry := do
  match ← i.read p.tree p.codec with
  | .ok text => pure (.report (p.job i text).report)
  | .error reason => pure (.failure (.unreadable i.name reason))

def Made (p : Plan) : Prop := ∃ c es disabled, Dispatcher.register c es disabled = .ok p.dispatcher

theorem Made.job (h : p.Made) (i : Input) (text : String) : (p.job i text).Made := h

/-! ## One input -/

/-- An input becomes an entry, or reading it raises an error. -/
theorem become_of_read (p : Plan) (i : Input) :
    (∃ text, i.read p.tree p.codec = .ok (.ok text) ∧
      p.become i = .ok (.report (p.job i text).report)) ∨
    (∃ reason, i.read p.tree p.codec = .ok (.error reason) ∧
      p.become i = .ok (.failure (.unreadable i.name reason))) ∨
    ∃ e, i.read p.tree p.codec = .error e ∧ p.become i = .error e := by
  cases hread : i.read p.tree p.codec with
  | error e => exact .inr (.inr ⟨e, rfl, by simp only [become, hread]; rfl⟩)
  | ok answer =>
      cases answer with
      | ok text => exact .inl ⟨text, rfl, by simp only [become, hread]; rfl⟩
      | error reason => exact .inr (.inl ⟨reason, rfl, by simp only [become, hread]; rfl⟩)

theorem become_eq_error_iff {e : Refusal} :
    p.become i = .error e ↔ i.Raises p.tree p.codec e := by
  rw [← Input.read_eq_error_iff]
  obtain ⟨text, hread, hbecome⟩ | ⟨reason, hread, hbecome⟩ | ⟨e', hread, hbecome⟩ :=
    p.become_of_read i
  all_goals
    rw [hread, hbecome]
    simp

theorem become_of_entry (hmade : p.Made) {signal after : Signal}
    (h : p.entry signal i = .ok (e, after)) : p.become i = .ok e := by
  unfold entry at h
  obtain ⟨text, hread, hbecome⟩ | ⟨reason, hread, hbecome⟩ | ⟨e', hread, -⟩ := p.become_of_read i
  · obtain ⟨hreports, hcancels⟩ := Run.execute_begun (hmade.job i text) signal
    rw [hread] at h
    cases hpass : signal.pass? (p.job i text).polls with
    | none =>
        obtain ⟨_, hrun, -⟩ := hcancels hpass
        have hrun :
            Run.execute { job := ⟨text, i.name, p.floor, p.dispatcher⟩, signal := signal } = _ :=
          hrun
        simp only [hrun, bind, Except.bind] at h
        cases h
    | some rest =>
        have hrun :
            Run.execute { job := ⟨text, i.name, p.floor, p.dispatcher⟩, signal := signal } = _ :=
          hreports rest hpass
        simp only [hrun, bind, Except.bind, pure, Except.pure, Except.ok.injEq, Prod.mk.injEq] at h
        rw [hbecome, h.1]
  · rw [hread] at h
    simp only [bind, Except.bind, pure, Except.pure, Except.ok.injEq, Prod.mk.injEq] at h
    rw [hbecome, h.1]
  · rw [hread] at h
    cases h

theorem entry_never (hmade : p.Made) (i : Input) :
    p.entry .never i = (p.become i).map fun e => (e, .never) := by
  unfold entry
  obtain ⟨text, hread, hbecome⟩ | ⟨reason, hread, hbecome⟩ | ⟨e, hread, hbecome⟩ :=
    p.become_of_read i
  · have hrun : Run.execute { job := ⟨text, i.name, p.floor, p.dispatcher⟩ } = _ :=
      Run.execute_never (hmade.job i text)
    rw [hread, hbecome]
    simp only [hrun, bind, Except.bind, pure, Except.pure, Except.map, job]
    rfl
  · rw [hread, hbecome]
    rfl
  · rw [hread, hbecome]
    rfl

/-! ## All inputs -/

theorem become_of_entries (hmade : p.Made) {signal : Signal} (h : p.entries signal is = .ok es) :
    List.Forall₂ (fun i e => p.become i = .ok e) is es := by
  induction is generalizing signal es with
  | nil =>
      obtain rfl : [] = es := Except.ok.inj h
      exact .nil
  | cons i is ih =>
      obtain ⟨⟨e, after⟩, hentry, h⟩ := exists_of_bind_eq_ok h
      obtain ⟨rest, hrest, h⟩ := exists_of_bind_eq_ok h
      obtain rfl : e :: rest = es := Except.ok.inj h
      exact .cons (become_of_entry hmade hentry) (ih hrest)

/-- Without a signal a batch is made of what its inputs become, unless one of them raises an
error. -/
theorem entries_never (hmade : p.Made) (is : List Input) :
    p.entries .never is = is.mapM p.become := by
  induction is with
  | nil => rfl
  | cons i is ih =>
      rw [List.mapM_cons, entries, entry_never hmade]
      cases p.become i with
      | error e => rfl
      | ok e =>
          show (p.entries .never is >>= fun rest => pure (e :: rest)) = _
          rw [ih]
          rfl

theorem mapM_become_of_raises {before after : List Input}
    (hbefore : ∀ j ∈ before, j.Possible p.tree p.codec) {e : Refusal}
    (hi : i.Raises p.tree p.codec e) : (before ++ i :: after).mapM p.become = .error e := by
  induction before with
  | nil =>
      rw [List.nil_append, List.mapM_cons, become_eq_error_iff.2 hi]
      rfl
  | cons j before ih =>
      obtain ⟨hj, hbefore⟩ := List.forall_mem_cons.1 hbefore
      rw [List.cons_append, List.mapM_cons, ih hbefore]
      cases hbecome : p.become j with
      | error e' => exact absurd (become_eq_error_iff.1 hbecome) (hj e')
      | ok e' => rfl

theorem entries_text (hmade : p.Made) (name text : String) :
    p.entries .never [⟨name, some text, none⟩] =
      .ok [.report (p.dispatcher.reportOn name text p.floor)] := by
  rw [entries_never hmade]
  rfl

theorem reports_of_become (h : List.Forall₂ (fun i e => p.become i = .ok e) is es) :
    es.filterMap Entry.report? =
      is.filterMap fun i => (i.text? p.tree p.codec).map fun text => (p.job i text).report := by
  induction h with
  | nil => rfl
  | @cons i e is es hbecome _ ih =>
      rw [List.filterMap_cons, List.filterMap_cons, ih, Input.text?]
      obtain ⟨text, hread, hreport⟩ | ⟨reason, hread, hfailure⟩ | ⟨_, -, hrefused⟩ :=
        p.become_of_read i
      · obtain rfl := Except.ok.inj (hreport.symm.trans hbecome)
        rw [hread]
        rfl
      · obtain rfl := Except.ok.inj (hfailure.symm.trans hbecome)
        rw [hread]
        rfl
      · rw [hrefused] at hbecome
        cases hbecome

theorem failures_of_become (h : List.Forall₂ (fun i e => p.become i = .ok e) is es) :
    es.filterMap Entry.failure? =
      is.filterMap fun i => (i.reason? p.tree p.codec).map (Failure.unreadable i.name) := by
  induction h with
  | nil => rfl
  | @cons i e is es hbecome _ ih =>
      rw [List.filterMap_cons, List.filterMap_cons, ih, Input.reason?]
      obtain ⟨text, hread, hreport⟩ | ⟨reason, hread, hfailure⟩ | ⟨_, -, hrefused⟩ :=
        p.become_of_read i
      · obtain rfl := Except.ok.inj (hreport.symm.trans hbecome)
        rw [hread]
        rfl
      · obtain rfl := Except.ok.inj (hfailure.symm.trans hbecome)
        rw [hread]
        rfl
      · rw [hrefused] at hbecome
        cases hbecome

end Plan

theorem Batch.length_reports_add_failures (b : Batch) :
    b.reports.length + b.failures.length = b.entries.length := by
  unfold reports failures
  induction b.entries with
  | nil => rfl
  | cons e es ih =>
      cases e with
      | report r =>
          show (es.filterMap _).length + 1 + (es.filterMap _).length = es.length + 1
          rw [← ih]
          omega
      | failure f =>
          show (es.filterMap _).length + ((es.filterMap _).length + 1) = es.length + 1
          rw [← ih]
          omega

end CxxFloor
