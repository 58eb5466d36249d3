/-
# Cancelled in full or not at all

A run asks its signal once for each fragment while it scans, once behind the
last one, and once for each fragment while it matches (`Job.polls`).  A signal
that is given later than that changes nothing; one that is given before cancels
the run, and nothing of it is kept (`Run.execute_begun`).

The runs of a batch share one signal, so what they ask adds up, and inputs that
cannot be read add nothing.  A batch is therefore made in full or not at all
(`cancellation_is_all_or_nothing`), whatever the codecs.  Not every input is
listed, though: a path that no file can have and an error of a codec stop the
batch whatever the signal (`Input.Raises`, `null_in_path_stops_batch`).
-/
import CxxFloor.Batch
import CxxFloor.Proofs.Fragment.Window
import CxxFloor.Proofs.Run.Lifecycle
import Mathlib.Data.List.Forall2
import Mathlib.Algebra.GroupWithZero.Nat

namespace CxxFloor

/-! ## A run -/

def Job.polls (job : Job) : Nat := 2 * job.scan.fragments.length + 1

namespace Run

variable {job : Job} {signal : Signal}

/-- The run of a job passes all that it asks and reports, or it is cancelled. -/
theorem execute_begun (hmade : job.Made) (signal : Signal) :
    (∀ after, signal.pass? job.polls = some after →
      execute (Phase.begun.run job signal) = (.ok job.report, Phase.reported.run job after)) ∧
    (signal.pass? job.polls = none →
      ∃ p : Phase, execute (Phase.begun.run job signal) =
          (.error (.cancelled job.name), p.run job .given) ∧
        (p.run job .given).state = .cancelled) := by
  have hpolls : job.polls = (job.scan.fragments.length + 1) + job.scan.fragments.length := by
    rw [Job.polls]
    omega
  rw [hpolls, Signal.pass?_add]
  obtain ⟨middle, hfirst, hscan⟩ | ⟨hfirst, hscan⟩ := scan_begun job signal
  · rw [hfirst, Option.bind_some]
    obtain ⟨last, hsecond, hmatch⟩ | ⟨hsecond, hmatch⟩ := matchFragments_scanned job middle
    · refine ⟨fun after hafter => ?_, fun hnone => absurd (hsecond.symm.trans hnone) nofun⟩
      obtain rfl := Option.some.inj (hsecond.symm.trans hafter)
      rw [execute_of_ok hscan hmatch, report_matched hmade]
    · refine ⟨fun after hafter => absurd (hsecond.symm.trans hafter) nofun, fun _ => ?_⟩
      exact ⟨.stoppedMatching, execute_of_match_error hscan hmatch, rfl⟩
  · rw [hfirst]
    refine ⟨fun after hafter => (by cases hafter), fun _ => ?_⟩
    exact ⟨.stoppedScanning, execute_of_scan_error hscan, rfl⟩

theorem execute_never (hmade : job.Made) :
    execute (Phase.begun.run job .never) = (.ok job.report, Phase.reported.run job .never) :=
  (execute_begun hmade .never).1 _ (Signal.pass?_never _)

end Run

/-! ## An input -/

namespace Input

/-- Reading the input ends in an error that nothing provides for. -/
inductive Raises (t : FileTree) : Codec → Input → Refusal → Prop
  /-- The name of the encoding is refused before any file is opened. -/
  | name {name path className message : String} :
      Raises t (.barred className message) ⟨name, none, some path⟩ (.uncaught className message)
  /-- No file can have the path. -/
  | path {decode : List UInt8 → Decoded} {name path : String} (h : '\x00' ∈ path.toList) :
      Raises t (.decoder decode) ⟨name, none, some path⟩ .nullInPath
  /-- The codec fails on the bytes of the file. -/
  | bytes {decode : List UInt8 → Decoded} {name path className message : String}
      {bytes : List UInt8} (h : '\x00' ∉ path.toList) (hread : t.read path = .ok bytes)
      (hdecode : decode bytes = .fails className message) :
      Raises t (.decoder decode) ⟨name, none, some path⟩ (.uncaught className message)

def Possible (t : FileTree) (codec : Codec) (i : Input) : Prop := ∀ e, ¬ i.Raises t codec e

theorem read_eq_error_iff {t : FileTree} {codec : Codec} {i : Input} {e : Refusal} :
    i.read t codec = .error e ↔ i.Raises t codec e := by
  constructor
  · intro h
    obtain ⟨name, text, path⟩ := i
    cases text with
    | some text => cases h
    | none =>
        cases path with
        | none => cases h
        | some path =>
            have h : load t codec path = .error e := h
            unfold load at h
            split at h
            next => exact Except.error.inj h ▸ .name
            next decode =>
              split at h
              next hnull => exact Except.error.inj h ▸ .path (List.contains_iff_mem.1 hnull)
              next hnull =>
                split at h
                next => cases h
                next bytes hread =>
                  split at h
                  next => cases h
                  next => cases h
                  next hdecode =>
                    have hnull : '\x00' ∉ path.toList := fun hmem =>
                      hnull (List.contains_iff_mem.2 hmem)
                    exact Except.error.inj h ▸ .bytes hnull hread hdecode
  · intro h
    cases h with
    | name => rfl
    | path hnull => exact if_pos (List.contains_iff_mem.2 hnull)
    | bytes hnull hread hdecode =>
        refine (if_neg fun h => hnull (List.contains_iff_mem.1 h)).trans ?_
        simp only [hread, hdecode]

theorem possible_iff {t : FileTree} {codec : Codec} {i : Input} :
    i.Possible t codec ↔ ∃ answer, i.read t codec = .ok answer := by
  simp only [Possible, ← read_eq_error_iff]
  cases i.read t codec with
  | ok answer => simp
  | error e => simp

end Input

namespace Plan

def job (p : Plan) (i : Input) (text : String) : Job := ⟨text, i.name, p.floor, p.dispatcher⟩

/-- The number of times that an input asks: none if it cannot be read. -/
def polls (p : Plan) (i : Input) : Nat :=
  match i.read p.tree p.codec with
  | .ok (.ok text) => (p.job i text).polls
  | _ => 0

/-- What becomes of an input when nothing is cancelled: the report of its run, or a failure if it
cannot be read. -/
inductive Becomes (p : Plan) (i : Input) : Entry → Prop
  | report {text : String} {report : FileReport} (hread : i.read p.tree p.codec = .ok (.ok text))
      (hrun : ({ job := p.job i text } : Run).execute.1 = .ok report) :
      Becomes p i (.report report)
  | failure {reason : String} (hread : i.read p.tree p.codec = .ok (.error reason)) :
      Becomes p i (.failure (.unreadable i.name reason))

variable {p : Plan} {i : Input} {is : List Input}

/-- An input passes all that it asks and becomes an entry, or its run is cancelled. -/
theorem exists_entry (hmade : ∀ i text, (p.job i text).Made) (hi : i.Possible p.tree p.codec) :
    ∃ e, p.Becomes i e ∧ ∀ signal : Signal,
      (∀ after, signal.pass? (p.polls i) = some after → p.entry signal i = .ok (e, after)) ∧
      (signal.pass? (p.polls i) = none → p.entry signal i = .error (.cancelled i.name)) := by
  obtain ⟨answer, hread⟩ := Input.possible_iff.1 hi
  cases answer with
  | error reason =>
      have hpolls : p.polls i = 0 := by simp only [polls, hread]
      refine ⟨_, .failure hread, fun signal => ?_⟩
      rw [hpolls]
      refine ⟨fun after hafter => ?_, fun hnone => by cases hnone⟩
      obtain rfl := Option.some.inj hafter
      simp only [entry, hread, bind, Except.bind, pure, Except.pure]
  | ok text =>
      have hpolls : p.polls i = (p.job i text).polls := by simp only [polls, hread]
      have hnever := Run.execute_never (hmade i text)
      refine ⟨_, .report hread (congrArg Prod.fst hnever), fun signal => ?_⟩
      obtain ⟨hreports, hcancels⟩ := Run.execute_begun (hmade i text) signal
      have hentry : p.entry signal i =
          (Run.execute (Phase.begun.run (p.job i text) signal)).1.map fun report =>
            (.report report, (Run.execute (Phase.begun.run (p.job i text) signal)).2.signal) := by
        simp only [entry, hread, bind, Except.bind, pure, Except.pure]
        rfl
      rw [hpolls, hentry]
      refine ⟨fun after hafter => ?_, fun hnone => ?_⟩
      · rw [hreports after hafter]
        rfl
      · obtain ⟨_, hrun, -⟩ := hcancels hnone
        rw [hrun]
        rfl

/-! ## A batch -/

/-- The inputs that a batch starts with become entries, or the run of one of them is cancelled; the
others come behind them with what is left of the signal. -/
theorem exists_entries (hmade : ∀ i text, (p.job i text).Made)
    (his : ∀ i ∈ is, i.Possible p.tree p.codec) :
    ∃ es, List.Forall₂ p.Becomes is es ∧ ∀ (signal : Signal) (js : List Input),
      (∀ after, signal.pass? (is.map p.polls).sum = some after →
        p.entries signal (is ++ js) = (p.entries after js).map (es ++ ·)) ∧
      (signal.pass? (is.map p.polls).sum = none →
        ∃ i ∈ is, p.entries signal (is ++ js) = .error (.cancelled i.name)) := by
  induction is with
  | nil =>
      refine ⟨[], .nil, fun signal js => ?_⟩
      rw [List.map_nil, List.sum_nil]
      refine ⟨fun after hafter => ?_, fun hnone => by cases hnone⟩
      obtain rfl := Option.some.inj hafter
      rw [List.nil_append]
      cases p.entries signal js <;> rfl
  | cons i is ih =>
      obtain ⟨e, he, hentry⟩ := exists_entry hmade (his i List.mem_cons_self)
      obtain ⟨es, hes, hentries⟩ := ih fun j hj => his j (List.mem_cons_of_mem _ hj)
      refine ⟨e :: es, .cons he hes, fun signal js => ?_⟩
      obtain ⟨hpasses, hcancels⟩ := hentry signal
      rw [List.map_cons, List.sum_cons, Signal.pass?_add]
      cases hfirst : signal.pass? (p.polls i) with
      | none =>
          refine ⟨fun after hafter => (by cases hafter), fun _ => ⟨i, List.mem_cons_self, ?_⟩⟩
          simp only [List.cons_append, entries, hcancels hfirst, bind, Except.bind]
      | some middle =>
          obtain ⟨hrest, hstops⟩ := hentries middle js
          have hstep : p.entries signal (i :: is ++ js) =
              (p.entries middle (is ++ js)).map (e :: ·) := by
            simp only [List.cons_append, entries, hpasses middle hfirst, bind, Except.bind, pure,
              Except.pure]
            cases p.entries middle (is ++ js) <;> rfl
          rw [Option.bind_some, hstep]
          refine ⟨fun after hafter => ?_, fun hnone => ?_⟩
          · rw [hrest after hafter]
            cases p.entries after js <;> rfl
          · obtain ⟨j, hj, hstop⟩ := hstops hnone
            exact ⟨j, List.mem_cons_of_mem _ hj, by rw [hstop]; rfl⟩

/-- A batch of possible inputs is made in full, or the run of one of them is cancelled. -/
theorem entries_of_possible (hmade : ∀ i text, (p.job i text).Made)
    (his : ∀ i ∈ is, i.Possible p.tree p.codec) (k : Nat) :
    ∃ es, List.Forall₂ p.Becomes is es ∧ p.entries .never is = .ok es ∧
      ((is.map p.polls).sum ≤ k → p.entries ⟨some k⟩ is = .ok es) ∧
      (k < (is.map p.polls).sum → ∃ i ∈ is, p.entries ⟨some k⟩ is = .error (.cancelled i.name)) := by
  obtain ⟨es, hes, hentries⟩ := exists_entries hmade his
  have hall : ∀ signal after : Signal, signal.pass? (is.map p.polls).sum = some after →
      p.entries signal is = .ok es := by
    intro signal after hafter
    have := (hentries signal []).1 after hafter
    rw [List.append_nil] at this
    rw [this]
    exact congrArg Except.ok (List.append_nil es)
  refine ⟨es, hes, hall .never .never (Signal.pass?_never _), fun hle => ?_, fun hlt => ?_⟩
  · obtain ⟨after, hafter⟩ := Signal.exists_pass?_iff.2 hle
    exact hall _ after hafter
  · have := (hentries ⟨some k⟩ []).2 (Signal.pass?_eq_none hlt)
    rwa [List.append_nil] at this

/-- The first input whose reading ends in an error stops the batch, unless the run of one before it
is cancelled. -/
theorem entries_of_raises (hmade : ∀ i text, (p.job i text).Made) {before after : List Input}
    (hbefore : ∀ i ∈ before, i.Possible p.tree p.codec) {e : Refusal}
    (hi : i.Raises p.tree p.codec e) (k : Nat) :
    p.entries .never (before ++ i :: after) = .error e ∧
      ((before.map p.polls).sum ≤ k → p.entries ⟨some k⟩ (before ++ i :: after) = .error e) ∧
      (k < (before.map p.polls).sum →
        ∃ j ∈ before, p.entries ⟨some k⟩ (before ++ i :: after) = .error (.cancelled j.name)) := by
  obtain ⟨es, -, hentries⟩ := exists_entries hmade hbefore
  have hread := Input.read_eq_error_iff.2 hi
  have hstops : ∀ signal rest : Signal, signal.pass? (before.map p.polls).sum = some rest →
      p.entries signal (before ++ i :: after) = .error e := by
    intro signal rest hrest
    rw [(hentries signal (i :: after)).1 rest hrest]
    simp only [entries, entry, hread, bind, Except.bind, Except.map]
  refine ⟨hstops .never .never (Signal.pass?_never _), fun hle => ?_, fun hlt => ?_⟩
  · obtain ⟨rest, hrest⟩ := Signal.exists_pass?_iff.2 hle
    exact hstops _ rest hrest
  · exact (hentries ⟨some k⟩ (i :: after)).2 (Signal.pass?_eq_none hlt)

end Plan

/-- With a signal that is given after `k` questions a run reports exactly if `k` is at least
`2F + 1`, `F` the number of its fragments, and then what it reports without a signal; otherwise it
is cancelled.  Whatever the codecs, a batch whose inputs raise no error is made exactly if `k` is at
least the sum over the inputs that can be read, and then as it is without a signal; otherwise it is
cancelled, and no part of it is made.  The first input that raises an error stops a batch with it if
the inputs before it have not cancelled it. -/
theorem cancellation_is_all_or_nothing {c : Catalog} {ms : List Examiner} {disabled : List String}
    {d : Dispatcher} (hmake : Dispatcher.register c ms disabled = .ok d) (floor : Int) (k : Nat) :
    (∀ name text,
      let run (signal : Signal) : Run := { job := ⟨text, name, floor, d⟩, signal := signal }
      ∃ report, (run .never).execute.1 = .ok report ∧
        (2 * (scan name text).fragments.length + 1 ≤ k →
          (run ⟨some k⟩).execute.1 = .ok report) ∧
        (k < 2 * (scan name text).fragments.length + 1 →
          (run ⟨some k⟩).execute.1 = .error (.cancelled name) ∧
          (run ⟨some k⟩).execute.2.state = .cancelled)) ∧
    ∀ (p : Plan) (is : List Input), p.dispatcher = d →
      ((∀ i ∈ is, i.Possible p.tree p.codec) →
        ∃ es, List.Forall₂ p.Becomes is es ∧ p.entries .never is = .ok es ∧
          ((is.map p.polls).sum ≤ k → p.entries ⟨some k⟩ is = .ok es) ∧
          (k < (is.map p.polls).sum →
            ∃ i ∈ is, p.entries ⟨some k⟩ is = .error (.cancelled i.name))) ∧
      ∀ before i after e, is = before ++ i :: after →
        (∀ j ∈ before, j.Possible p.tree p.codec) → i.Raises p.tree p.codec e →
          p.entries .never is = .error e ∧
          ((before.map p.polls).sum ≤ k → p.entries ⟨some k⟩ is = .error e) ∧
          (k < (before.map p.polls).sum →
            ∃ j ∈ before, p.entries ⟨some k⟩ is = .error (.cancelled j.name)) := by
  refine ⟨fun name text => ?_, fun p is hd => ⟨fun his => ?_, ?_⟩⟩
  · have hmade : (⟨text, name, floor, d⟩ : Job).Made := ⟨c, ms, disabled, hmake⟩
    obtain ⟨hreports, hcancels⟩ := Run.execute_begun hmade ⟨some k⟩
    refine ⟨_, congrArg Prod.fst (Run.execute_never hmade), fun hle => ?_, fun hlt => ?_⟩
    · obtain ⟨after, hafter⟩ := Signal.exists_pass?_iff.2 hle
      exact congrArg Prod.fst (hreports after hafter)
    · obtain ⟨p, hrun, hstate⟩ := hcancels (Signal.pass?_eq_none hlt)
      exact ⟨congrArg Prod.fst hrun, (congrArg (fun answer => answer.2.state) hrun).trans hstate⟩
  · subst hd
    exact Plan.entries_of_possible (fun i text => ⟨c, ms, disabled, hmake⟩) his k
  · subst hd
    rintro before i after e rfl hbefore hi
    exact Plan.entries_of_raises (fun i text => ⟨c, ms, disabled, hmake⟩) hbefore hi k

/-- A text with one fragment asks three times: a run that is told to stop after the second question
is cancelled, after the third it is not. -/
theorem cancellation_is_all_or_nothing_literal :
    Dispatcher.make standardCatalog standardMatchers [] = .ok (.standard []) ∧
    (scan "a.cpp" "1uz").fragments.length = 1 ∧
    let run (signal : Signal) : Run :=
      { job := ⟨"1uz", "a.cpp", 20, .standard []⟩, signal := signal }
    ∃ report, (run .never).execute.1 = .ok report ∧ (run ⟨some 3⟩).execute.1 = .ok report ∧
      (run ⟨some 2⟩).execute.1 = .error (.cancelled "a.cpp") := by
  have hmake : Dispatcher.make standardCatalog standardMatchers [] = .ok (.standard []) :=
    Dispatcher.make_standard (by simp)
  have hlength : (scan "a.cpp" "1uz").fragments.length = 1 := by
    rw [scan_fragments_eq (by decide +kernel)]
    decide +kernel
  obtain ⟨report, hnever, hthree, -⟩ := (cancellation_is_all_or_nothing hmake 20 3).1 "a.cpp" "1uz"
  obtain ⟨-, -, -, htwo⟩ := (cancellation_is_all_or_nothing hmake 20 2).1 "a.cpp" "1uz"
  rw [hlength] at hthree htwo
  exact ⟨hmake, hlength, report, hnever, hthree (by decide), (htwo (by decide)).1⟩

/-- An input whose path holds the character with code zero stops a batch that is not cancelled and
asks nothing; with another path that leads to no file the same input is listed as a failure. -/
theorem null_in_path_stops_batch :
    (⟨.fresh "work", "utf-8", 20, .standard []⟩ : Plan).polls ⟨"a", none, some "a\x00b"⟩ = 0 ∧
    (⟨.fresh "work", "utf-8", 20, .standard []⟩ : Plan).entries ⟨some 0⟩
      [⟨"a", none, some "a\x00b"⟩] = .error .nullInPath ∧
    (⟨.fresh "work", "utf-8", 20, .standard []⟩ : Plan).entries ⟨some 0⟩
      [⟨"a", none, some "ab"⟩] =
        .ok [.failure (.unreadable "a" "No such file or directory")] := by
  have hnull : Input.read (.fresh "work") "utf-8" ⟨"a", none, some "a\x00b"⟩ =
      .error .nullInPath := by
    rfl
  have hmissing : Input.read (.fresh "work") "utf-8" ⟨"a", none, some "ab"⟩ =
      .ok (.error "No such file or directory") := by
    rfl
  refine ⟨?_, ?_, ?_⟩
  · simp only [Plan.polls, hnull]
  · simp only [Plan.entries, Plan.entry, hnull, bind, Except.bind]
  · simp only [Plan.entries, Plan.entry, hmissing, bind, Except.bind, pure, Except.pure]

end CxxFloor
