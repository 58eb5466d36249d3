/-
# The life of a run

A run may be asked for anything in any order, and its signal may be given at
any question.  Still it passes through six phases only, and what it holds in
each of them is fixed by its job (`Phase.run`): the fragments and diagnostics
are those of its text, the matches are those of its fragments, and the report
is the one report of the job.  The order of the demands and the signal only
decide which of the phases is reached.

Every demand is answered by a step that `Phase.Next` allows, by several of
them in the case of `execute`, or by none (`Run.serves_ask`).  Of the last three
phases nothing leads on, so what they answer they answer forever.
-/
import CxxFloor.Proofs.Feature.Standard
import CxxFloor.Run.Demand
import Mathlib.Logic.Relation

namespace CxxFloor

open Relation (ReflTransGen)

/-- The state may change in this way. -/
inductive RunState.Leads : RunState → RunState → Prop
  | scanned : Leads .scanning .matching
  | reported : Leads .matching .reported
  | stoppedScanning : Leads .scanning .cancelled
  | stoppedMatching : Leads .matching .cancelled

namespace Job

def scan (job : Job) : Scan := CxxFloor.scan job.name job.text

def matched (job : Job) : MatchSet := job.dispatcher.run job.scan.fragments

def report (job : Job) : FileReport := job.dispatcher.reportOn job.name job.text job.floor

def Made (job : Job) : Prop :=
  ∃ c es disabled, Dispatcher.register c es disabled = .ok job.dispatcher

end Job

/-! ## Phases -/

/-- How far a run has come. -/
inductive Phase where
  | begun
  | scanned
  | matched
  | reported
  | stoppedScanning
  | stoppedMatching

namespace Phase

/-- The run of a job in a phase.  Only a run that is being matched holds fragments; diagnostics are
held from the scan on, also by a run that is cancelled after it. -/
def run (job : Job) (signal : Signal) : Phase → Run
  | begun => { job := job, signal := signal }
  | scanned =>
    { job := job
      state := .matching
      fragments := job.scan.fragments
      diagnostics := job.scan.diagnostics
      signal := signal }
  | matched =>
    { job := job
      state := .matching
      fragments := job.scan.fragments
      diagnostics := job.scan.diagnostics
      found? := some job.matched
      signal := signal }
  | reported =>
    { job := job
      state := .reported
      diagnostics := job.scan.diagnostics
      found? := some job.matched
      made? := some job.report
      signal := signal }
  | stoppedScanning => { job := job, state := .cancelled, signal := signal }
  | stoppedMatching =>
    { job := job, state := .cancelled, diagnostics := job.scan.diagnostics, signal := signal }

/-- The phase may change in this way. -/
inductive Next : Phase → Phase → Prop
  | scan : Next begun scanned
  | matchFragments : Next scanned matched
  | report : Next matched reported
  | stopScanning : Next begun stoppedScanning
  | stopMatching : Next scanned stoppedMatching

variable {job : Job} {signal after : Signal} {p q : Phase}

theorem Next.leads (h : Next p q) (job : Job) (signal after : Signal) :
    (q.run job after).state = (p.run job signal).state ∨
      (p.run job signal).state.Leads (q.run job after).state := by
  cases h with
  | scan => exact .inr .scanned
  | matchFragments => exact .inl rfl
  | report => exact .inr .reported
  | stopScanning => exact .inr .stoppedScanning
  | stopMatching => exact .inr .stoppedMatching

theorem leads_of_steps (h : ReflTransGen Next p q) :
    ReflTransGen RunState.Leads (p.run job signal).state (q.run job after).state := by
  induction h generalizing after with
  | refl => cases p <;> exact .refl
  | tail _ h ih =>
      obtain heq | hleads := h.leads job signal after
      · rw [heq]
        exact ih
      · exact ih.tail hleads

theorem eq_of_steps (hlast : ∀ q, ¬ Next p q) (h : ReflTransGen Next p q) : q = p := by
  induction h with
  | refl => rfl
  | tail _ h ih => exact absurd (ih ▸ h) (hlast _)

end Phase

/-! ## One action -/

namespace Run

variable {job : Job} {p : Phase} {signal : Signal} {α : Type}

/-- What an action may do to the run of a job in a phase: it answers, and takes the run one phase on
or leaves it as it is; it finds the signal given; or it comes out of order. -/
inductive Acts (job : Job) (p : Phase) (signal : Signal) : Answer α → Prop
  | goesOn (a : α) {q : Phase} (after : Signal) (h : p.Next q) :
      Acts job p signal (.ok a, q.run job after)
  | keeps (a : α) : Acts job p signal (.ok a, p.run job signal)
  | stops {q : Phase} (h : p.Next q) :
      Acts job p signal (.error (.cancelled job.name), q.run job .given)
  | refuses {e : Refusal} (he : e.isOutOfOrder = true) :
      Acts job p signal (.error e, p.run job signal)

/-- A run at its start is scanned, or cancelled. -/
theorem scan_begun (job : Job) (signal : Signal) :
    (∃ after, signal.pass? (job.scan.fragments.length + 1) = some after ∧
      scan (Phase.begun.run job signal) =
        (.ok job.scan.fragments, Phase.scanned.run job after)) ∨
    (signal.pass? (job.scan.fragments.length + 1) = none ∧
      scan (Phase.begun.run job signal) =
        (.error (.cancelled job.name), Phase.stoppedScanning.run job .given)) := by
  have hcollect := collect_eq signal job.scan.fragments
  cases hpass : signal.pass? (job.scan.fragments.length + 1) with
  | some after =>
      refine .inl ⟨after, rfl, ?_⟩
      rw [hpass] at hcollect
      simp only [Job.scan] at hcollect
      simp only [scan, Phase.run, hcollect, Option.map_some, Job.scan]
  | none =>
      refine .inr ⟨rfl, ?_⟩
      rw [hpass] at hcollect
      simp only [Job.scan] at hcollect
      simp only [scan, Phase.run, hcollect, Option.map_none, stop]

/-- A run that was scanned is matched, or cancelled. -/
theorem matchFragments_scanned (job : Job) (signal : Signal) :
    (∃ after, signal.pass? job.scan.fragments.length = some after ∧
      matchFragments (Phase.scanned.run job signal) =
        (.ok job.matched, Phase.matched.run job after)) ∨
    (signal.pass? job.scan.fragments.length = none ∧
      matchFragments (Phase.scanned.run job signal) =
        (.error (.cancelled job.name), Phase.stoppedMatching.run job .given)) := by
  have hexamine := examineAll_eq job.dispatcher signal job.scan.fragments
  cases hpass : signal.pass? job.scan.fragments.length with
  | some after =>
      refine .inl ⟨after, rfl, ?_⟩
      simp only [hpass, Option.map_some] at hexamine
      simp only [matchFragments, Phase.run, hexamine, Job.matched]
  | none =>
      refine .inr ⟨rfl, ?_⟩
      simp only [hpass, Option.map_none] at hexamine
      simp only [matchFragments, Phase.run, hexamine, stop]

theorem report_matched (hmade : job.Made) (signal : Signal) :
    report (Phase.matched.run job signal) = (.ok job.report, Phase.reported.run job signal) := by
  obtain ⟨c, ms, disabled, hmake⟩ := hmade
  have hreport : reportOf job job.scan.diagnostics job.matched = .ok job.report :=
    reportOf_run hmake job.name job.text job.floor
  simp only [report, Phase.run, hreport]

theorem acts_scan (p : Phase) : Acts job p signal (scan (p.run job signal)) := by
  cases p with
  | begun =>
      obtain ⟨after, -, hscan⟩ | ⟨-, hscan⟩ := scan_begun job signal
      · rw [hscan]
        exact .goesOn _ after .scan
      · rw [hscan]
        exact .stops .stopScanning
  | scanned => exact .refuses rfl
  | matched => exact .refuses rfl
  | reported => exact .refuses rfl
  | stoppedScanning => exact .refuses rfl
  | stoppedMatching => exact .refuses rfl

theorem acts_matchFragments (p : Phase) :
    Acts job p signal (matchFragments (p.run job signal)) := by
  cases p with
  | scanned =>
      obtain ⟨after, -, hmatch⟩ | ⟨-, hmatch⟩ := matchFragments_scanned job signal
      · rw [hmatch]
        exact .goesOn _ after .matchFragments
      · rw [hmatch]
        exact .stops .stopMatching
  | begun => exact .refuses rfl
  | matched => exact .refuses rfl
  | reported => exact .refuses rfl
  | stoppedScanning => exact .refuses rfl
  | stoppedMatching => exact .refuses rfl

theorem acts_report (hmade : job.Made) (p : Phase) :
    Acts job p signal (report (p.run job signal)) ∧
      ∀ made, (report (p.run job signal)).1 = .ok made → made = job.report := by
  cases p with
  | matched =>
      rw [report_matched hmade]
      exact ⟨.goesOn _ _ .report, fun made h => (Except.ok.inj h).symm⟩
  | begun => exact ⟨.refuses rfl, nofun⟩
  | scanned => exact ⟨.refuses rfl, nofun⟩
  | reported => exact ⟨.refuses rfl, nofun⟩
  | stoppedScanning => exact ⟨.refuses rfl, nofun⟩
  | stoppedMatching => exact ⟨.refuses rfl, nofun⟩

theorem acts_result (p : Phase) :
    Acts job p signal (result (p.run job signal), p.run job signal) ∧
      ∀ made, result (p.run job signal) = .ok made → made = job.report := by
  cases p with
  | reported => exact ⟨.keeps _, fun made h => (Except.ok.inj h).symm⟩
  | begun => exact ⟨.refuses rfl, nofun⟩
  | scanned => exact ⟨.refuses rfl, nofun⟩
  | matched => exact ⟨.refuses rfl, nofun⟩
  | stoppedScanning => exact ⟨.refuses rfl, nofun⟩
  | stoppedMatching => exact ⟨.refuses rfl, nofun⟩

/-! ## One demand -/

/-- A reply to the run of a job in a phase, with the run behind it: the phases are passed in order,
a demand out of order changes nothing, and a report is the one of the job. -/
structure Serves (job : Job) (p : Phase) (signal : Signal) (a : Reply × Run) : Prop where
  steps : ∃ q after, a.2 = Phase.run job after q ∧ ReflTransGen Phase.Next p q
  refused : ∀ e, a.1 = .refused e → e.isOutOfOrder = true → a.2 = p.run job signal
  report : ∀ report, a.1 = .report report → report = job.report

/-- A reply that leaves the phase as it is. -/
theorem Serves.of_same {a : Reply × Run} (hsame : ∃ after, a.2 = p.run job after)
    (hrefused : ∀ e, a.1 ≠ .refused e) (hreport : ∀ report, a.1 ≠ .report report) :
    Serves job p signal a where
  steps := hsame.elim fun after h => ⟨p, after, h, .refl⟩
  refused := fun e he => absurd he (hrefused e)
  report := fun report h => absurd h (hreport report)

theorem Serves.of_stopped {q : Phase} (h : ReflTransGen Phase.Next p q) :
    Serves job p signal (.refused (.cancelled job.name), q.run job .given) where
  steps := ⟨q, .given, rfl, h⟩
  refused := fun e he horder => by
    obtain rfl := Reply.refused.inj he
    cases horder
  report := nofun

theorem Acts.serves {shown : α → Reply} {a : Answer α} (h : Acts job p signal a)
    (hshown : ∀ x e, shown x ≠ .refused e)
    (hreport : ∀ x report, a.1 = .ok x → shown x = .report report → report = job.report) :
    Serves job p signal (reply shown a) := by
  cases h with
  | goesOn x after h =>
      exact ⟨⟨_, after, rfl, .single h⟩, fun e he => absurd he (hshown x e),
        fun report => hreport x report rfl⟩
  | keeps x =>
      exact ⟨⟨p, signal, rfl, .refl⟩, fun e he => absurd he (hshown x e),
        fun report => hreport x report rfl⟩
  | stops h => exact .of_stopped (.single h)
  | refuses he => exact ⟨⟨p, signal, rfl, .refl⟩, fun _ _ _ => rfl, nofun⟩

theorem execute_of_scan_error {r r' : Run} {e : Refusal} (h : r.scan = (.error e, r')) :
    r.execute = (.error e, r') := by
  simp only [execute, h]

theorem execute_of_match_error {r r' r'' : Run} {fs : List Fragment} {e : Refusal}
    (h : r.scan = (.ok fs, r')) (h' : r'.matchFragments = (.error e, r'')) :
    r.execute = (.error e, r'') := by
  simp only [execute, h, h']

theorem execute_of_ok {r r' r'' : Run} {fs : List Fragment} {set : MatchSet}
    (h : r.scan = (.ok fs, r')) (h' : r'.matchFragments = (.ok set, r'')) :
    r.execute = r''.report := by
  simp only [execute, h, h']

/-- A run that executes passes all phases, or it is cancelled on the way; one that was begun
refuses. -/
theorem serves_execute (hmade : job.Made) (p : Phase) :
    Serves job p signal (reply .report (execute (p.run job signal))) := by
  cases p with
  | begun =>
      obtain ⟨after, -, hscan⟩ | ⟨-, hscan⟩ := scan_begun job signal
      · have hsteps : ReflTransGen Phase.Next .begun .scanned := .single .scan
        obtain ⟨after', -, hmatch⟩ | ⟨-, hmatch⟩ := matchFragments_scanned job after
        · rw [execute_of_ok hscan hmatch, report_matched hmade]
          exact ⟨⟨_, after', rfl, (hsteps.tail .matchFragments).tail .report⟩, nofun,
            fun made h => (Reply.report.inj h).symm⟩
        · rw [execute_of_match_error hscan hmatch]
          exact .of_stopped (hsteps.tail .stopMatching)
      · rw [execute_of_scan_error hscan]
        exact .of_stopped (.single .stopScanning)
  | scanned => exact (Acts.refuses rfl).serves nofun nofun
  | matched => exact (Acts.refuses rfl).serves nofun nofun
  | reported => exact (Acts.refuses rfl).serves nofun nofun
  | stoppedScanning => exact (Acts.refuses rfl).serves nofun nofun
  | stoppedMatching => exact (Acts.refuses rfl).serves nofun nofun

theorem serves_ask (hmade : job.Made) (p : Phase) (signal : Signal) (q : Demand) :
    Serves job p signal ((p.run job signal).ask q) := by
  cases q with
  | scan => exact (acts_scan p).serves nofun nofun
  | matchFragments => exact (acts_matchFragments p).serves nofun nofun
  | report =>
      obtain ⟨hacts, hreport⟩ := acts_report hmade p
      exact hacts.serves nofun fun x report hx h => Reply.report.inj h ▸ hreport x hx
  | execute => exact serves_execute hmade p
  | result =>
      obtain ⟨hacts, hreport⟩ := acts_result p
      exact hacts.serves nofun fun x report hx h => Reply.report.inj h ▸ hreport x hx
  | cancel => exact .of_same ⟨.given, by cases p <;> rfl⟩ nofun nofun
  | state => exact .of_same ⟨signal, rfl⟩ nofun nofun

theorem reply_snd (shown : α → Reply) (a : Answer α) : (reply shown a).2 = a.2 := by
  obtain ⟨x | e, r⟩ := a <;> rfl

theorem Acts.next {a : Answer α} (h : Acts job p signal a) :
    ∃ q after, a.2 = Phase.run job after q ∧ (q = p ∨ p.Next q) := by
  cases h with
  | goesOn a after h => exact ⟨_, after, rfl, .inr h⟩
  | keeps a => exact ⟨p, signal, rfl, .inl rfl⟩
  | stops h => exact ⟨_, .given, rfl, .inr h⟩
  | refuses he => exact ⟨p, signal, rfl, .inl rfl⟩

theorem next_ask (hmade : job.Made) (p : Phase) (signal : Signal) {q : Demand} (hq : q ≠ .execute) :
    ∃ p' after, ((p.run job signal).ask q).2 = Phase.run job after p' ∧ (p' = p ∨ p.Next p') := by
  cases q with
  | scan => exact reply_snd _ (scan _) ▸ (acts_scan p).next
  | matchFragments => exact reply_snd _ (matchFragments _) ▸ (acts_matchFragments p).next
  | report => exact reply_snd _ (report _) ▸ (acts_report hmade p).1.next
  | execute => exact absurd rfl hq
  | result => exact ⟨p, signal, reply_snd _ (result _, _), .inl rfl⟩
  | cancel => exact ⟨p, .given, by cases p <;> rfl, .inl rfl⟩
  | state => exact ⟨p, signal, rfl, .inl rfl⟩

/-! ## Many demands -/

/-- What holds of one demand holds of many. -/
theorem serve_steps (hmade : job.Made) (p : Phase) (signal : Signal) (qs : List Demand) :
    (∃ q after, ((p.run job signal).serve qs).2 = Phase.run job after q ∧
      ReflTransGen Phase.Next p q) ∧
    ∀ made, Reply.report made ∈ ((p.run job signal).serve qs).1 → made = job.report := by
  induction qs generalizing p signal with
  | nil => exact ⟨⟨p, signal, rfl, .refl⟩, nofun⟩
  | cons q qs ih =>
      obtain ⟨⟨p', after, hrun, hsteps⟩, -, hreport⟩ := serves_ask hmade p signal q
      have hrest := ih p' after
      rw [← hrun] at hrest
      obtain ⟨⟨p'', after', hrun', hsteps'⟩, hreports⟩ := hrest
      refine ⟨⟨p'', after', hrun', hsteps.trans hsteps'⟩, fun made hmem => ?_⟩
      rcases List.mem_cons.1 hmem with heq | hmem
      · exact hreport made heq.symm
      · exact hreports made hmem

theorem serve_last (hmade : job.Made) (hlast : ∀ q, ¬ p.Next q) (signal : Signal)
    (qs : List Demand) : ∃ after, ((p.run job signal).serve qs).2 = p.run job after := by
  obtain ⟨⟨q, after, hrun, hsteps⟩, -⟩ := serve_steps hmade p signal qs
  obtain rfl := Phase.eq_of_steps hlast hsteps
  exact ⟨after, hrun⟩

theorem refused_of_reported (job : Job) (signal : Signal) :
    ∀ q ∈ [Demand.scan, .matchFragments, .report, .execute],
      ∃ e, ((Phase.reported.run job signal).ask q).1 = .refused e ∧ e.isOutOfOrder = true := by
  intro q hq
  simp only [List.mem_cons, List.not_mem_nil, or_false] at hq
  rcases hq with rfl | rfl | rfl | rfl <;> exact ⟨_, rfl, rfl⟩

theorem refused_of_cancelled (h : (p.run job signal).state = .cancelled) :
    ∀ q ∈ [Demand.scan, .matchFragments, .report, .execute, .result],
      ∃ e, ((p.run job signal).ask q).1 = .refused e ∧ e.isOutOfOrder = true := by
  intro q hq
  simp only [List.mem_cons, List.not_mem_nil, or_false] at hq
  cases p with
  | stoppedScanning => rcases hq with rfl | rfl | rfl | rfl | rfl <;> exact ⟨_, rfl, rfl⟩
  | stoppedMatching => rcases hq with rfl | rfl | rfl | rfl | rfl <;> exact ⟨_, rfl, rfl⟩
  | _ => cases h

/-- A report is there in the last phase only. -/
theorem reported_of_result {made : FileReport} (h : (p.run job signal).result = .ok made) :
    p = .reported ∧ made = job.report := by
  cases p with
  | reported => exact ⟨rfl, (Except.ok.inj h).symm⟩
  | _ => cases h

theorem exists_result_iff (p : Phase) :
    (∃ made, (p.run job signal).result = .ok made) ↔ (p.run job signal).state = .reported := by
  constructor
  · rintro ⟨made, h⟩
    obtain ⟨rfl, -⟩ := reported_of_result h
    rfl
  · intro h
    cases p with
    | reported => exact ⟨_, rfl⟩
    | _ => cases h

theorem last_of_cancelled (h : (p.run job signal).state = .cancelled) :
    (∀ q, ¬ p.Next q) ∧ ∀ after, (p.run job after).state = .cancelled ∧
      (p.run job after).fragments = [] ∧ (p.run job after).found? = none := by
  cases p with
  | stoppedScanning => exact ⟨nofun, fun _ => ⟨rfl, rfl, rfl⟩⟩
  | stoppedMatching => exact ⟨nofun, fun _ => ⟨rfl, rfl, rfl⟩⟩
  | _ => cases h

end Run

/-! ## Any order of demands -/

/-- A run that was asked for anything, in any order, with a signal that is given at any of its
questions.

The next demand moves the state along `RunState.Leads` only, by one step at most unless it is
`execute`; if it comes out of order it changes nothing.  A report is there exactly in the last
state; it stays the same then, and every action is refused.  A cancelled run stays cancelled,
holds neither fragments nor matches, and refuses everything.  Whatever report was ever given out
is the one that classifying the text at once gives. -/
theorem run_in_any_order {catalog : Catalog} {disabled : List String} {dispatcher : Dispatcher}
    (hmake : Dispatcher.make catalog standardMatchers disabled = .ok dispatcher)
    (name text : String) (floor : Int) (signal : Signal) (asked : List Demand) :
    let start : Run := { job := ⟨text, name, floor, dispatcher⟩, signal := signal }
    let r := (start.serve asked).2
    (∀ q, ReflTransGen RunState.Leads r.state (r.ask q).2.state ∧
      (q ≠ .execute → (r.ask q).2.state = r.state ∨ r.state.Leads (r.ask q).2.state)) ∧
    (∀ q e, (r.ask q).1 = .refused e → e.isOutOfOrder = true → (r.ask q).2 = r) ∧
    ((∃ made, r.result = .ok made) ↔ r.state = .reported) ∧
    (∀ made, r.result = .ok made → ∀ later,
      (r.serve later).2.state = .reported ∧ (r.serve later).2.result = .ok made ∧
      ∀ q ∈ [Demand.scan, .matchFragments, .report, .execute],
        ∃ e, ((r.serve later).2.ask q).1 = .refused e ∧ e.isOutOfOrder = true) ∧
    (r.state = .cancelled → ∀ later,
      (r.serve later).2.state = .cancelled ∧
      (r.serve later).2.fragments = [] ∧ (r.serve later).2.found? = none ∧
      ∀ q ∈ [Demand.scan, .matchFragments, .report, .execute, .result],
        ∃ e, ((r.serve later).2.ask q).1 = .refused e ∧ e.isOutOfOrder = true) ∧
    ∀ made, Reply.report made ∈ (start.serve asked).1 →
      classifyText name text catalog floor disabled = .ok made := by
  intro start r
  have hmade : start.job.Made := ⟨catalog, standardExaminers, disabled, hmake⟩
  obtain ⟨⟨p, now, hrun, -⟩, hreports⟩ := Run.serve_steps hmade .begun signal asked
  have hr : r = p.run start.job now := hrun
  clear_value r
  subst hr
  refine ⟨fun q => ⟨?_, fun hq => ?_⟩, fun q => (Run.serves_ask hmade p now q).refused,
    Run.exists_result_iff p, fun made h later => ?_, fun h later => ?_, fun made h => ?_⟩
  · obtain ⟨q', after, hask, hsteps⟩ := (Run.serves_ask hmade p now q).steps
    rw [hask]
    exact Phase.leads_of_steps hsteps
  · obtain ⟨p', after, hask, rfl | hnext⟩ := Run.next_ask hmade p now hq
    · rw [hask]
      exact .inl (by cases p' <;> rfl)
    · rw [hask]
      exact hnext.leads _ _ _
  · obtain ⟨rfl, rfl⟩ := Run.reported_of_result h
    obtain ⟨after, hlater⟩ := Run.serve_last (p := .reported) hmade nofun now later
    rw [hlater]
    exact ⟨rfl, rfl, Run.refused_of_reported start.job after⟩
  · obtain ⟨hlast, hempty⟩ := Run.last_of_cancelled h
    obtain ⟨after, hlater⟩ := Run.serve_last hmade hlast now later
    rw [hlater]
    obtain ⟨hstate, hfragments, hfound⟩ := hempty after
    exact ⟨hstate, hfragments, hfound, Run.refused_of_cancelled hstate⟩
  · rw [classifyText_of_make hmake, hreports made h]
    rfl

/-- A run is scanned, matched twice and told to stop before its report is asked for. -/
theorem run_in_any_order_stopped :
    Dispatcher.make standardCatalog standardMatchers [] = .ok (.standard []) ∧
      let start : Run := { job := ⟨"auto n = 1uz;", "a", 20, .standard []⟩, signal := .never }
      ∀ made, Reply.report made
          ∈ (start.serve [.scan, .matchFragments, .matchFragments, .cancel, .report]).1 →
        classifyText "a" "auto n = 1uz;" standardCatalog 20 [] = .ok made :=
  have hmake : Dispatcher.make standardCatalog standardMatchers [] = .ok (.standard []) :=
    Dispatcher.make_standard (by simp)
  ⟨hmake, (run_in_any_order hmake "a" "auto n = 1uz;" 20 .never
    [.scan, .matchFragments, .matchFragments, .cancel, .report]).2.2.2.2.2⟩

end CxxFloor
