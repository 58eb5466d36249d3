/-
# Asking a run

All that can be asked of a run, as one type, and all that it replies.  The life
of a run is then a list of demands, in whatever order they come: a run serves
each of them, and those that its state does not allow are refused.
-/
import CxxFloor.Run.Basic

namespace CxxFloor

/-- What can be asked of a run. -/
inductive Demand where
  | scan
  | matchFragments
  | report
  /-- Scanning, matching and the report, one after the other. -/
  | execute
  /-- The report that was made before. -/
  | result
  | cancel
  | state
deriving DecidableEq, Repr

/-- What a run replies. -/
inductive Reply where
  | fragments (fs : List Fragment)
  | found (set : MatchSet)
  | report (report : FileReport)
  | state (state : RunState)
  | done
  | refused (e : Refusal)

/-- The refusal of a demand that comes out of order. -/
def Refusal.isOutOfOrder : Refusal → Bool
  | .wrongState _ _ _ | .alreadyMatched _ | .notMatched _ | .noResult _ _ => true
  | _ => false

namespace Run

/-- An answer as a reply. -/
def reply {α : Type} (shown : α → Reply) : Answer α → Reply × Run
  | (.ok a, r) => (shown a, r)
  | (.error e, r) => (.refused e, r)

/-- The reply to one demand, and the run behind it. -/
def ask (r : Run) : Demand → Reply × Run
  | .scan => reply .fragments r.scan
  | .matchFragments => reply .found r.matchFragments
  | .report => reply .report r.report
  | .execute => reply .report r.execute
  | .result => reply .report (r.result, r)
  | .cancel => (.done, r.cancel)
  | .state => (.state r.state, r)

/-- The replies to demands, and the run behind them. -/
def serve (r : Run) : List Demand → List Reply × Run
  | [] => ([], r)
  | q :: qs => ((r.ask q).1 :: ((r.ask q).2.serve qs).1, ((r.ask q).2.serve qs).2)

end Run

end CxxFloor
