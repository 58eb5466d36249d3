/-
# Reading fragments one by one

A reader hands out the fragments of a source in order, and can be started over
at any time; what an earlier start left unread is forgotten then.  Nothing is
read before the first fragment is asked for.  At that moment the text is cut
into tokens and the brackets are paired, so the diagnostics are known at once
and in full, however few fragments are taken; the walk itself goes no further
than to the fragment that is asked for (`Traversal`).
-/
import CxxFloor.Fragment.Traversal

namespace CxxFloor

/-- How far a reader has come since it was started. -/
inductive Reading where
  /-- It was never started. -/
  | idle
  /-- It was started, and nothing has been asked for since. -/
  | fresh
  /-- Fragments have been asked for; the walk stands here. -/
  | underway (traversal : Traversal)

/-- A reader of a named source. -/
structure Reader where
  name : String
  text : String
  reading : Reading := .idle
  diagnostics : List Diagnostic := []

namespace Reader

def ofText (name text : String) : Reader := { name := name, text := text }

def start (r : Reader) : Reader := { r with reading := .fresh }

/-- The walk that the next fragment is taken from, and the reader with the diagnostics that are
known when it has begun; `none` before the first start. -/
def begun (r : Reader) : Option Traversal × Reader :=
  match r.reading with
  | .idle => (none, r)
  | .underway t => (some t, r)
  | .fresh =>
    let t := Traversal.ofText r.name r.text
    (some t,
      { r with
        diagnostics := tokenDiagnostics r.text.toList ++ bracketDiagnostics t.source.words.toList })

/-- The next fragment, if one is left. -/
def next (r : Reader) : Option Fragment × Reader :=
  match r.begun with
  | (none, r) => (none, r)
  | (some t, r) =>
    match t.next? with
    | none => (none, { r with reading := .underway t })
    | some (f, t) => (some f, { r with reading := .underway t })

/-- All fragments left. -/
def rest (r : Reader) : List Fragment × Reader :=
  match r.begun with
  | (none, r) => ([], r)
  | (some t, r) =>
    let (fs, t) := t.drain
    (fs, { r with reading := .underway t })

/-! ## Requests -/

/-- What can be asked of a reader. -/
inductive Request where
  | start
  | next
  | rest
  | diagnostics
deriving DecidableEq, Repr

/-- What a reader answers. -/
inductive Response where
  | started
  | next (fragment? : Option Fragment)
  | rest (fragments : List Fragment)
  | diagnostics (diagnostics : List Diagnostic)

/-- The answer to a request, and the reader behind it. -/
def ask (r : Reader) : Request → Response × Reader
  | .start => (.started, r.start)
  | .next => (.next r.next.1, r.next.2)
  | .rest => (.rest r.rest.1, r.rest.2)
  | .diagnostics => (.diagnostics r.diagnostics, r)

/-- The answers to requests, and the reader behind them. -/
def serve (r : Reader) : List Request → List Response × Reader
  | [] => ([], r)
  | q :: qs => ((r.ask q).1 :: ((r.ask q).2.serve qs).1, ((r.ask q).2.serve qs).2)

end Reader

end CxxFloor
