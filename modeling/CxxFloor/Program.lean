/-
# The program

What a command line does to the files it can see: it asks for help or for the
list of features, or it classifies the sources that its paths stand for and
reports on them.  The outcome is a value: the two output streams, the exit
code and the file tree behind.  What only an environment can do, reading and
printing, is done around it; the codecs that files are read through are a
parameter, too.

The steps have a fixed order, which shows where two of them fail: the command
line, the settings, the disabled ids, the paths, the sources, the file the
report is also written to.
-/
import CxxFloor.Batch
import CxxFloor.CommandLine.Arguments
import CxxFloor.Files.Sources
import CxxFloor.Report.Format

namespace CxxFloor

/-- The batch of the inputs under these settings.  An empty catalog counts as none. -/
def classifyBatch (codecs : Codecs) (t : FileTree) (s : Settings) (catalog : Catalog)
    (signal : Signal) (inputs : List Input) : Except Refusal Batch := do
  let dispatcher ← Dispatcher.make catalog.orStandard standardMatchers s.disabled
  let plan : Plan := ⟨t, codecs s.encoding, s.floor, dispatcher⟩
  pure ⟨← plan.entries signal inputs, s.floor, s.failOnUnknown⟩

/-- What the program starts with. -/
structure Surroundings where
  arguments : List String
  environment : Environment
  standardInput : String
  tree : FileTree

/-- What a finished program leaves behind. -/
structure Leavings where
  exitCode : Nat
  output : String := ""
  /-- The lines of the error stream. -/
  log : List String := []
  tree : FileTree
  /-- The path and the text of the file that was written. -/
  written : Option (String × String) := none

/-- How the program ends. -/
inductive Ending where
  /-- The command line is explained. -/
  | help
  /-- The command line is refused. -/
  | usage (fault : UsageFault)
  /-- The request was acted on. -/
  | done (leavings : Leavings)

namespace Program

/-! ## The error stream -/

def tag (color word : String) : String :=
  Palette.escape ("1;" ++ color) ++ "[" ++ word ++ "]" ++ Palette.escape "0" ++ " "

def info (s : String) : String := tag "34" "INFO" ++ s

def warning (s : String) : String := tag "33" "WARNING" ++ s

def error (s : String) : String := tag "31" "ERROR" ++ s

def internalError (className message : String) : String :=
  error ("Internal error: " ++ className ++ ": " ++ message)

def fileError (f : FileFault) (path : String) : String :=
  internalError f.className (f.report path)

/-- The line of a refusal. -/
def refusalError : Refusal → String
  | .unknownFeature id => error (Refusal.unknownFeature id).message
  | .cancelled name => error ("Classification failed: " ++ (Refusal.cancelled name).message)
  | .uncaught className message => internalError className message
  | r => internalError "ValueError" r.message

/-! ## The steps -/

/-- The lines logged up to an error, the last of them reporting it. -/
abbrev Failed := List String

/-- The inputs that paths stand for, and the warnings on the way.  The standard input is read by the
first `-`, and later ones find it empty.  A path that leads nowhere is kept, so that it is reported
as unreadable. -/
def gather (t : FileTree) (input : String) : List String → Except Failed (List Input × List String)
  | [] => .ok ([], [])
  | path :: paths =>
    if path = "-" then do
      let (inputs, log) ← gather t "" paths
      pure ({ name := "<stdin>", text := some input } :: inputs, log)
    else
      match t.isDirectory path with
      | .error f => .error [fileError f (Path.plain path)]
      | .ok false => do
        let (inputs, log) ← gather t input paths
        pure (Input.ofPath path :: inputs, log)
      | .ok true =>
        let found := t.sources path
        let remark :=
          if found.isEmpty then [warning ("No C++ source files found in: " ++ path)] else []
        match gather t input paths with
        | .error lines => .error (remark ++ lines)
        | .ok (inputs, log) => .ok (found.map Input.ofPath ++ inputs, remark ++ log)

/-- The tree with the report written to a file, and the line that says so. -/
def writeReport (t : FileTree) (path text : String) : Except Failed (FileTree × String) :=
  if path.toList.contains '\x00' then
    .error [refusalError .nullInPath]
  else
    match t.write path text.toUTF8.toList with
    | .ok t => .ok (t, "Writing results to: " ++ path)
    | .error f => .error [fileError f path]

def failed (t : FileTree) (log : List String) : Leavings := { exitCode := 2, log := log, tree := t }

/-- The report on a batch is given out.  A file that it is also written to is opened before. -/
def publish (t : FileTree) (log : List String) (s : Settings) (color : Bool)
    (target : Option String) (b : Batch) : Leavings :=
  let report (color : Bool) := s.format.write Text.maxIntegerDigits standardCatalog color b
  match target.filter (· ≠ "") with
  | none =>
    match report color with
    | .error r => failed t (log ++ [refusalError r])
    | .ok output => ⟨b.conclusion.exitCode, output, log, t, none⟩
  | some path =>
    match report color, report false with
    | .ok output, .ok text =>
      match writeReport t path text with
      | .error lines => failed t (log ++ lines)
      | .ok (t, line) => ⟨b.conclusion.exitCode, output, log ++ [line], t, some (path, text)⟩
    | .error r, _ | _, .error r =>
      match writeReport t path "" with
      | .error lines => failed t (log ++ lines)
      | .ok (t, line) => { failed t (log ++ [line, refusalError r]) with written := some (path, "") }

/-- The line that announces more than one file. -/
def announcement (s : Settings) (count : Nat) : List String :=
  if 1 < count then
    [info ("Classifying " ++ toString count ++ " files (floor " ++ Standard.label s.floor ++ ")")]
  else []

/-- The paths are classified under these settings. -/
def classifyPaths (codecs : Codecs) (w : Surroundings) (s : Settings) (a : Arguments) : Leavings :=
  match s.disabled.find? (!standardCatalog.contains ·) with
  | some id =>
    failed w.tree
      [error ("Unknown feature: " ++ id ++ ". Use --list-features to see available features.")]
  | none =>
    match gather w.tree w.standardInput a.paths with
    | .error lines => failed w.tree lines
    | .ok ([], log) =>
      failed w.tree (log ++ [error ("No source files found at: " ++ ", ".intercalate a.paths)])
    | .ok (inputs, log) =>
      let log := log ++ announcement s inputs.length
      match classifyBatch codecs w.tree s standardCatalog .never inputs with
      | .error r => failed w.tree (log ++ [refusalError r])
      | .ok b => publish w.tree log s w.environment.color a.outputFile b

def settings (environment : Environment) (a : Arguments) : Except Refusal Settings := do
  a.overlay (← Settings.ofEnvironment environment)

/-- The arguments are acted on. -/
def act (codecs : Codecs) (w : Surroundings) (a : Arguments) : Ending :=
  if a.listFeatures then
    match featureList (.ofColor w.environment.color) standardCatalog with
    | .ok text => .done { exitCode := 0, output := text, tree := w.tree }
    | .error r => .done (failed w.tree [refusalError r])
  else if a.paths.isEmpty then .usage .noPath
  else
    match settings w.environment a with
    | .error r => .usage (.setting r)
    | .ok s => .done (classifyPaths codecs w s a)

/-- The program, with the codecs of its environment. -/
def run (w : Surroundings) (codecs : Codecs := Codec.named) : Ending :=
  match Request.parse w.arguments with
  | .error fault => .usage fault
  | .ok .help => .help
  | .ok (.act a) => act codecs w a

end Program

end CxxFloor
