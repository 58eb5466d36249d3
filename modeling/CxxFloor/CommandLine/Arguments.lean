/-
# Arguments

What a command line asks for.  Flags are acted on in their order.  The paths
are the first run of operands between flags; later runs, and what looks like a
flag and is none, are refused together once all words have been read.
-/
import CxxFloor.CommandLine.Word
import CxxFloor.Settings

namespace CxxFloor

/-- What the words of a command line give. -/
structure Arguments where
  paths : List String := []
  floor : Option String := none
  output : Option String := none
  failOnUnknown : Bool := false
  outputFile : Option String := none
  jobs : Option Int := none
  disabled : List String := []
  listFeatures : Bool := false
deriving DecidableEq, Repr

/-- What a command line asks for. -/
inductive Request where
  /-- To explain the command line. -/
  | help
  /-- To do what the arguments say. -/
  | act (a : Arguments)
deriving DecidableEq, Repr

namespace Arguments

/-- The arguments with the value of a flag. -/
def withValue (a : Arguments) (f : Flag) (value : String) : Except UsageFault Arguments :=
  match f with
  | .floor => .ok { a with floor := some value }
  | .output =>
    if UsageFault.choices.contains value then .ok { a with output := some value }
    else .error (.invalidChoice value)
  | .outputFile => .ok { a with outputFile := some value }
  | .jobs =>
    match Text.readInteger value with
    | .ok n => .ok { a with jobs := some n }
    | .error _ => .error (.invalidInteger value)
  | .disable => .ok { a with disabled := a.disabled ++ [value] }
  | .help | .failOnUnknown | .listFeatures => .error (.unexpectedValue f value)

/-- The arguments with a flag that has no value; `none` asks for help. -/
def withFlag (a : Arguments) (f : Flag) : Option Arguments :=
  match f with
  | .help => none
  | .failOnUnknown => some { a with failOnUnknown := true }
  | .listFeatures => some { a with listFeatures := true }
  | _ => some a

end Arguments

/-! ## Reading the words -/

/-- Whether operands are paths. -/
inductive Intake where
  /-- No operand was met. -/
  | waiting
  /-- The run of paths is being read. -/
  | reading
  /-- The run of paths has ended. -/
  | closed
deriving DecidableEq, Repr

/-- How far the words have been read. -/
structure Progress where
  arguments : Arguments := {}
  intake : Intake := .waiting
  unrecognized : List String := []

namespace Progress

/-- An operand was read. -/
def operand (p : Progress) (text : String) : Progress :=
  match p.intake with
  | .closed => { p with unrecognized := p.unrecognized ++ [text] }
  | _ =>
    { p with
      arguments := { p.arguments with paths := p.arguments.paths ++ [text] }
      intake := .reading }

/-- The separator was read.  It is no path itself. -/
def separator (p : Progress) (text : String) : Progress :=
  match p.intake with
  | .closed => { p with unrecognized := p.unrecognized ++ [text] }
  | _ => { p with intake := .reading }

/-- The run of paths ends here if it has started. -/
def interrupted (p : Progress) : Progress :=
  match p.intake with
  | .waiting => p
  | _ => { p with intake := .closed }

/-- A word that looks like a flag and is none was read. -/
def unknown (p : Progress) (text : String) : Progress :=
  { p.interrupted with unrecognized := p.unrecognized ++ [text] }

def withValue (p : Progress) (f : Flag) (value : String) : Except UsageFault Progress := do
  pure { p.interrupted with arguments := ← p.arguments.withValue f value }

/-- A flag that has no value was read; `none` asks for help. -/
def withFlag (p : Progress) (f : Flag) : Option Progress :=
  (p.arguments.withFlag f).map fun a => { p.interrupted with arguments := a }

def request (p : Progress) : Except UsageFault Request :=
  if p.unrecognized.isEmpty then .ok (.act p.arguments) else .error (.unrecognized p.unrecognized)

end Progress

namespace Request

/-- What is wrong with the short flags written behind `-h`.  `followed` says that an operand is the
next word. -/
def helpFault? (followed : Bool) : List Char → Option UsageFault
  | [] => none
  | c :: cs =>
    if c = '-' then some (.unexpectedValue .help (String.ofList (c :: cs)))
    else
      match Flag.ofSpelling? (String.ofList ['-', c]) with
      | none => none
      | some .help =>
        match cs with
        | '=' :: value => some (.unexpectedValue .help (String.ofList value))
        | _ => helpFault? followed cs
      | some f => if cs.isEmpty && !followed then some (.missingValue f) else none

/-- What is wrong with a value attached to a flag that takes none.  Only behind the short one may
more be written, namely other short flags. -/
def attachedFault? (f : Flag) (short followed : Bool) (v : Attached) : Option UsageFault :=
  if short && !v.joined && !v.value.isEmpty then helpFault? followed v.value
  else some (.unexpectedValue f (String.ofList v.value))

/-- The next word is an operand. -/
def isFollowed : List Word → Bool
  | ⟨_, .operand⟩ :: _ => true
  | _ => false

/-- The request of words behind what was read before them. -/
def ofWords (p : Progress) : List Word → Except UsageFault Request
  | [] => p.request
  | ⟨text, .operand⟩ :: ws => ofWords (p.operand text) ws
  | ⟨text, .separator⟩ :: ws => ofWords (p.separator text) ws
  | ⟨text, .unknown⟩ :: ws => ofWords (p.unknown text) ws
  | ⟨_, .flag f short (some v)⟩ :: ws =>
    if f.takesValue then do ofWords (← p.withValue f (String.ofList v.value)) ws
    else
      match attachedFault? f short (isFollowed ws) v with
      | some fault => .error fault
      | none => .ok .help
  | ⟨_, .flag f _ none⟩ :: ws =>
    if f.takesValue then
      match ws with
      | ⟨value, .operand⟩ :: rest => do ofWords (← p.withValue f value) rest
      | _ => .error (.missingValue f)
    else
      match p.withFlag f with
      | some p => ofWords p ws
      | none => .ok .help

def parse (texts : List String) : Except UsageFault Request := do ofWords {} (← Word.sorted texts)

end Request

/-! ## Overlaying settings -/

namespace Arguments

/-- The settings with the arguments laid over them.  An empty standard counts as absent. -/
def overlay (a : Arguments) (s : Settings) : Except Refusal Settings := do
  let floor ← match a.floor.filter (· ≠ "") with
    | some text => Standard.parse text
    | none => pure s.floor
  let format ← match a.output.filter (· ≠ "") with
    | some text => ReportFormat.parse text
    | none => pure s.format
  pure {
    floor := floor
    format := format
    failOnUnknown := a.failOnUnknown || s.failOnUnknown
    jobs := match a.jobs with
      | some n => some (Settings.atLeastOne n)
      | none => s.jobs
    encoding := s.encoding
    disabled := s.disabled ++ a.disabled }

end Arguments

end CxxFloor
