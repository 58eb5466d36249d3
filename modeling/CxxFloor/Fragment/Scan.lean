/-
# Scanning a source

A scan cuts a source into tokens, walks over them, and locates what the walk
cut out.  Its diagnostics are those of the tokens, then those of the brackets
among the tokens that are no preprocessor lines.
-/
import CxxFloor.Scope.Walk
import CxxFloor.Token.Stream

namespace CxxFloor

/-- A named source, cut into tokens; the preprocessor lines are kept apart. -/
structure Source where
  name : String
  text : List Char
  words : Array Token
  directives : Array Token
deriving Repr

/-- What a scan finds. -/
structure Scan where
  fragments : List Fragment
  diagnostics : List Diagnostic
deriving Repr

namespace Source

/-- The source with this name and text. -/
def ofText (name text : String) : Source :=
  let cs := text.toList
  let ts := tokens cs
  { name := name
    text := cs
    words := (ts.filter (·.kind ≠ .directive)).toArray
    directives := (ts.filter (·.kind = .directive)).toArray }

/-- The fragment of a preprocessor line.  It is shown as the directive is spelled. -/
def directiveFragment (source : Source) (t : Token) : Fragment :=
  { kind := .directive
    file := source.name
    start := t.start
    stop := t.stop
    text := t.text
    tokens := #[t] }

/-- The fragment of a cut; `none` if it names tokens the source does not have. -/
def fragment? (source : Source) : Cut → Option Fragment
  | .directive number => (source.directives[number]?).map source.directiveFragment
  | .span kind first last context => do
    let t ← source.words[first]?
    let u ← source.words[last]?
    pure {
      kind := kind
      file := source.name
      start := t.start
      stop := u.stop
      text := Text.slice source.text t.start.offset u.stop
      tokens := source.words.extract first (last + 1)
      previous := if first = 0 then none else source.words[first - 1]?
      next := source.words[last + 1]?
      context := context }

end Source

/-- The scan of a text under a name. -/
def scan (name text : String) : Scan :=
  let source := Source.ofText name text
  let cs := text.toList
  { fragments := (cutsOf ((tokens cs).map (·.toLexeme))).filterMap source.fragment?
    diagnostics := tokenDiagnostics cs ++ bracketDiagnostics source.words.toList }

end CxxFloor
