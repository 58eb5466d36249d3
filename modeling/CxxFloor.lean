import CxxFloor.Main
import CxxFloor.Fragment.Reader
import CxxFloor.Proofs.Bracket.Nesting
import CxxFloor.Proofs.Bracket.Open
import CxxFloor.Proofs.Scope.Boundary
import CxxFloor.Proofs.Scope.Openers
import CxxFloor.Proofs.Scope.Cuts
import CxxFloor.Proofs.Scope.Range
import CxxFloor.Proofs.Token.Places
import CxxFloor.Proofs.Feature.Reading
import CxxFloor.Proofs.Feature.Standard
import CxxFloor.Proofs.Feature.Correspondence
import CxxFloor.Proofs.Fragment.Window
import CxxFloor.Proofs.Order
import CxxFloor.Proofs.Layout
import CxxFloor.Checked
import CxxFloor.Proofs.Scope.Reads
import CxxFloor.Proofs.Checked
import CxxFloor.Proofs.Safety
import CxxFloor.Proofs.Token.Ahead
import CxxFloor.Proofs.Token.Concatenation
import CxxFloor.Proofs.Bracket.Concatenation
import CxxFloor.Proofs.Embedding.Basic
import CxxFloor.Proofs.Embedding.Head
import CxxFloor.Proofs.Embedding.Around
import CxxFloor.Proofs.Embedding.State
import CxxFloor.Proofs.Embedding.Step
import CxxFloor.Proofs.Scope.Completion
import CxxFloor.Proofs.Embedding.Concatenation
import CxxFloor.Proofs.Fragment.Concatenation
import CxxFloor.Proofs.Concatenation
import CxxFloor.Proofs.Feature.Slots
import CxxFloor.Proofs.Disabling
import CxxFloor.Proofs.Run.Lifecycle
import CxxFloor.Proofs.Bracket.Split
import CxxFloor.Proofs.Feature.Spans
import CxxFloor.Proofs.Quotation
import CxxFloor.Proofs.Token.Abandoned
import CxxFloor.Proofs.Token.Stretches
import CxxFloor.Proofs.Permutation
import CxxFloor.Proofs.Scope.History
import CxxFloor.Proofs.Scope.Heads
import CxxFloor.Proofs.Scope.Origin
import CxxFloor.Proofs.Incomplete
import CxxFloor.Proofs.Literals
import CxxFloor.Proofs.Constraint
import CxxFloor.Proofs.Bracket.Slice
import CxxFloor.Proofs.Scope.Statements
import CxxFloor.Proofs.Agreement
import CxxFloor.Proofs.Feature.Contest
import CxxFloor.Proofs.Run.Cancellation
import CxxFloor.Proofs.Scope.Overlap
import CxxFloor.Proofs.Bracket.Depth
import CxxFloor.Proofs.Bracket.Level
import CxxFloor.Proofs.Feature.ObjectParameter
import CxxFloor.Proofs.Feature.Place
import CxxFloor.Proofs.Repetition
import CxxFloor.Proofs.Batch.Entries
import CxxFloor.Proofs.Batch.Verdict
import CxxFloor.Proofs.Report.Grouping
import CxxFloor.Proofs.Report.Document
import CxxFloor.Proofs.Token.Spelling
import CxxFloor.Proofs.Token.Separated
import CxxFloor.Proofs.Token.Normalisation
import CxxFloor.Proofs.ControlHead
import CxxFloor.Proofs.Token.DirectiveLines
import CxxFloor.Proofs.Scope.LambdaAhead
import CxxFloor.Proofs.LambdaAgreement
import CxxFloor.Proofs.Scope.Expected
import CxxFloor.Proofs.ReturnType
import CxxFloor.Proofs.Linkage
import CxxFloor.Proofs.ParenthesizedDeclarator
import CxxFloor.Proofs.SingleIndex
import CxxFloor.Proofs.Declarator
import CxxFloor.Proofs.Scope.Groups
import CxxFloor.Proofs.ConstantInitializer
import CxxFloor.Proofs.Bracket.Orphans
import CxxFloor.Proofs.Bracket.Dyck
import CxxFloor.Proofs.Matching
import CxxFloor.Proofs.Scope.Told
import CxxFloor.Proofs.Scope.Marks
import CxxFloor.Proofs.TemplateScope
import CxxFloor.Proofs.GenericFunction
import CxxFloor.Proofs.Declarations
import CxxFloor.Proofs.Feature.Registration
import CxxFloor.Proofs.Classification
import CxxFloor.Proofs.Json.Lossless
import CxxFloor.Proofs.Report.Encoding
import CxxFloor.Proofs.Report.Wording
import CxxFloor.Proofs.Report.Rows
import CxxFloor.Proofs.Bracket.Coarsening
import CxxFloor.Proofs.Fragment.Reader
import CxxFloor.Proofs.Token.RawStrings
import CxxFloor.Proofs.Token.FreshLines
