import TensorIR.Binary64
import TensorIR.Binary64.Shortest
import TensorIR.Binary64.Text
import TensorIR.Body
import TensorIR.Body.Check
import TensorIR.Body.Dot
import TensorIR.Body.Edit
import TensorIR.Body.Lowering
import TensorIR.Body.Navigation
import TensorIR.Body.Shapes
import TensorIR.Body.Snapshot
import TensorIR.CommandLine.Compile
import TensorIR.CommandLine.Directory
import TensorIR.CommandLine.Options
import TensorIR.CommandLine.Path
import TensorIR.CommandLine.Place
import TensorIR.Connector
import TensorIR.Diagnostic
import TensorIR.Digest.Sha256
import TensorIR.Dim
import TensorIR.Error
import TensorIR.Expression
import TensorIR.Expression.Update
import TensorIR.Inference.Builtin
import TensorIR.Inference.Custom
import TensorIR.Inference.Strategy
import TensorIR.Json
import TensorIR.Main
import TensorIR.Model
import TensorIR.Model.Attributes
import TensorIR.Model.Build
import TensorIR.Node
import TensorIR.Op
import TensorIR.OrderedMap
import TensorIR.Pipeline.Compilation
import TensorIR.Pipeline.Output
import TensorIR.Pipeline.Pass
import TensorIR.Port
import TensorIR.Port.Descriptor
import TensorIR.Proofs.Body.Abstraction
import TensorIR.Proofs.Body.Admission
import TensorIR.Proofs.Body.Boundary
import TensorIR.Proofs.Body.Causes
import TensorIR.Proofs.Body.Checking
import TensorIR.Proofs.Body.Coherence
import TensorIR.Proofs.Body.Correspondence
import TensorIR.Proofs.Body.Documents
import TensorIR.Proofs.Body.Drawing
import TensorIR.Proofs.Body.History
import TensorIR.Proofs.Body.Inference
import TensorIR.Proofs.Body.Labels
import TensorIR.Proofs.Body.Locality
import TensorIR.Proofs.Body.Loops
import TensorIR.Proofs.Body.Lowering
import TensorIR.Proofs.Body.Mirroring
import TensorIR.Proofs.Body.Moving
import TensorIR.Proofs.Body.Navigation
import TensorIR.Proofs.Body.Outcomes
import TensorIR.Proofs.Body.Ports
import TensorIR.Proofs.Body.Prefixes
import TensorIR.Proofs.Body.Provenance
import TensorIR.Proofs.Body.Reachable
import TensorIR.Proofs.Body.Redeclaration
import TensorIR.Proofs.Body.Refreshing
import TensorIR.Proofs.Body.Registers
import TensorIR.Proofs.Body.Repeating
import TensorIR.Proofs.Body.Reshaping
import TensorIR.Proofs.Body.Retouching
import TensorIR.Proofs.Body.Rewiring
import TensorIR.Proofs.Body.Snapshots
import TensorIR.Proofs.Body.Steady
import TensorIR.Proofs.Body.Stopping
import TensorIR.Proofs.Body.Tables
import TensorIR.Proofs.Body.Tampering
import TensorIR.Proofs.Body.Teardown
import TensorIR.Proofs.Body.Tiling
import TensorIR.Proofs.Body.Undoing
import TensorIR.Proofs.Body.Wiring
import TensorIR.Proofs.CommandLine.Publishing
import TensorIR.Proofs.CommandLine.Storing
import TensorIR.Proofs.Except
import TensorIR.Proofs.Expression.Loops
import TensorIR.Proofs.Expression.Making
import TensorIR.Proofs.Expression.Registers
import TensorIR.Proofs.Expression.Retouching
import TensorIR.Proofs.Expression.Shapes
import TensorIR.Proofs.Expression.Tiling
import TensorIR.Proofs.Inference.Broadcasting
import TensorIR.Proofs.Inference.Monotone
import TensorIR.Proofs.Inference.Products
import TensorIR.Proofs.Inference.Provenance
import TensorIR.Proofs.Json.Unambiguous
import TensorIR.Proofs.Model.Building
import TensorIR.Proofs.Model.Clean
import TensorIR.Proofs.Model.Description
import TensorIR.Proofs.Model.Faithful
import TensorIR.Proofs.Model.IgnoredAttributes
import TensorIR.Proofs.Model.NameErrors
import TensorIR.Proofs.Model.Naming
import TensorIR.Proofs.Model.Placement
import TensorIR.Proofs.Model.Places
import TensorIR.Proofs.Model.WellFormed
import TensorIR.Proofs.Pipeline.Places
import TensorIR.Proofs.Pipeline.Reordering
import TensorIR.Proofs.Pipeline.Rerunning
import TensorIR.Proofs.Pipeline.Running
import TensorIR.Proofs.Pipeline.Spans
import TensorIR.Proofs.Pipeline.StaticShapes
import TensorIR.Proofs.Pipeline.Validation
import TensorIR.Proofs.Pointwise
import TensorIR.Proofs.Port.Tiling
import TensorIR.Proofs.Shape.Counting
import TensorIR.Proofs.Shape.Indexing
import TensorIR.Proofs.Shape.Instances
import TensorIR.Proofs.Shape.Joins
import TensorIR.Proofs.Shape.Notation
import TensorIR.Proofs.Shape.RoundTrip
import TensorIR.Proofs.Source.Boundaries
import TensorIR.Proofs.Source.Derivation
import TensorIR.Proofs.Source.Integers
import TensorIR.Proofs.Source.Layout
import TensorIR.Proofs.Source.Literals
import TensorIR.Proofs.Source.Nesting
import TensorIR.Proofs.Source.Patterns
import TensorIR.Proofs.Source.Placeless
import TensorIR.Proofs.Source.Reading
import TensorIR.Proofs.Source.Scanning
import TensorIR.Proofs.Source.Sentences
import TensorIR.Proofs.Source.Spelling
import TensorIR.Proofs.Source.Viability
import TensorIR.Proofs.Source.Words
import TensorIR.Proofs.Text.Trimming
import TensorIR.Shape
import TensorIR.Shape.Written
import TensorIR.Source.Grammar
import TensorIR.Source.Lexer
import TensorIR.Source.Parser
import TensorIR.Source.Program
import TensorIR.Source.Span
import TensorIR.Source.Token
import TensorIR.Target
import TensorIR.Text.Blank
import TensorIR.Text.Glyphless
import TensorIR.Text.Numeral
import TensorIR.Text.Quoted
