import Hyperscript.Main
import Hyperscript.Proofs.Optimization.Folding
import Hyperscript.Proofs.Optimization.Pruning
import Hyperscript.Proofs.Optimization.Unrolling
import Hyperscript.Proofs.Optimization.CachedRuns
import Hyperscript.Proofs.Optimization.Invariants
import Hyperscript.Proofs.Optimization.Gates
import Hyperscript.Proofs.Program.LoopIndex
import Hyperscript.Proofs.Program.Declarations
import Hyperscript.Proofs.Program.Brackets
import Hyperscript.Proofs.Program.ControlFlow
import Hyperscript.Proofs.Script.Blocks
import Hyperscript.Proofs.Optimization.Settled
import Hyperscript.Proofs.Compile.Independence
import Hyperscript.Proofs.Text.Literals
import Hyperscript.Proofs.Program.QuotedTexts
import Hyperscript.Proofs.Compile.Listeners
import Hyperscript.Proofs.Compile.Reading
import Hyperscript.Proofs.Compile.Unbinding
import Hyperscript.Proofs.Script.Respelling
import Hyperscript.Proofs.Compile.Imports
import Hyperscript.Proofs.Script.RoundTrip
import Hyperscript.Proofs.Compile.DeclaredFunctions
import Hyperscript.Proofs.Number.Shapes
import Hyperscript.Proofs.Program.Exits
import Hyperscript.Proofs.Text.Lexemes
import Hyperscript.Proofs.Program.MemberAccess
import Hyperscript.Proofs.Program.ItemReferences
import Hyperscript.Proofs.Optimization.Ownership
import Hyperscript.Proofs.Optimization.Presence
import Hyperscript.Proofs.Program.Traces
import Hyperscript.Proofs.Program.Operations
import Hyperscript.Proofs.Analysis.Exactness
import Hyperscript.Proofs.Optimization.Changes
import Hyperscript.Proofs.Program.Sequences
import Hyperscript.Proofs.Number.Denotation
import Hyperscript.Proofs.Script.Rewriting
import Hyperscript.Proofs.Compile.Bindings
import Hyperscript.Proofs.Compile.ContextRuns
import Hyperscript.Proofs.Program.Layers
import Hyperscript.Proofs.Optimization.Slugs
