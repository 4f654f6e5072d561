import GeneratorBench.GeneratorTest
import GeneratorBench.Proofs.Compilation.Lookup
import GeneratorBench.Proofs.Run.Folding
import GeneratorBench.Proofs.Source.Decoration
import GeneratorBench.Proofs.Syntax.Blocks
import GeneratorBench.Proofs.Syntax.Recovery
import GeneratorBench.Script.Collaborator
import GeneratorBench.Proofs.Compilation.Reports
import GeneratorBench.Proofs.Compilation.Growth
import GeneratorBench.Proofs.Compilation.Order
import GeneratorBench.Proofs.Run.Cancellation
import GeneratorBench.Proofs.Run.Outcome
import GeneratorBench.Proofs.Run.Closing
import GeneratorBench.Proofs.Compilation.Locations
import GeneratorBench.Proofs.Run.Account
import GeneratorBench.Proofs.Run.Isolation
import GeneratorBench.Proofs.Run.Views
import GeneratorBench.Proofs.Compilation.Layout
import GeneratorBench.Proofs.Compilation.Visibility
import GeneratorBench.Proofs.Run.Promptness
import GeneratorBench.Proofs.Run.Paths
import GeneratorBench.Proofs.Source.Appending
import GeneratorBench.Proofs.Run.Bracketing
import GeneratorBench.Proofs.Run.Noninterference
import GeneratorBench.Proofs.Run.History
import GeneratorBench.Proofs.Compilation.Namesakes
import GeneratorBench.Proofs.Compilation.Fates
import GeneratorBench.Proofs.Compilation.EntryPoint
import GeneratorBench.Proofs.Source.Partition
import GeneratorBench.Proofs.Syntax.Constraints
import GeneratorBench.Proofs.Run.Blocks
import GeneratorBench.Proofs.Run.RunOrder
import GeneratorBench.Proofs.Compilation.GlobalNames
import GeneratorBench.Proofs.Run.Driver
import GeneratorBench.Proofs.Compilation.Enclosure
import GeneratorBench.Proofs.Run.FinalDiagnostics
import GeneratorBench.Proofs.Source.Numbering
import GeneratorBench.Proofs.Diagnostic.Severities
import GeneratorBench.Proofs.Run.Filtering
import GeneratorBench.Proofs.Syntax.Progress
import GeneratorBench.Proofs.Compilation.InRange
import GeneratorBench.Proofs.Compilation.Declarations
import GeneratorBench.Proofs.Compilation.NameWords
