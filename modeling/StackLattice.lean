import StackLattice.Logging.Stored
import StackLattice.Main
import StackLattice.Proofs.Value.Instance
import StackLattice.Proofs.Run.Interleaving
import StackLattice.Proofs.Run.Accounting
import StackLattice.Proofs.Run.Order
import StackLattice.Proofs.Evaluation.Closure
import StackLattice.Proofs.Evaluation.Described
import StackLattice.Proofs.Evaluation.Building
import StackLattice.Proofs.Evaluation.Simulation
import StackLattice.Proofs.Evaluation.Plain
import StackLattice.Proofs.Evaluation.Agreement
import StackLattice.Proofs.Value.Meet
import StackLattice.Proofs.Evaluation.Denotation
import StackLattice.Proofs.Evaluation.Order
import StackLattice.Proofs.Evaluation.FileOrder
import StackLattice.Proofs.Syntax.Height
import StackLattice.Proofs.Evaluation.Joined
import StackLattice.Proofs.Document.Roundtrip
import StackLattice.Proofs.Instance.Edited
import StackLattice.Proofs.Run.Line
import StackLattice.Proofs.Evaluation.Chain
import StackLattice.Proofs.Evaluation.Standing
import StackLattice.Proofs.Evaluation.Calls
import StackLattice.Proofs.Evaluation.Element
import StackLattice.Proofs.Evaluation.Nesting
import StackLattice.Proofs.Evaluation.Normal
import StackLattice.Proofs.Evaluation.Uncommented
import StackLattice.Proofs.Run.Permits
import StackLattice.Proofs.Value.Semilattice
import StackLattice.Proofs.Evaluation.Repeated
import StackLattice.Proofs.Evaluation.Grouping
import StackLattice.Proofs.Value.Override
import StackLattice.Proofs.Evaluation.Extended
import StackLattice.Proofs.Evaluation.Bodies
import StackLattice.Proofs.Evaluation.Selectors
import StackLattice.Proofs.Value.Conflict
import StackLattice.Proofs.Syntax.Commas
import StackLattice.Proofs.Syntax.Blocks
import StackLattice.Proofs.Syntax.Revisions
import StackLattice.Proofs.Syntax.Escapes
import StackLattice.Proofs.Evaluation.LineEndings
import StackLattice.Proofs.Document.Integers
import StackLattice.Proofs.Syntax.Positions
import StackLattice.Proofs.Instance.Declared
import StackLattice.Proofs.Syntax.DocComments
import StackLattice.Proofs.Syntax.Extents
import StackLattice.Proofs.Syntax.Calls
import StackLattice.Proofs.Syntax.Balanced
import StackLattice.Proofs.Workspace.CleanPath
import StackLattice.Proofs.Configuration.Variables
import StackLattice.Proofs.Evaluation.Reached
