import Multistage.Arena
import Multistage.Options.Text
import Multistage.Proofs.Template
import Multistage.Proofs.Node
import Multistage.Proofs.Node.Core
import Multistage.Proofs.Node.Field
import Multistage.Proofs.Merge
import Multistage.Proofs.Matrix
import Multistage.Proofs.Template.Cut
import Multistage.Proofs.Patch.Program
import Multistage.Proofs.Node.Matrix
import Multistage.Proofs.Arena.Slots
import Multistage.Proofs.Arena.Catalog
import Multistage.Proofs.Arena.Step
import Multistage.Proofs.Arena.Effect
import Multistage.Proofs.Arena.Sound
import Multistage.Proofs.Arena.History
import Multistage.Proofs.Arena.Ledger
import Multistage.Proofs.Arena.Refinement
import Multistage.Proofs.Arena.Interning
import Multistage.Proofs.Node.Overridden
import Multistage.Proofs.Node.Canonical
import Multistage.Proofs.Arena.Reach
import Multistage.Proofs.Arena.Representation
import Multistage.Proofs.Arena.Failure
import Multistage.Proofs.Arena.Safety
import Multistage.Proofs.Arena.Foreign
import Multistage.Proofs.Binary64
import Multistage.Proofs.Node.Bounds
import Multistage.Proofs.Decimal
import Multistage.Proofs.Decimal.Text
import Multistage.Proofs.Json.Token
import Multistage.Proofs.Json.Codec
import Multistage.Proofs.Options.Text
import Multistage.Proofs.Merge.Walk
import Multistage.Proofs.Merge.Laws
import Multistage.Proofs.Node.Rows
import Multistage.Proofs.Node.Accepted
import Multistage.Proofs.Node.Decoded
import Multistage.Proofs.Runs
import Multistage.Proofs.Node.Tally
import Multistage.Proofs.Objections
import Multistage.Proofs.Template.Accepted
import Multistage.Proofs.Arena.Admission
import Multistage.Proofs.Arena.RowCache
import Multistage.Proofs.Patch.Comparison
import Multistage.Proofs.Arena.Recycling
import Multistage.Proofs.Partition.Lookup
import Multistage.Proofs.Partition.Integers
import Multistage.Proofs.Partition.Domain
