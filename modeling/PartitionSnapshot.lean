import PartitionSnapshot.Machine.Journal
import PartitionSnapshot.Main
import PartitionSnapshot.Proofs.Accounting
import PartitionSnapshot.Proofs.Agreement
import PartitionSnapshot.Proofs.ApplyTexts
import PartitionSnapshot.Proofs.Bounds
import PartitionSnapshot.Proofs.Canonical
import PartitionSnapshot.Proofs.Committed
import PartitionSnapshot.Proofs.Draining
import PartitionSnapshot.Proofs.Exhaustion
import PartitionSnapshot.Proofs.FreeList
import PartitionSnapshot.Proofs.Interchange
import PartitionSnapshot.Proofs.LegacyCounts
import PartitionSnapshot.Proofs.LoadCrashes
import PartitionSnapshot.Proofs.Mirroring
import PartitionSnapshot.Proofs.Overriding
import PartitionSnapshot.Proofs.Persisting
import PartitionSnapshot.Proofs.PrefixFree
import PartitionSnapshot.Proofs.Repetition
import PartitionSnapshot.Proofs.Representation
import PartitionSnapshot.Proofs.RoundTrip
import PartitionSnapshot.Proofs.Runs
import PartitionSnapshot.Proofs.Sessions
import PartitionSnapshot.Proofs.SignTexts
import PartitionSnapshot.Proofs.Signing
import PartitionSnapshot.Proofs.Simulation
import PartitionSnapshot.Proofs.SourceErrors
import PartitionSnapshot.Proofs.Tampering
import PartitionSnapshot.Proofs.TruncatedLoads
