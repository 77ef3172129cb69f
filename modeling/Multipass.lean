import Multipass.Config.Json
import Multipass.Digest.Sha256
import Multipass.Main
import Multipass.Proofs.Batch.Cancelled
import Multipass.Proofs.Batch.Final
import Multipass.Proofs.Batch.Hall
import Multipass.Proofs.Batch.Isolation
import Multipass.Proofs.Batch.Limit
import Multipass.Proofs.Batch.Preview
import Multipass.Proofs.Batch.Shutdown
import Multipass.Proofs.Completion.Exchange
import Multipass.Proofs.Executor.Excerpts
import Multipass.Proofs.Executor.Ownership
import Multipass.Proofs.Executor.Resumption
import Multipass.Proofs.Executor.Scoring
import Multipass.Proofs.Executor.Settlement
import Multipass.Proofs.Ingest.Exact
import Multipass.Proofs.Ingest.Outside
import Multipass.Proofs.Ingest.Renewal
import Multipass.Proofs.Progress
import Multipass.Proofs.Prompt.Content
import Multipass.Proofs.Registry.Validity
import Multipass.Proofs.Relational.Order
import Multipass.Proofs.Relational.Pending
import Multipass.Proofs.Relational.Pool
import Multipass.Proofs.Relational.ReadBack
import Multipass.Proofs.Relational.Refinement
import Multipass.Proofs.Score.Computation
import Multipass.Proofs.Score.Prose
import Multipass.Proofs.Store.Pending
import Multipass.Proofs.Text.Tail
import Multipass.Registry.Json
import Multipass.Store.Memory
import Multipass.Store.Relational.Column
