import NativeBridge.Options.Toml
import NativeBridge.Program.BlockRef
import NativeBridge.Program.FunctionRef
import NativeBridge.Run
import NativeBridge.Proofs.Table.History
import NativeBridge.Proofs.Table.Total
import NativeBridge.Proofs.Machine.Move
import NativeBridge.Proofs.Machine.Operation
import NativeBridge.Proofs.Machine.Registration
import NativeBridge.Proofs.Machine.Lookup
import NativeBridge.Proofs.Machine.Step
import NativeBridge.Proofs.Machine.Scope
import NativeBridge.Proofs.Machine.Run
import NativeBridge.Proofs.Identity
import NativeBridge.Proofs.Accounting
import NativeBridge.Proofs.Protection
import NativeBridge.Proofs.Census
import NativeBridge.Proofs.Machine.Mint
import NativeBridge.Proofs.Ownership
import NativeBridge.Proofs.Machine.Cell
import NativeBridge.Proofs.Contents
import NativeBridge.Proofs.Machine.Journal
import NativeBridge.Proofs.Machine.Call
import NativeBridge.Proofs.Outcome
import NativeBridge.Proofs.Issuance
import NativeBridge.Proofs.Table.Map
import NativeBridge.Proofs.Machine.Masked
import NativeBridge.Proofs.Noninterference
import NativeBridge.Proofs.Machine.Registered
import NativeBridge.Proofs.Registry
import NativeBridge.Proofs.Loading
import NativeBridge.Proofs.Staleness
import NativeBridge.Proofs.Isolation
import NativeBridge.Proofs.Provenance
import NativeBridge.Proofs.Queues
import NativeBridge.Proofs.Machine.Minting
import NativeBridge.Proofs.Interchange
import NativeBridge.Proofs.Machine.Handlers
import NativeBridge.Proofs.Machine.Blind
import NativeBridge.Proofs.Machine.Behind
import NativeBridge.Proofs.Machine.Oblivious
import NativeBridge.Proofs.Agreement
import NativeBridge.Proofs.Failure
import NativeBridge.Proofs.Closing
import NativeBridge.Proofs.Machine.Confined
import NativeBridge.Proofs.Promotion
import NativeBridge.Proofs.Interruption
import NativeBridge.Proofs.Passing
import NativeBridge.Proofs.Refusals
import NativeBridge.Proofs.Resizing
import NativeBridge.Proofs.Kinds
import NativeBridge.Proofs.References
import NativeBridge.Proofs.Integers
import NativeBridge.Proofs.Registering
import NativeBridge.Proofs.Holding
import NativeBridge.Proofs.Encoding
import NativeBridge.Proofs.Machine.HeapLog
import NativeBridge.Proofs.Table.Representation
import NativeBridge.Proofs.Ledger
