import Pinaivu.Wire.Unambiguous
import Pinaivu.Wire.Json
import Pinaivu.Wire.JsonReading
import Pinaivu.Crypto.Primitives
import Pinaivu.Protocol.Types
import Pinaivu.Wire.Bcs
import Pinaivu.Protocol.Artefacts
import Pinaivu.Protocol.CanonicalBytes
import Pinaivu.Protocol.AckBinding
import Pinaivu.Protocol.RoutingReceipt
import Pinaivu.Protocol.ReceiptBinding
import Pinaivu.Sidecar.Settle
import Pinaivu.Sidecar.RebuiltMessage
import Pinaivu.Async.Routine
import Pinaivu.Async.Run
import Pinaivu.Coordinator.Auction
import Pinaivu.Coordinator.Calls
import Pinaivu.Coordinator.Externals
import Pinaivu.Coordinator.Payments
import Pinaivu.Coordinator.Receipts
import Pinaivu.Coordinator.EventLoop
import Pinaivu.Coordinator.Inference
import Pinaivu.Coordinator.Settlement
import Pinaivu.Coordinator.System
import Pinaivu.Coordinator.Effects
import Pinaivu.Coordinator.InFlight
import Pinaivu.Coordinator.Completion
import Pinaivu.Coordinator.ProofReuse
import Pinaivu.Coordinator.Authorisation
import Pinaivu.Coordinator.Rejection
import Pinaivu.Coordinator.Tasks
import Pinaivu.Coordinator.Finality
import Pinaivu.Coordinator.Coverage
import Pinaivu.Coordinator.BidOrigin
import Pinaivu.Protocol.Separation
import Pinaivu.Wire.Http
import Pinaivu.Sidecar.Server
import Pinaivu.Coordinator.Admin
import Pinaivu.Async.Typestate
import Pinaivu.Coordinator.EnclaveAgreement
import Pinaivu.Coordinator.DispatchJobs
import Pinaivu.Coordinator.RefundOnce
import Pinaivu.Coordinator.Tracking
import Pinaivu.Coordinator.ChatPhases
import Pinaivu.Coordinator.PayoutOrder
import Pinaivu.Coordinator.Performed
import Pinaivu.Coordinator.PriceCeiling
import Pinaivu.Coordinator.Auctions
import Pinaivu.Coordinator.CrossTalk
import Pinaivu.Coordinator.Executions
import Pinaivu.Onchain.Vault
import Pinaivu.Coordinator.PaidRows
import Pinaivu.Async.Evaluation
import Pinaivu.Coordinator.PaidInFull
import Pinaivu.Coordinator.Turns
import Pinaivu.Coordinator.Stranded
import Pinaivu.Coordinator.Winner
import Pinaivu.Coordinator.WinnerPayout
import Pinaivu.Coordinator.PendingRows
import Pinaivu.Coordinator.OneExecution
import Pinaivu.Coordinator.RefundDeadline
import Pinaivu.Coordinator.NoTrace
import Pinaivu.Coordinator.Bookkeeping
import Pinaivu.Protocol.BadAddress
import Pinaivu.Store.Slots
import Pinaivu.Coordinator.RegistryTrace
import Pinaivu.Coordinator.RegistryAddresses
import Pinaivu.Coordinator.Models
import Pinaivu.Wire.Lines
import Pinaivu.Boot.Config
import Pinaivu.Boot.LogForwarder
import Pinaivu.Async.Handshake
import Pinaivu.Coordinator.Stances
import Pinaivu.Coordinator.Wiring
import Pinaivu.Coordinator.Progress
import Pinaivu.Coordinator.LoopTurns
import Pinaivu.Coordinator.AckAnswers
import Pinaivu.Coordinator.Served
import Pinaivu.Coordinator.Books
import Pinaivu.Coordinator.JobQueue
import Pinaivu.Coordinator.WarmNodes
import Pinaivu.Wire.Base64
import Pinaivu.Crypto.Enclave
import Pinaivu.Coordinator.EncryptedPrompts
import Pinaivu.Store.Purse
import Pinaivu.Coordinator.Solvency
import Pinaivu.Async.Rewriting
import Pinaivu.Coordinator.Prompts
