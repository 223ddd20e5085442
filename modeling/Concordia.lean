import Concordia.Lib.Transition
import Concordia.Lib.Encoding
import Concordia.Contract.Types
import Concordia.Contract.Encoding
import Concordia.Contract.Injectivity
import Concordia.Contract.GovernanceReceiptV3
import Concordia.Contract.Effects
import Concordia.Contract.History
import Concordia.Contract.Provenance
import Concordia.Contract.Replay
import Concordia.Contract.Binding
import Concordia.Contract.Preimages
import Concordia.Contract.NativeTransfer
import Concordia.Contract.Deployment
import Concordia.Contract.Stability
import Concordia.Contract.GovernanceReceipt
import Concordia.Contract.StoredReceipts
import Concordia.Contract.QuorumCount
import Concordia.Js.Value
import Concordia.Js.Ascii
import Concordia.Verify.Encoders
import Concordia.Verify.Rendering
import Concordia.Verify.HeaderAgreement
import Concordia.Verify.NativeAgreement
import Concordia.Verify.X402Agreement
import Concordia.Verify.EnvelopeAgreement
import Concordia.Js.Json
import Concordia.Js.Grammar
import Concordia.Js.Scanning
import Concordia.Js.Parsing
import Concordia.Js.Unambiguity
import Concordia.Js.Pasting
import Concordia.Js.Characters
import Concordia.Contract.ReceiptText
import Concordia.Verify.Registry
import Concordia.Verify.ProofRegistry
import Concordia.Verify.RegistryTotality
import Concordia.Python.Value
import Concordia.Python.Json
import Concordia.Python.Scanning
import Concordia.Python.RoundTrip
import Concordia.Python.Canonical
import Concordia.Lib.Transactions
import Concordia.Js.Utf8
import Concordia.Gateway.Database
import Concordia.Gateway.Integrity
import Concordia.Gateway.Approval
import Concordia.Gateway.Rooms
import Concordia.Gateway.Submission
import Concordia.Gateway.Confirmation
import Concordia.Gateway.Nonce
import Concordia.Gateway.Authorization
import Concordia.Gateway.ApproveUi
import Concordia.Gateway.Operations
import Concordia.Lib.HashChain
import Concordia.Gateway.Effects
import Concordia.Gateway.Steps
import Concordia.Gateway.Chain
import Concordia.Gateway.Models
import Concordia.Gateway.Lifecycle
import Concordia.Gateway.States
import Concordia.Gateway.Grants
import Concordia.Gateway.Agents
import Concordia.Gateway.Decisions
import Concordia.Gateway.Authority
import Concordia.Gateway.Publications
import Concordia.Gateway.PlanBinding
import Concordia.Gateway.Execution
import Concordia.Gateway.RiskFloor
import Concordia.Gateway.PolicyPath
import Concordia.Gateway.PublicationOrder
import Concordia.Locke.Execution
import Concordia.Locke.Broadcast
import Concordia.Locke.Settlement
import Concordia.Gateway.SuppressionRules
import Concordia.Rowan.Triage
import Concordia.Rowan.Suppression
import Concordia.Locke.Messages
import Concordia.Locke.Approvals
import Concordia.Gateway.Migration
import Concordia.Shared.LlmBudget
import Concordia.Lib.Cursor
import Concordia.Gateway.Chambers
import Concordia.Shared.LocalRoomRuntime
import Concordia.Shared.X402Payments
import Concordia.Verify.NativeDeploy
import Concordia.Verify.NativeFinality
import Concordia.Python.Indented
import Concordia.Shared.CardIntake
import Concordia.Shared.CardMessages
import Concordia.Verity.CrossCheck
import Concordia.Verity.Review
import Concordia.Verity.Loop
import Concordia.Js.Arrangement
import Concordia.Lib.Apportionment
import Concordia.Python.Ordering
import Concordia.Shared.BpsAllocation
import Concordia.Shared.DaoPolicy
import Concordia.Verify.CasperState
import Concordia.Verify.PostTransfer
import Concordia.Lib.BufferReader
import Concordia.Verify.DeployBytes
import Concordia.Verify.NativeTransferScan
import Concordia.Verify.MultiNodeFinality
import Concordia.Verify.DeployJson
import Concordia.Lib.SortedEncoding
import Concordia.Verify.Manifests
import Concordia.Gateway.FailedOperations
import Concordia.Alden.Plans
import Concordia.Gateway.PlanHashes
import Concordia.Locke.Completeness
import Concordia.Locke.Finality
import Concordia.Lib.Substitution
import Concordia.Shared.Redaction
import Concordia.Lib.Session
import Concordia.Verify.Addresses
import Concordia.Verify.LocalMode
import Concordia.Verify.ModeAgreement
import Concordia.Gateway.RateLimit
import Concordia.Verify.CasperLive
import Concordia.Verify.Forged
import Concordia.Shared.DemoPayment
import Concordia.Shared.TransferRecords
import Concordia.Gateway.DemoCleanup
import Concordia.Scripts.LiveChain
import Concordia.Verify.PublicConnections
import Concordia.Gateway.RoomMessages
import Concordia.Mercer.Diagnosis
import Concordia.Mercer.Trail
import Concordia.Verify.CardChain
import Concordia.Verify.Interchange
import Concordia.Verify.SealedChains
import Concordia.Verify.Readback
import Concordia.Verify.ContractReadback
import Concordia.Gateway.KeyTables
