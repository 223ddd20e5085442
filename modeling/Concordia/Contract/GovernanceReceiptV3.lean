import Concordia.Contract.Encoding
import Mathlib.Logic.Function.Basic

/-! The V3 governance receipt contract: its storage, its four mutating entry
points and the constructor. A revert is an `Error`; it discards every write. -/
namespace Concordia.Contract.GovernanceReceiptV3

inductive Error where
  | invalidSignerSet
  | invalidThreshold
  | invalidRoleAddress
  | unauthorizedProposer
  | unauthorizedSigner
  | unauthorizedFinalizer
  | proposalAlreadyExists
  | quorumNotMet
  | proposalMissing
  | envelopeHashMismatch
  | alreadyApproved
  | alreadyFinalized
  | actionAlreadyAuthorized
  | invalidProposalId
  | invalidEnvelopeField
  | invalidActionField
  deriving DecidableEq, Repr

inductive Event where
  | v3Initialized (schemaVersion : UInt32) (deploymentDomain proposer finalizer : Bytes32)
      (signerA signerB signerC : Bytes32) (threshold : UInt8)
  | envelopeProposed (proposalId : String) (envelopeHash proposer : Bytes32)
  | envelopeApproved (proposalId : String) (envelopeHash signer : Bytes32) (approvalCount : UInt8)
  | envelopeFinalized (proposalId : String) (envelopeHash actionId finalizer : Bytes32)
      (approvalCount : UInt8) (schemaVersion : UInt32) (actionKind : UInt8)
  deriving DecidableEq

/-- A `Var` is an `Option`; a `Mapping` is a partial function. -/
structure State where
  owner : Option Bytes32
  schemaVersionValue : Option UInt32
  deploymentDomainValue : Option Bytes32
  chainName : Option String
  proposerAccount : Option Bytes32
  finalizerAccount : Option Bytes32
  signerAAccount : Option Bytes32
  signerBAccount : Option Bytes32
  signerCAccount : Option Bytes32
  quorumThreshold : Option UInt8
  signers : Bytes32 → Option Bool
  proposedEnvelopes : String → Option Bytes32
  approvalCounts : String → Option UInt8
  approvals : String × Bytes32 × Bytes32 → Option Bool
  finalizedProposals : String → Option Bool
  finalizedEnvelopes : String → Option Bytes32
  authorizedActions : Bytes32 → Option Bool
  events : List Event

/-- Freshly installed storage: nothing written yet. -/
def State.empty : State where
  owner := none
  schemaVersionValue := none
  deploymentDomainValue := none
  chainName := none
  proposerAccount := none
  finalizerAccount := none
  signerAAccount := none
  signerBAccount := none
  signerCAccount := none
  quorumThreshold := none
  signers _ := none
  proposedEnvelopes _ := none
  approvalCounts _ := none
  approvals _ := none
  finalizedProposals _ := none
  finalizedEnvelopes _ := none
  authorizedActions _ := none
  events := []

/-- `Mapping::set`. -/
def set {K V : Type} [DecidableEq K] (m : K → Option V) (k : K) (v : V) : K → Option V :=
  Function.update m k (some v)

def zero32 : Bytes32 := Vector.replicate 32 0

namespace State

def schemaVersion (s : State) : UInt32 := s.schemaVersionValue.getD 0
def deploymentDomain (s : State) : Bytes32 := s.deploymentDomainValue.getD zero32
def casperChainName (s : State) : String := s.chainName.getD ""
def proposer (s : State) : Bytes32 := s.proposerAccount.getD zero32
def finalizer (s : State) : Bytes32 := s.finalizerAccount.getD zero32
def signerA (s : State) : Bytes32 := s.signerAAccount.getD zero32
def signerB (s : State) : Bytes32 := s.signerBAccount.getD zero32
def signerC (s : State) : Bytes32 := s.signerCAccount.getD zero32
def threshold (s : State) : UInt8 := s.quorumThreshold.getD 0
def proposedEnvelope (s : State) (proposalId : String) : Option Bytes32 :=
  s.proposedEnvelopes proposalId
def approvalCount (s : State) (proposalId : String) : UInt8 :=
  (s.approvalCounts proposalId).getD 0

def hasApproved (s : State) (proposalId : String) (signer : Bytes32) : Bool :=
  match s.proposedEnvelopes proposalId with
  | none => false
  | some envelopeHash => (s.approvals (proposalId, envelopeHash, signer)).getD false

def quorumMet (s : State) (proposalId : String) : Bool :=
  (s.proposedEnvelopes proposalId).isSome && s.threshold ≤ s.approvalCount proposalId

def finalized (s : State) (proposalId : String) : Bool :=
  (s.finalizedProposals proposalId).getD false

def finalizedEnvelope (s : State) (proposalId : String) : Option Bytes32 :=
  s.finalizedEnvelopes proposalId

def actionAuthorized (s : State) (actionId : Bytes32) : Bool :=
  (s.authorizedActions actionId).getD false

end State

/-- Revert with `error` unless `c`. -/
def require (c : Prop) [Decidable c] (error : Error) : Except Error Unit :=
  if c then .ok () else .error error

def revertValidation : ValidationError → Error
  | .invalidProposalId => .invalidProposalId
  | .invalidEnvelopeField => .invalidEnvelopeField
  | .invalidActionField => .invalidActionField

/-- `unwrap_or_else(|error| self.revert_validation(error))`. -/
def orRevert {V : Type} (result : Except ValidationError V) : Except Error V :=
  result.mapError revertValidation

def callerAccountOrRevert (caller : Address) (error : Error) : Except Error Bytes32 :=
  match caller.asAccountHash with
  | some account => .ok account
  | none => .error error

/-- `unwrap_or_else(|| revert(error))`. -/
def unwrapOrRevert {V : Type} (value : Option V) (error : Error) : Except Error V :=
  match value with
  | some v => .ok v
  | none => .error error

structure InitArgs where
  proposer : Bytes32
  finalizer : Bytes32
  signerA : Bytes32
  signerB : Bytes32
  signerC : Bytes32
  threshold : UInt8
  casperChainName : String
  installationNonce : Bytes32

/-- The header arguments both finalize entry points take. -/
structure HeaderArgs where
  proposalId : String
  proposalNonce : Bytes32
  decisionCode : UInt8
  requestedAllocationBps : UInt32
  approvedAllocationBps : UInt32
  actionKind : UInt8
  actionVersion : UInt32
  actionId : Bytes32
  proposalHash : Bytes32
  policyHash : Bytes32
  planHash : Bytes32
  finalCardHash : Bytes32
  dissentHash : Bytes32
  agentActionHash : Bytes32
  preauthEvidenceRoot : Bytes32
  authorizedMetadataRoot : Bytes32
  deriving DecidableEq

section EntryPoints
variable (blake2b256 : List UInt8 → Bytes32)

def init (caller : Address) (args : InitArgs) : Except Error State := do
  let owner ← callerAccountOrRevert caller .invalidRoleAddress
  let roles := [args.proposer, args.finalizer, args.signerA, args.signerB, args.signerC]
  require (¬ (roles.any isZero32 ∨ owner ∈ roles)) .invalidRoleAddress
  let governanceSigners := [args.signerA, args.signerB, args.signerC]
  require (¬ (args.proposer = args.finalizer ∨
    ∃ signer ∈ governanceSigners, signer = args.proposer ∨ signer = args.finalizer))
    .invalidRoleAddress
  require (¬ (args.signerA = args.signerB ∨ args.signerA = args.signerC ∨
    args.signerB = args.signerC)) .invalidSignerSet
  require (args.threshold = 2 ∨ args.threshold = 3) .invalidThreshold
  let deploymentDomain ← orRevert
    (deriveDeploymentDomain blake2b256 args.casperChainName args.installationNonce)
  return { State.empty with
    owner := some owner
    schemaVersionValue := some Contract.schemaVersion
    deploymentDomainValue := some deploymentDomain
    chainName := some args.casperChainName
    proposerAccount := some args.proposer
    finalizerAccount := some args.finalizer
    signerAAccount := some args.signerA
    signerBAccount := some args.signerB
    signerCAccount := some args.signerC
    quorumThreshold := some args.threshold
    signers := set (set (set State.empty.signers args.signerA true) args.signerB true)
      args.signerC true
    events := [.v3Initialized Contract.schemaVersion deploymentDomain args.proposer
      args.finalizer args.signerA args.signerB args.signerC args.threshold] }

def proposeEnvelope (s : State) (caller : Address) (proposalId : String)
    (envelopeHash : Bytes32) : Except Error State := do
  let caller ← callerAccountOrRevert caller .unauthorizedProposer
  require (caller = s.proposer) .unauthorizedProposer
  require (validProposalId proposalId) .invalidProposalId
  require (s.proposedEnvelopes proposalId = none) .proposalAlreadyExists
  return { s with
    proposedEnvelopes := set s.proposedEnvelopes proposalId envelopeHash
    approvalCounts := set s.approvalCounts proposalId 0
    events := s.events ++ [.envelopeProposed proposalId envelopeHash caller] }

def approveEnvelope (s : State) (caller : Address) (proposalId : String)
    (envelopeHash : Bytes32) : Except Error State := do
  let signer ← callerAccountOrRevert caller .unauthorizedSigner
  require ((s.signers signer).getD false) .unauthorizedSigner
  require (validProposalId proposalId) .invalidProposalId
  let committed ← unwrapOrRevert (s.proposedEnvelopes proposalId) .proposalMissing
  require (¬ s.finalized proposalId) .alreadyFinalized
  require (committed = envelopeHash) .envelopeHashMismatch
  let key := (proposalId, envelopeHash, signer)
  require (¬ (s.approvals key).getD false) .alreadyApproved
  let count := s.approvalCount proposalId + 1
  return { s with
    approvals := set s.approvals key true
    approvalCounts := set s.approvalCounts proposalId count
    events := s.events ++ [.envelopeApproved proposalId envelopeHash signer count] }

def requireFinalizationPreconditions (s : State) (caller : Address) (proposalId : String) :
    Except Error Unit := do
  let caller ← callerAccountOrRevert caller .unauthorizedFinalizer
  require (caller = s.finalizer) .unauthorizedFinalizer
  require (validProposalId proposalId) .invalidProposalId
  require ((s.proposedEnvelopes proposalId).isSome) .proposalMissing
  require (¬ s.finalized proposalId) .alreadyFinalized
  require (s.quorumMet proposalId) .quorumNotMet

def commonHeader (s : State) (args : HeaderArgs) : CommonHeader where
  schemaVersion := Contract.schemaVersion
  deploymentDomain := s.deploymentDomain
  casperChainName := s.casperChainName
  proposalId := args.proposalId
  proposalNonce := args.proposalNonce
  decisionCode := args.decisionCode
  requestedAllocationBps := args.requestedAllocationBps
  approvedAllocationBps := args.approvedAllocationBps
  actionKind := args.actionKind
  actionVersion := args.actionVersion
  actionId := args.actionId
  proposalHash := args.proposalHash
  policyHash := args.policyHash
  planHash := args.planHash
  finalCardHash := args.finalCardHash
  dissentHash := args.dissentHash
  agentActionHash := args.agentActionHash
  preauthEvidenceRoot := args.preauthEvidenceRoot
  authorizedMetadataRoot := args.authorizedMetadataRoot

def validateHeaderBasic (header : CommonHeader) (expectedKind : UInt8) : Except Error Unit := do
  orRevert header.validateBasic
  require (¬ (header.actionKind ≠ expectedKind ∨ header.actionVersion ≠ Contract.actionVersion))
    .invalidActionField

def requireCommittedHash (s : State) (proposalId : String) (computed : Bytes32) :
    Except Error Unit := do
  let committed ← unwrapOrRevert (s.proposedEnvelopes proposalId) .proposalMissing
  require (computed = committed) .envelopeHashMismatch

def finishFinalization (s : State) (proposalId : String) (envelopeHash actionId : Bytes32)
    (actionKind : UInt8) : Except Error (State × Bytes32) := do
  require (¬ s.actionAuthorized actionId) .actionAlreadyAuthorized
  return ({ s with
    finalizedProposals := set s.finalizedProposals proposalId true
    finalizedEnvelopes := set s.finalizedEnvelopes proposalId envelopeHash
    authorizedActions := set s.authorizedActions actionId true
    events := s.events ++ [.envelopeFinalized proposalId envelopeHash actionId s.finalizer
      (s.approvalCount proposalId) Contract.schemaVersion actionKind] }, envelopeHash)

/-- The checks `finalize_native_transfer` makes on header and body, and the envelope hash it
recomputes from them. -/
def nativeEnvelopeHash (header : CommonHeader) (body : NativeTransferV1) :
    Except Error Bytes32 := do
  validateHeaderBasic header nativeTransferKind
  orRevert body.validateBasic
  let core ← orRevert body.actionCoreBytes
  require (deriveActionId blake2b256 header.actionKind body.actionNonce core = header.actionId)
    .invalidActionField
  let expectedTransferId ← orRevert
    (deriveTransferId blake2b256 header.proposalId header.proposalNonce header.actionId)
  require (body.transferId = expectedTransferId) .invalidActionField
  let bodyBytes ← orRevert body.canonicalBytes
  orRevert (deriveEnvelopeHash blake2b256 header bodyBytes)

def checkNativeTransfer (s : State) (args : HeaderArgs) (body : NativeTransferV1) :
    Except Error Bytes32 := do
  let envelopeHash ← nativeEnvelopeHash blake2b256 (commonHeader s args) body
  requireCommittedHash s args.proposalId envelopeHash
  return envelopeHash

def finalizeNativeTransfer (s : State) (caller : Address) (args : HeaderArgs)
    (body : NativeTransferV1) : Except Error (State × Bytes32) := do
  requireFinalizationPreconditions s caller args.proposalId
  let envelopeHash ← checkNativeTransfer blake2b256 s args body
  orRevert (commonHeader s args).validateSemantics
  orRevert (body.validateSemantics args.approvedAllocationBps)
  finishFinalization s args.proposalId envelopeHash args.actionId args.actionKind

/-- The same part of `finalize_official_x402`, which derives no transfer id. -/
def officialX402EnvelopeHash (header : CommonHeader) (body : OfficialX402SettlementV1) :
    Except Error Bytes32 := do
  validateHeaderBasic header officialX402Kind
  orRevert body.validateBasic
  let core ← orRevert body.actionCoreBytes
  require (deriveActionId blake2b256 header.actionKind body.actionNonce core = header.actionId)
    .invalidActionField
  let bodyBytes ← orRevert body.canonicalBytes
  orRevert (deriveEnvelopeHash blake2b256 header bodyBytes)

def checkOfficialX402 (s : State) (args : HeaderArgs) (body : OfficialX402SettlementV1) :
    Except Error Bytes32 := do
  let envelopeHash ← officialX402EnvelopeHash blake2b256 (commonHeader s args) body
  requireCommittedHash s args.proposalId envelopeHash
  return envelopeHash

def finalizeOfficialX402 (s : State) (caller : Address) (args : HeaderArgs)
    (body : OfficialX402SettlementV1) : Except Error (State × Bytes32) := do
  requireFinalizationPreconditions s caller args.proposalId
  let envelopeHash ← checkOfficialX402 blake2b256 s args body
  orRevert (commonHeader s args).validateSemantics
  orRevert body.validateSemantics
  finishFinalization s args.proposalId envelopeHash args.actionId args.actionKind

/-- A call to one of the mutating entry points, with its arguments. -/
inductive Call where
  | proposeEnvelope (proposalId : String) (envelopeHash : Bytes32)
  | approveEnvelope (proposalId : String) (envelopeHash : Bytes32)
  | finalizeNativeTransfer (args : HeaderArgs) (body : NativeTransferV1)
  | finalizeOfficialX402 (args : HeaderArgs) (body : OfficialX402SettlementV1)
  deriving DecidableEq

/-- The state a call leaves behind, or the error it reverts with. -/
def execute (s : State) (caller : Address) : Call → Except Error State
  | .proposeEnvelope proposalId envelopeHash => proposeEnvelope s caller proposalId envelopeHash
  | .approveEnvelope proposalId envelopeHash => approveEnvelope s caller proposalId envelopeHash
  | .finalizeNativeTransfer args body =>
    Prod.fst <$> finalizeNativeTransfer blake2b256 s caller args body
  | .finalizeOfficialX402 args body =>
    Prod.fst <$> finalizeOfficialX402 blake2b256 s caller args body

/-- A step of a run: who calls, and what. A reverted call is refused. -/
def step (s : State) (action : Address × Call) : Option State :=
  (execute blake2b256 s action.1 action.2).toOption

end EntryPoints
end Concordia.Contract.GovernanceReceiptV3
