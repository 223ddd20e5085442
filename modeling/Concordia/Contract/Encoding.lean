import Concordia.Contract.Types

/-! The V3 envelope: typed header and bodies, their checks, canonical bytes and
derived identifiers. The digest of the `blake2` crate is a parameter. -/
namespace Concordia.Contract
open Concordia.Lib.Encoding

def schemaVersion : UInt32 := 3
def actionVersion : UInt32 := 1
def casperChainName : String := "casper-test"
def packageKeyName : String := "concordia_governance_receipt_v3"
def nativeTransferKind : UInt8 := 1
def officialX402Kind : UInt8 := 2

def domainSeparator : List UInt8 := asBytes "CONCORDIA_DOMAIN_V3\x00"
def envelopeSeparator : List UInt8 := asBytes "CONCORDIA_GOVERNANCE_ENVELOPE_V3\x00"
def actionIdSeparator : List UInt8 := asBytes "CONCORDIA_ACTION_ID_V3\x00"
def transferIdSeparator : List UInt8 := asBytes "CONCORDIA_TRANSFER_ID_V3\x00"

def wcsprPackage : Bytes32 := #v[
  0x3d, 0x80, 0xdf, 0x21, 0xba, 0x4e, 0xe4, 0xd6, 0x6a, 0x2a, 0x1f, 0x60, 0xc3, 0x25, 0x70, 0xdd,
  0x56, 0x85, 0xe4, 0xb2, 0x79, 0xf6, 0x53, 0x81, 0x62, 0xa5, 0xfd, 0x13, 0x14, 0x84, 0x7c, 0x1e]

def wcsprContract : Bytes32 := #v[
  0x03, 0x27, 0x06, 0xae, 0xae, 0x17, 0x0f, 0xaf, 0xb6, 0x40, 0x3c, 0xe3, 0xbe, 0xc5, 0x80, 0x62,
  0xf1, 0xc4, 0x28, 0x87, 0x10, 0x83, 0x8f, 0xe1, 0xdf, 0x98, 0xce, 0x4f, 0xf6, 0xc3, 0x5f, 0x4a]

inductive ValidationError where
  | invalidProposalId
  | invalidEnvelopeField
  | invalidActionField
  deriving DecidableEq, Repr

def validProposalId (value : String) : Bool :=
  asBytes value ≠ [] && (asBytes value).length ≤ 64 &&
    (asBytes value).all fun byte =>
      (65 ≤ byte && byte ≤ 90) || (48 ≤ byte && byte ≤ 57) || byte == 45

def isZero32 (value : Bytes32) : Bool := value.toList.all (· == 0)

def validatePrintable (value : String) (min max : Nat) : Bool :=
  min ≤ (asBytes value).length && (asBytes value).length ≤ max &&
    (asBytes value).all fun byte => 0x20 ≤ byte && byte ≤ 0x7e

def putU32 (value : UInt32) : List UInt8 := beBytes 4 value.toNat
def putU64 (value : UInt64) : List UInt8 := beBytes 8 value.toNat
def putU512 (value : U512) : List UInt8 := beBytes 64 value.toNat

/-- The bytes `put_string` appends, or its caller's error. -/
def putString (value : String) (min max : Nat) (error : ValidationError) :
    Except ValidationError (List UInt8) :=
  if validatePrintable value min max then
    .ok (putU32 (UInt32.ofNat (asBytes value).length) ++ asBytes value)
  else .error error

structure CommonHeader where
  schemaVersion : UInt32
  deploymentDomain : Bytes32
  casperChainName : String
  proposalId : String
  proposalNonce : Bytes32
  decisionCode : UInt8
  requestedAllocationBps : UInt32
  approvedAllocationBps : UInt32
  actionKind : UInt8
  actionVersion : UInt32
  actionId : Bytes32
  proposalHash : Bytes32
  policyHash : Bytes32
  planHash : Bytes32
  finalCardHash : Bytes32
  dissentHash : Bytes32
  agentActionHash : Bytes32
  preauthEvidenceRoot : Bytes32
  authorizedMetadataRoot : Bytes32
  deriving DecidableEq

namespace CommonHeader

def validateBasic (h : CommonHeader) : Except ValidationError Unit :=
  if ¬ validProposalId h.proposalId then .error .invalidProposalId
  else if h.schemaVersion ≠ Contract.schemaVersion ∨ h.casperChainName ≠ Contract.casperChainName ∨
      h.decisionCode > 4 ∨ h.requestedAllocationBps > 10000 ∨ h.approvedAllocationBps > 10000 then
    .error .invalidEnvelopeField
  else if ¬ (h.actionKind = nativeTransferKind ∨ h.actionKind = officialX402Kind) ∨
      h.actionVersion ≠ Contract.actionVersion then
    .error .invalidActionField
  else .ok ()

def validateSemantics (h : CommonHeader) : Except ValidationError Unit :=
  if h.actionKind = nativeTransferKind then
    if h.decisionCode = 1 ∧ h.approvedAllocationBps > 0 ∧
        h.approvedAllocationBps = h.requestedAllocationBps then .ok ()
    else if h.decisionCode = 2 ∧ h.approvedAllocationBps > 0 ∧
        h.approvedAllocationBps < h.requestedAllocationBps then .ok ()
    else .error .invalidEnvelopeField
  else if h.actionKind = officialX402Kind then
    if h.decisionCode = 1 ∧ h.requestedAllocationBps = 0 ∧ h.approvedAllocationBps = 0 then .ok ()
    else .error .invalidEnvelopeField
  else .error .invalidActionField

def canonicalBytes (h : CommonHeader) : Except ValidationError (List UInt8) := do
  h.validateBasic
  let chain ← putString h.casperChainName 1 32 .invalidEnvelopeField
  let proposal ← putString h.proposalId 1 64 .invalidProposalId
  return putU32 h.schemaVersion ++ h.deploymentDomain.toList ++ chain ++ proposal ++
    h.proposalNonce.toList ++ [h.decisionCode] ++ putU32 h.requestedAllocationBps ++
    putU32 h.approvedAllocationBps ++ [h.actionKind] ++ putU32 h.actionVersion ++
    h.actionId.toList ++ h.proposalHash.toList ++ h.policyHash.toList ++ h.planHash.toList ++
    h.finalCardHash.toList ++ h.dissentHash.toList ++ h.agentActionHash.toList ++
    h.preauthEvidenceRoot.toList ++ h.authorizedMetadataRoot.toList

end CommonHeader

structure NativeTransferV1 where
  assetKind : UInt8
  sourceAccount : Bytes32
  recipientAccount : Bytes32
  amountMotes : U512
  treasurySnapshotBalanceMotes : U512
  snapshotBlockHash : Bytes32
  snapshotBlockHeight : UInt64
  transferId : UInt64
  actionNonce : Bytes32
  executionTarget : String
  executionVersion : UInt32
  deriving DecidableEq

namespace NativeTransferV1

def validateBasic (b : NativeTransferV1) : Except ValidationError Unit :=
  if isZero32 b.actionNonce then .error .invalidActionField
  else if validatePrintable b.executionTarget 1 64 then .ok ()
  else .error .invalidActionField

def validateSemantics (b : NativeTransferV1) (approvedAllocationBps : UInt32) :
    Except ValidationError Unit :=
  if b.assetKind ≠ 0 ∨ isZero32 b.sourceAccount ∨ isZero32 b.recipientAccount ∨
      b.sourceAccount = b.recipientAccount ∨ b.amountMotes.isZero ∨
      b.treasurySnapshotBalanceMotes.isZero ∨ b.executionTarget ≠ "native-transfer" ∨
      b.executionVersion ≠ 1 then
    .error .invalidActionField
  else
    match b.treasurySnapshotBalanceMotes.checkedMul (U512.fromU32 approvedAllocationBps) with
    | none => .error .invalidActionField
    | some product =>
      if b.amountMotes ≠ product.div (U512.fromU32 10000) then .error .invalidActionField
      else .ok ()

def actionCoreBytes (b : NativeTransferV1) : Except ValidationError (List UInt8) := do
  b.validateBasic
  let target ← putString b.executionTarget 1 64 .invalidActionField
  return [b.assetKind] ++ b.sourceAccount.toList ++ b.recipientAccount.toList ++
    putU512 b.amountMotes ++ putU512 b.treasurySnapshotBalanceMotes ++
    b.snapshotBlockHash.toList ++ putU64 b.snapshotBlockHeight ++ target ++
    putU32 b.executionVersion

def canonicalBytes (b : NativeTransferV1) : Except ValidationError (List UInt8) := do
  b.validateBasic
  let target ← putString b.executionTarget 1 64 .invalidActionField
  return [b.assetKind] ++ b.sourceAccount.toList ++ b.recipientAccount.toList ++
    putU512 b.amountMotes ++ putU512 b.treasurySnapshotBalanceMotes ++
    b.snapshotBlockHash.toList ++ putU64 b.snapshotBlockHeight ++ putU64 b.transferId ++
    b.actionNonce.toList ++ target ++ putU32 b.executionVersion

end NativeTransferV1

structure OfficialX402SettlementV1 where
  x402Version : UInt32
  scheme : String
  caip2Network : String
  wcsprPackage : Bytes32
  wcsprContract : Bytes32
  tokenName : String
  tokenSymbol : String
  eip712DomainVersion : String
  tokenDecimals : UInt8
  payer : Bytes32
  payee : Bytes32
  value : U256
  resourceUrlHash : Bytes32
  reportHash : Bytes32
  paymentRequirementsHash : Bytes32
  signedPaymentPayloadHash : Bytes32
  eip712AuthNonce : Bytes32
  validAfter : UInt64
  validBefore : UInt64
  actionNonce : Bytes32
  settlementTarget : String
  settlementVersion : UInt32
  deriving DecidableEq

namespace OfficialX402SettlementV1

def validateBasic (b : OfficialX402SettlementV1) : Except ValidationError Unit :=
  if [(b.scheme, 16), (b.caip2Network, 32), (b.tokenName, 32), (b.tokenSymbol, 16),
      (b.eip712DomainVersion, 16), (b.settlementTarget, 64)].all
        fun (value, max) => validatePrintable value 1 max then
    if isZero32 b.actionNonce then .error .invalidActionField else .ok ()
  else .error .invalidActionField

def validateSemantics (b : OfficialX402SettlementV1) : Except ValidationError Unit :=
  if b.x402Version ≠ 2 ∨ b.scheme ≠ "exact" ∨ b.caip2Network ≠ "casper:casper-test" ∨
      b.wcsprPackage ≠ Contract.wcsprPackage ∨ b.wcsprContract ≠ Contract.wcsprContract ∨
      b.tokenName ≠ "Wrapped CSPR" ∨ b.tokenSymbol ≠ "WCSPR" ∨ b.eip712DomainVersion ≠ "1" ∨
      b.tokenDecimals ≠ 9 ∨ isZero32 b.payer ∨ isZero32 b.payee ∨ b.payer = b.payee ∨
      b.value.isZero ∨ isZero32 b.resourceUrlHash ∨ isZero32 b.reportHash ∨
      isZero32 b.paymentRequirementsHash ∨ isZero32 b.signedPaymentPayloadHash ∨
      isZero32 b.eip712AuthNonce ∨ b.validBefore ≤ b.validAfter ∨
      b.settlementTarget ≠ "cspr-cloud-facilitator" ∨ b.settlementVersion ≠ 1 then
    .error .invalidActionField
  else .ok ()

def encodeValue (value : U256) : List UInt8 := beBytes 32 value.toNat

def putPrefix (b : OfficialX402SettlementV1) : Except ValidationError (List UInt8) := do
  let scheme ← putString b.scheme 1 16 .invalidActionField
  let network ← putString b.caip2Network 1 32 .invalidActionField
  let name ← putString b.tokenName 1 32 .invalidActionField
  let symbol ← putString b.tokenSymbol 1 16 .invalidActionField
  let version ← putString b.eip712DomainVersion 1 16 .invalidActionField
  return putU32 b.x402Version ++ scheme ++ network ++ b.wcsprPackage.toList ++
    b.wcsprContract.toList ++ name ++ symbol ++ version ++ [b.tokenDecimals] ++
    b.payer.toList ++ b.payee.toList ++ encodeValue b.value ++ b.resourceUrlHash.toList ++
    b.reportHash.toList ++ b.paymentRequirementsHash.toList ++
    b.signedPaymentPayloadHash.toList ++ b.eip712AuthNonce.toList ++ putU64 b.validAfter ++
    putU64 b.validBefore

def putCore (b : OfficialX402SettlementV1) : Except ValidationError (List UInt8) := do
  let front ← b.putPrefix
  let target ← putString b.settlementTarget 1 64 .invalidActionField
  return front ++ target ++ putU32 b.settlementVersion

def actionCoreBytes (b : OfficialX402SettlementV1) : Except ValidationError (List UInt8) := do
  b.validateBasic
  b.putCore

def canonicalBytes (b : OfficialX402SettlementV1) : Except ValidationError (List UInt8) := do
  b.validateBasic
  let front ← b.putPrefix
  let target ← putString b.settlementTarget 1 64 .invalidActionField
  return front ++ b.actionNonce.toList ++ target ++ putU32 b.settlementVersion

end OfficialX402SettlementV1

section Derivations
variable (blake2b256 : List UInt8 → Bytes32)

def deriveDeploymentDomain (chainName : String) (installationNonce : Bytes32) :
    Except ValidationError Bytes32 := do
  if chainName ≠ casperChainName ∨ isZero32 installationNonce then
    throw .invalidEnvelopeField
  let chain ← putString chainName 1 32 .invalidEnvelopeField
  let package ← putString packageKeyName 1 64 .invalidEnvelopeField
  return blake2b256 (domainSeparator ++ chain ++ package ++ installationNonce.toList)

def deriveActionId (actionKind : UInt8) (actionNonce : Bytes32) (actionCoreBytes : List UInt8) :
    Bytes32 :=
  blake2b256 (actionIdSeparator ++ [actionKind] ++ actionNonce.toList ++ actionCoreBytes)

def deriveTransferId (proposalId : String) (proposalNonce actionId : Bytes32) :
    Except ValidationError UInt64 := do
  if ¬ validProposalId proposalId then
    throw .invalidProposalId
  let proposal ← putString proposalId 1 64 .invalidProposalId
  let digest := blake2b256 (transferIdSeparator ++ proposal ++ proposalNonce.toList ++
    actionId.toList)
  return UInt64.ofNat (beValue (digest.toList.take 8))

def deriveEnvelopeHash (header : CommonHeader) (actionBodyBytes : List UInt8) :
    Except ValidationError Bytes32 := do
  let headerBytes ← header.canonicalBytes
  return blake2b256 (envelopeSeparator ++ headerBytes ++ actionBodyBytes)

end Derivations
end Concordia.Contract
