import Concordia.Contract.Encoding
import Concordia.Js.Value

/-! The offline verifier's envelope encoders, over untyped field values: header and body
validation, identifier derivation and canonical bytes. -/
namespace Concordia.Verify
open Concordia.Js Concordia.Contract Concordia.Lib.Encoding

structure EncodingError where
  name : String
  message : String
  code : Option Nat := none
  deriving DecidableEq, Repr

abbrev Encoded := Except EncodingError

/-- The field types the two envelope schemas use. -/
inductive FieldType where
  | u8 | u32 | u64 | u256 | u512 | bytes32 | accountHash | string
  deriving DecidableEq, Repr

def parseUnsigned (value : Value) (bits : Nat) : Encoded Nat := do
  let outside : EncodingError := ⟨"InvalidInteger", s!"integer outside u{bits} range", none⟩
  let parsed ← match value with
    | .bigint n => .ok n
    | .number x => match safeInteger x with
      | some n => .ok n
      | none => .error outside
    | .string s => if isCanonicalDecimal s then .ok (Int.ofNat (digitsValue s)) else .error outside
    | _ => .error outside
  if parsed < 0 ∨ parsed ≥ 2 ^ bits then .error outside else .ok parsed.toNat

def fixedUnsigned (value : Value) (bits : Nat) : Encoded (List UInt8) :=
  beBytes (bits / 8) <$> parseUnsigned value bits

def hexBytes (value : Value) (expectedBytes : Nat) : Encoded (List UInt8) :=
  match value with
  | .string s => match fromHex s with
    | some output =>
      if output.length ≠ expectedBytes then
        .error ⟨"InvalidHex", s!"expected exactly {expectedBytes} bytes", none⟩
      else .ok output
    | none => .error ⟨"InvalidHex", "hex value must be canonical lowercase hexadecimal", none⟩
  | _ => .error ⟨"InvalidHex", "hex value must be canonical lowercase hexadecimal", none⟩

def asString (value : Value) : Encoded JsString :=
  match value with
  | .string s => .ok s
  | _ => .error ⟨"InvalidString", "expected string", none⟩

/-- `asciiBytes` of a string. -/
def asciiBytes (s : JsString) : Encoded (List UInt8) :=
  if s.any fun code => code < 0x20 || code > 0x7e then
    .error ⟨"InvalidString", "value must contain only printable ASCII bytes", none⟩
  else .ok (s.map fun code => code.toNat.toUInt8)

/-- `lengthPrefixed` of a string. -/
def lengthPrefixedString (s : JsString) : Encoded (List UInt8) := do
  let bytes ← asciiBytes s
  let length ← fixedUnsigned (.number bytes.length) 32
  return length ++ bytes

def encodeCanonicalValue (type : FieldType) (value : Value) : Encoded (List UInt8) :=
  match type with
  | .u8 => fixedUnsigned value 8
  | .u32 => fixedUnsigned value 32
  | .u64 => fixedUnsigned value 64
  | .u256 => fixedUnsigned value 256
  | .u512 => fixedUnsigned value 512
  | .bytes32 => hexBytes value 32
  | .accountHash => hexBytes value 32
  | .string => asString value >>= lengthPrefixedString

/-- The fields of a record in the order of its schema. -/
abbrev TypedFields := List (String × FieldType × Value)

def encodeRecord : TypedFields → Encoded (List UInt8)
  | [] => .ok []
  | (_, type, value) :: fields => do
    let bytes ← encodeCanonicalValue type value
    let rest ← encodeRecord fields
    return bytes ++ rest

/-- The record read from a header: exactly the fields of `HEADER_SCHEMA`, their values unchecked. -/
structure HeaderRecord where
  schemaVersion : Value
  deploymentDomain : Value
  casperChainName : Value
  proposalId : Value
  proposalNonce : Value
  decisionCode : Value
  requestedAllocationBps : Value
  approvedAllocationBps : Value
  actionKind : Value
  actionVersion : Value
  actionId : Value
  proposalHash : Value
  policyHash : Value
  planHash : Value
  finalCardHash : Value
  dissentHash : Value
  agentActionHash : Value
  preauthEvidenceRoot : Value
  authorizedMetadataRoot : Value

/-- `HEADER_SCHEMA`. -/
def HeaderRecord.fields (values : HeaderRecord) : TypedFields :=
  [("schema_version", .u32, values.schemaVersion),
    ("deployment_domain", .bytes32, values.deploymentDomain),
    ("casper_chain_name", .string, values.casperChainName),
    ("proposal_id", .string, values.proposalId),
    ("proposal_nonce", .bytes32, values.proposalNonce),
    ("decision_code", .u8, values.decisionCode),
    ("requested_allocation_bps", .u32, values.requestedAllocationBps),
    ("approved_allocation_bps", .u32, values.approvedAllocationBps),
    ("action_kind", .u8, values.actionKind),
    ("action_version", .u32, values.actionVersion),
    ("action_id", .bytes32, values.actionId),
    ("proposal_hash", .bytes32, values.proposalHash),
    ("policy_hash", .bytes32, values.policyHash),
    ("plan_hash", .bytes32, values.planHash),
    ("final_card_hash", .bytes32, values.finalCardHash),
    ("dissent_hash", .bytes32, values.dissentHash),
    ("agent_action_hash", .bytes32, values.agentActionHash),
    ("preauth_evidence_root", .bytes32, values.preauthEvidenceRoot),
    ("authorized_metadata_root", .bytes32, values.authorizedMetadataRoot)]

structure NativeRecord where
  assetKind : Value
  sourceAccount : Value
  recipientAccount : Value
  amountMotes : Value
  treasurySnapshotBalanceMotes : Value
  snapshotBlockHash : Value
  snapshotBlockHeight : Value
  transferId : Value
  actionNonce : Value
  executionTarget : Value
  executionVersion : Value

/-- `NATIVE_SCHEMA`. -/
def NativeRecord.fields (values : NativeRecord) : TypedFields :=
  [("asset_kind", .u8, values.assetKind),
    ("source_account", .accountHash, values.sourceAccount),
    ("recipient_account", .accountHash, values.recipientAccount),
    ("amount_motes", .u512, values.amountMotes),
    ("treasury_snapshot_balance_motes", .u512, values.treasurySnapshotBalanceMotes),
    ("snapshot_block_hash", .bytes32, values.snapshotBlockHash),
    ("snapshot_block_height", .u64, values.snapshotBlockHeight),
    ("transfer_id", .u64, values.transferId),
    ("action_nonce", .bytes32, values.actionNonce),
    ("execution_target", .string, values.executionTarget),
    ("execution_version", .u32, values.executionVersion)]

/-- `NATIVE_CORE_NAMES`. -/
def nativeCoreNames : List String :=
  ["asset_kind", "source_account", "recipient_account", "amount_motes",
    "treasury_snapshot_balance_motes", "snapshot_block_hash", "snapshot_block_height",
    "execution_target", "execution_version"]

/-- The record under `NATIVE_CORE_SCHEMA`. -/
def NativeRecord.core (values : NativeRecord) : TypedFields :=
  values.fields.filter fun field => nativeCoreNames.contains field.1

structure X402Record where
  x402Version : Value
  scheme : Value
  caip2Network : Value
  wcsprPackage : Value
  wcsprContract : Value
  tokenName : Value
  tokenSymbol : Value
  eip712DomainVersion : Value
  tokenDecimals : Value
  payer : Value
  payee : Value
  value : Value
  resourceUrlHash : Value
  reportHash : Value
  paymentRequirementsHash : Value
  signedPaymentPayloadHash : Value
  eip712AuthNonce : Value
  validAfter : Value
  validBefore : Value
  actionNonce : Value
  settlementTarget : Value
  settlementVersion : Value

/-- `X402_SCHEMA`. -/
def X402Record.fields (values : X402Record) : TypedFields :=
  [("x402_version", .u32, values.x402Version),
    ("scheme", .string, values.scheme),
    ("caip2_network", .string, values.caip2Network),
    ("wcspr_package", .bytes32, values.wcsprPackage),
    ("wcspr_contract", .bytes32, values.wcsprContract),
    ("token_name", .string, values.tokenName),
    ("token_symbol", .string, values.tokenSymbol),
    ("eip712_domain_version", .string, values.eip712DomainVersion),
    ("token_decimals", .u8, values.tokenDecimals),
    ("payer", .accountHash, values.payer),
    ("payee", .accountHash, values.payee),
    ("value", .u256, values.value),
    ("resource_url_hash", .bytes32, values.resourceUrlHash),
    ("report_hash", .bytes32, values.reportHash),
    ("payment_requirements_hash", .bytes32, values.paymentRequirementsHash),
    ("signed_payment_payload_hash", .bytes32, values.signedPaymentPayloadHash),
    ("eip712_auth_nonce", .bytes32, values.eip712AuthNonce),
    ("valid_after", .u64, values.validAfter),
    ("valid_before", .u64, values.validBefore),
    ("action_nonce", .bytes32, values.actionNonce),
    ("settlement_target", .string, values.settlementTarget),
    ("settlement_version", .u32, values.settlementVersion)]

/-- The record under the schema of `X402_CORE_NAMES`. -/
def X402Record.core (values : X402Record) : TypedFields :=
  values.fields.filter fun field => field.1 != "action_nonce"

/-- `asciiLiteral`. -/
def asciiLiteral (value : String) : List UInt8 := (js value).map fun code => code.toNat.toUInt8

/-- The entries of `DOMAINS` an envelope needs. -/
def domainActionId : List UInt8 := asciiLiteral "CONCORDIA_ACTION_ID_V3\x00"
def domainTransferId : List UInt8 := asciiLiteral "CONCORDIA_TRANSFER_ID_V3\x00"
def domainEnvelope : List UInt8 := asciiLiteral "CONCORDIA_GOVERNANCE_ENVELOPE_V3\x00"

/-- Throw `error` when `c` holds. -/
def throwIf (c : Prop) [Decidable c] (error : EncodingError) : Encoded Unit :=
  if c then .error error else .ok ()

def isZeroBytes32 (value : Value) : Encoded Bool := do
  let bytes ← hexBytes value 32
  return toHex bytes == toHex (List.replicate 32 0)

/-- `PROPOSAL_ID_RE`. -/
def isProposalId (s : JsString) : Bool :=
  1 ≤ s.length && s.length ≤ 64 &&
    s.all fun u => (65 ≤ u && u ≤ 90) || (48 ≤ u && u ≤ 57) || u == 45

def validateHeader (values : HeaderRecord) : Encoded Unit := do
  let schema ← parseUnsigned values.schemaVersion 32
  throwIf (schema ≠ 3) ⟨"InvalidEnvelopeField", "schema_version must equal 3", some 15⟩
  let proposalId ← asString values.proposalId
  throwIf (¬ isProposalId proposalId) ⟨"InvalidProposalId", "proposal_id is not canonical", some 14⟩
  throwIf (¬ isLiteral values.casperChainName "casper-test")
    ⟨"InvalidEnvelopeField", "casper_chain_name must equal casper-test", some 15⟩
  let requested ← parseUnsigned values.requestedAllocationBps 32
  let approved ← parseUnsigned values.approvedAllocationBps 32
  throwIf (requested > 10000 ∨ approved > 10000)
    ⟨"InvalidEnvelopeField", "basis points exceed 10000", some 15⟩
  let actionKind ← parseUnsigned values.actionKind 8
  let decision ← parseUnsigned values.decisionCode 8
  throwIf (decision > 4) ⟨"InvalidEnvelopeField", "unsupported decision code", some 15⟩
  throwIf (actionKind ≠ 1 ∧ actionKind ≠ 2) ⟨"InvalidActionField", "unsupported action kind", some 16⟩
  let version ← parseUnsigned values.actionVersion 32
  throwIf (version ≠ 1) ⟨"InvalidActionField", "action_version must equal 1", some 16⟩
  if actionKind = 1 then
    throwIf (decision ≠ 1 ∧ decision ≠ 2)
      ⟨"InvalidEnvelopeField", "native action requires an executable decision", some 15⟩
    throwIf (requested = 0 ∨ approved = 0 ∨ approved > requested)
      ⟨"InvalidEnvelopeField", "invalid native allocation", some 15⟩
    throwIf (decision = 1 ∧ approved ≠ requested)
      ⟨"InvalidEnvelopeField", "approved decision must authorize full request", some 15⟩
    throwIf (decision = 2 ∧ approved ≥ requested)
      ⟨"InvalidEnvelopeField", "limited decision must reduce the request", some 15⟩
  else
    throwIf (actionKind = 2 ∧ (decision ≠ 1 ∨ requested ≠ 0 ∨ approved ≠ 0))
      ⟨"InvalidEnvelopeField", "official x402 header must use zero allocations", some 15⟩

/-- The disjuncts of one `||` condition, evaluated up to the first true one. -/
def anyOf : List (Encoded Bool) → Encoded Bool
  | [] => .ok false
  | c :: rest => do
    if ← c then return true
    anyOf rest

def differs (value : Value) (bits expected : Nat) : Encoded Bool := do
  let n ← parseUnsigned value bits
  return n != expected

def differsLiteral (value : Value) (literal : String) : Encoded Bool :=
  return !isLiteral value literal

def maxU512 : Nat := 2 ^ 512 - 1

def validateNativeBody (header : HeaderRecord) (body : NativeRecord) : Encoded Unit := do
  let actionKind ← parseUnsigned header.actionKind 8
  throwIf (actionKind ≠ 1) ⟨"InvalidActionField", "native body requires action_kind 1", some 16⟩
  let assetKind ← parseUnsigned body.assetKind 8
  throwIf (assetKind ≠ 0) ⟨"InvalidActionField", "asset_kind must identify native CSPR", some 16⟩
  throwIf (strictEq body.sourceAccount body.recipientAccount)
    ⟨"InvalidActionField", "native source and recipient must differ", some 16⟩
  let amount ← parseUnsigned body.amountMotes 512
  let balance ← parseUnsigned body.treasurySnapshotBalanceMotes 512
  let approved ← parseUnsigned header.approvedAllocationBps 32
  let zeroNonce ← isZeroBytes32 body.actionNonce
  throwIf zeroNonce ⟨"InvalidActionField", "action_nonce must be non-zero", some 16⟩
  let product := balance * approved
  throwIf (balance = 0 ∨ product > maxU512)
    ⟨"InvalidActionField", "native allocation multiplication overflows U512", some 16⟩
  throwIf (amount = 0 ∨ amount ≠ product / 10000)
    ⟨"InvalidActionField", "amount does not equal the exact policy cap", some 16⟩
  let unsupported ← anyOf [
    differsLiteral body.executionTarget "native-transfer",
    differs body.executionVersion 32 1]
  throwIf unsupported
    ⟨"InvalidActionField", "unsupported native execution target", some 16⟩

/-- `validateX402Body` with the header its callers pass. -/
def validateX402Body (body : X402Record) (header : HeaderRecord) : Encoded Unit := do
  let actionKind ← parseUnsigned header.actionKind 8
  throwIf (actionKind ≠ 2)
    ⟨"InvalidActionField", "official x402 body requires action_kind 2", some 16⟩
  let validAfter ← parseUnsigned body.validAfter 64
  let validBefore ← parseUnsigned body.validBefore 64
  throwIf (validBefore ≤ validAfter)
    ⟨"InvalidActionField", "valid_before must be greater than valid_after", some 16⟩
  let unsupported ← anyOf [
    differs body.x402Version 32 2,
    differsLiteral body.scheme "exact",
    differsLiteral body.caip2Network "casper:casper-test",
    differsLiteral body.wcsprPackage
      "3d80df21ba4ee4d66a2a1f60c32570dd5685e4b279f6538162a5fd1314847c1e",
    differsLiteral body.wcsprContract
      "032706aeae170fafb6403ce3bec58062f1c4288710838fe1df98ce4ff6c35f4a",
    differsLiteral body.tokenName "Wrapped CSPR",
    differsLiteral body.tokenSymbol "WCSPR",
    differsLiteral body.eip712DomainVersion "1",
    differs body.tokenDecimals 8 9,
    differsLiteral body.settlementTarget "cspr-cloud-facilitator",
    differs body.settlementVersion 32 1,
    (return (← parseUnsigned body.value 256) == 0),
    isZeroBytes32 body.resourceUrlHash,
    isZeroBytes32 body.reportHash,
    isZeroBytes32 body.paymentRequirementsHash,
    isZeroBytes32 body.signedPaymentPayloadHash,
    isZeroBytes32 body.eip712AuthNonce,
    isZeroBytes32 body.actionNonce]
  throwIf unsupported ⟨"InvalidActionField", "unsupported official x402 action", some 16⟩
  throwIf (strictEq body.payer body.payee)
    ⟨"InvalidActionField", "x402 payer and payee must differ", some 16⟩

section Digests
variable (blake2b256 : List UInt8 → Bytes32)

def actionId (actionKind : Nat) (actionNonce : Value) (actionCore : List UInt8) :
    Encoded JsString := do
  let zeroNonce ← isZeroBytes32 actionNonce
  throwIf zeroNonce ⟨"InvalidActionField", "action_nonce must be non-zero", some 16⟩
  let kind ← fixedUnsigned (.number actionKind) 8
  let nonce ← hexBytes actionNonce 32
  return toHex (blake2b256 (domainActionId ++ kind ++ nonce ++ actionCore)).toList

/-- `transferId`'s decimal. -/
def transferId (proposalId : JsString) (proposalNonce computedActionId : Value) :
    Encoded JsString := do
  let proposal ← lengthPrefixedString proposalId
  let nonce ← hexBytes proposalNonce 32
  let action ← hexBytes computedActionId 32
  let digest := blake2b256 (domainTransferId ++ proposal ++ nonce ++ action)
  return decimal (beValue (digest.toList.take 8))

structure NativeEnvelopeMaterialV3 where
  actionId : JsString
  transferId : JsString
  envelopeHash : JsString
  headerHex : JsString
  bodyHex : JsString
  actionCoreHex : JsString
  deriving DecidableEq

/-- `verifyNativeEnvelopeMaterialV3`, once `typedRecord` has read both records. -/
def verifyNativeEnvelopeMaterialV3 (header : HeaderRecord) (body : NativeRecord) :
    Encoded NativeEnvelopeMaterialV3 := do
  validateHeader header
  validateNativeBody header body
  let actionKind ← parseUnsigned header.actionKind 8
  let actionCore ← encodeRecord body.core
  let computedActionId ← actionId blake2b256 actionKind body.actionNonce actionCore
  let suppliedActionId := toHex (← hexBytes header.actionId 32)
  throwIf (computedActionId ≠ suppliedActionId)
    ⟨"Error", "action_id does not match the recomputed NativeTransferV1 action", none⟩
  let proposalId ← asString header.proposalId
  let derivedTransfer ← transferId blake2b256 proposalId header.proposalNonce
    (.string computedActionId)
  let supplied ← parseUnsigned body.transferId 64
  throwIf (supplied ≠ digitsValue derivedTransfer)
    ⟨"Error", "transfer_id does not match the recomputed proposal/action binding", none⟩
  let headerBytes ← encodeRecord header.fields
  let bodyBytes ← encodeRecord body.fields
  let envelopeHash := blake2b256 (domainEnvelope ++ headerBytes ++ bodyBytes)
  return {
    actionId := computedActionId
    transferId := derivedTransfer
    envelopeHash := toHex envelopeHash.toList
    headerHex := toHex headerBytes
    bodyHex := toHex bodyBytes
    actionCoreHex := toHex actionCore }

/-- The `Material` of the official x402 action. -/
structure X402Material where
  canonical : List UInt8
  header : List UInt8
  core : List UInt8
  actionId : JsString
  envelopeHash : JsString
  envelopePreimage : List UInt8
  deriving DecidableEq

/-- `x402MaterialFromInput`, once `fieldsToRecord` has read both records. -/
def x402MaterialFromInput (header : HeaderRecord) (body : X402Record) :
    Encoded X402Material := do
  validateHeader header
  validateX402Body body header
  let core ← encodeRecord body.core
  let computedActionId ← actionId blake2b256 2 body.actionNonce core
  throwIf (¬ strictEq header.actionId (.string computedActionId))
    ⟨"InvalidActionField", "header action_id does not match x402 action core", some 16⟩
  let headerBytes ← encodeRecord header.fields
  let bodyBytes ← encodeRecord body.fields
  let envelopePreimage := domainEnvelope ++ headerBytes ++ bodyBytes
  return {
    canonical := bodyBytes
    header := headerBytes
    core := core
    actionId := computedActionId
    envelopeHash := toHex (blake2b256 envelopePreimage).toList
    envelopePreimage := envelopePreimage }

end Digests
end Concordia.Verify
