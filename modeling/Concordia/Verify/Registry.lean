import Concordia.Js.Json

/-! The proof-registry verifier. A JavaScript exception is a `JsThrow`; the proof adapters, the
URL parser, the clock and the digest are parameters. -/
namespace Concordia.Verify
open Concordia.Js

/-- The exceptions of the language itself. -/
inductive JsThrow where
  | typeError (message : String)
  deriving DecidableEq, Repr

abbrev Fields := List (JsString × Value)

/-- `record[field]`, on the records the strict parser makes: they have no prototype. -/
def prop (record : Fields) (field : String) : Value :=
  (record.lookup (js field)).getD .undefined

/-- `Object.hasOwn(record, field)`. -/
def hasOwn (record : Fields) (field : String) : Bool := (record.lookup (js field)).isSome

def keys (record : Fields) : List JsString := record.map Prod.fst

/-- `[..].includes(value)` and `new Set([..]).has(value)` over literals. -/
def includes (literals : List String) (value : JsString) : Bool :=
  literals.any fun literal => js literal == value

/-- What every object literal inherits. -/
def objectPrototype : List String :=
  ["constructor", "__defineGetter__", "__defineSetter__", "hasOwnProperty", "__lookupGetter__",
    "__lookupSetter__", "isPrototypeOf", "propertyIsEnumerable", "toString", "valueOf",
    "__proto__", "toLocaleString"]

/-- The outcome of `table[key]` on an object literal. -/
inductive Lookup (α : Type) where
  | own (value : α)
  | inherited
  | missing
  deriving DecidableEq

def lookupLiteral {α : Type} (table : List (String × α)) (key : JsString) : Lookup α :=
  match table.find? fun entry => js entry.1 == key with
  | some entry => .own entry.2
  | none => if includes objectPrototype key then .inherited else .missing

/-- Default `sort()`: by code units. -/
def sorted (names : List JsString) : List JsString :=
  names.mergeSort fun a b => decide (a ≤ b)

/-- `join(",")`. -/
def joined (names : List JsString) (separator : String) : JsString :=
  (js separator).intercalate names

inductive ResultStatus where
  | verified | invalid | unavailable | unknown
  deriving DecidableEq, Repr

/-- In the alphabetical order of their names. -/
inductive VerifiedAspect where
  | artifactIdentityEnvelope | artifactSha256 | proofSemantics | proposalBinding
  deriving DecidableEq, Repr

inductive UnsupportedCapability where
  | officialX402SettlementV1Semantics | safepayV2Semantics
  deriving DecidableEq, Repr

/-- The facts an adapter returns, as far as the registry reads them. -/
structure ExactEnvelopeV3Facts where
  schemaId : JsString
  network : JsString
  packageHash : JsString
  contractHash : JsString
  deploymentDomain : JsString
  proposalId : JsString
  actionId : JsString
  envelopeHash : JsString
  finalizationBlockHash : JsString
  finalizationBlockHeight : ℚ
  sourceCommit : JsString
  deploymentCommit : JsString

structure HistoricalOdraReceiptFacts where
  schemaVersion : JsString
  proposalId : JsString
  generation : JsString
  packageHash : JsString
  contractHash : JsString
  sourceCommit : JsString
  deploymentCommit : JsString
  capturedAt : JsString

structure NativeTreasuryExecutionFacts where
  schemaVersion : JsString
  capturedAt : JsString
  sourceCommit : JsString
  deploymentCommit : JsString
  network : JsString
  packageHash : JsString
  contractHash : JsString
  deploymentDomain : JsString
  proposalId : JsString
  actionId : JsString
  envelopeHash : JsString
  snapshotBlockHeight : ℚ
  nativeBlockHeight : ℚ
  authorizationBlockHeight : ℚ
  authorizationBlockHash : JsString

structure SafePayV2ArtifactEnvelopeFacts where
  proposalId : JsString
  network : JsString
  reportHash : JsString
  settlementTransaction : JsString
  sourceCommit : JsString
  deploymentCommit : JsString
  schemaVersion : JsString
  capturedAt : JsString

structure OfficialX402ArtifactEnvelopeFacts where
  proposalId : JsString
  actionId : JsString
  envelopeHash : JsString
  network : JsString
  packageHash : JsString
  contractHash : JsString
  deploymentDomain : JsString
  paymentRequirementsHash : JsString
  signedPaymentPayloadHash : JsString
  reportHash : JsString
  settlementTransaction : JsString
  sourceCommit : JsString
  deploymentCommit : JsString
  schemaVersion : JsString
  capturedAt : JsString

inductive AdapterFacts where
  | exactEnvelope (facts : ExactEnvelopeV3Facts)
  | historicalOdra (facts : HistoricalOdraReceiptFacts)
  | nativeTreasury (facts : NativeTreasuryExecutionFacts)

/-- What an adapter may throw, as the registry tells it apart. -/
inductive AdapterError where
  | historicalUnavailable (message : JsString)
  | strictJson (message : JsString)
  | error (message : JsString)
  | notAnError

structure Url where
  protocol : JsString
  username : JsString
  password : JsString

inductive Artifact where
  | text (content : JsString)
  | bytes (content : List UInt8)

/-- The world around the registry verifier. Dates are milliseconds, `none` is NaN. -/
structure Runtime where
  utf8Encode : JsString → List UInt8
  utf8Decode : List UInt8 → JsString
  sha256Hex : List UInt8 → JsString
  dateParse : JsString → Option Int
  parseUrl : JsString → Option Url
  /-- `new Date().toISOString()`. -/
  clock : JsString
  verifyExactEnvelopeV3Artifact : Value → Except AdapterError ExactEnvelopeV3Facts
  verifyHistoricalOdraReceiptArtifact : Value → Except AdapterError HistoricalOdraReceiptFacts
  verifyNativeTreasuryExecutionArtifact : Value → Except AdapterError NativeTreasuryExecutionFacts
  verifySafePayV2ArtifactEnvelope : Value → Except AdapterError SafePayV2ArtifactEnvelopeFacts
  verifyOfficialX402ArtifactEnvelope : Value → Except AdapterError OfficialX402ArtifactEnvelopeFacts

structure ItemVerificationResult where
  proofId : Option JsString
  proofType : Option JsString
  status : ResultStatus
  green : Bool
  reasons : List JsString
  ignoredAssertions : List JsString
  verifiedAspects : List VerifiedAspect
  unsupportedCapabilities : List UnsupportedCapability

structure InternalItemVerificationResult extends ItemVerificationResult where
  adapterFacts : Option AdapterFacts

structure Summary where
  total : Nat
  verified : Nat
  invalid : Nat
  unavailable : Nat
  unknown : Nat
  deriving DecidableEq

inductive VerificationScope where
  | none | artifactTranscriptConsistency
  deriving DecidableEq, Repr

structure RegistryVerificationResult where
  status : ResultStatus
  valid : Bool
  exitCode : Nat
  proposalId : Option JsString
  verificationScope : VerificationScope
  summary : Summary
  items : List ItemVerificationResult
  error : Option (String × JsString)

def proofTypes : List String :=
  ["historical_odra_receipt_v2", "exact_envelope_v3", "native_treasury_execution_v1",
    "safepay_v2", "official_x402_settlement_v1", "approval_boundary_v1", "demo_capability_v1",
    "room_identity_v1", "snapshot"]

def requiredChecks : List (String × List String) := [
  ("historical_odra_receipt_v2", [
    "artifact_hash_recomputed",
    "historical_card_chain_recomputed",
    "deploy_processed_without_execution_error",
    "receipt_arguments_match_historical_artifact",
    "package_and_contract_match_historical_manifest",
    "historical_lineage_matches_frozen_inventory"]),
  ("exact_envelope_v3", [
    "source_tree_sha256_matches_release_manifest",
    "wasm_sha256_matches_release_manifest",
    "generated_schema_sha256_matches_release_manifest",
    "envelope_hash_recomputed_from_typed_fields",
    "proposal_commitment_matches_envelope_hash",
    "signer_set_and_threshold_match_deployment",
    "pre_quorum_finalize_reverted_with_code_8",
    "post_quorum_mutated_envelope_reverted_with_code_10",
    "exact_envelope_finalization_accepted",
    "repeat_finalization_reverted_with_code_12",
    "finalization_deploy_processed_without_execution_error",
    "contract_readback_marks_proposal_finalized",
    "contract_readback_marks_action_authorized",
    "package_contract_and_deployment_domain_match_manifest"]),
  ("native_treasury_execution_v1", [
    "exact_envelope_v3_verified",
    "executor_journal_signed_bytes_hash_matches",
    "single_broadcast_or_reconciled_by_deploy_hash",
    "snapshot_block_hash_height_and_state_root_observed_from_casper_rpc",
    "source_balance_observed_at_snapshot_root_equals_treasury_snapshot_balance_motes",
    "snapshot_precedes_v3_finalization_and_native_execution",
    "transfer_source_exact",
    "transfer_recipient_exact",
    "transfer_amount_exact",
    "transfer_id_exact",
    "successful_inclusion_observed_by_two_named_casper_rpc_nodes",
    "post_execution_source_and_recipient_balances_observed",
    "no_second_native_transaction_observed_through_block"]),
  ("safepay_v2", [
    "quote_hash_recomputed",
    "issued_quote_row_matches_and_survives_restart",
    "per_quote_correlation_id_recomputed_and_equals_native_transfer_id",
    "payment_deploy_finalized_without_execution_error",
    "single_native_transfer_exact",
    "payee_amount_and_transfer_id_exact",
    "proposal_resource_and_correlation_exact",
    "report_hash_recomputed_and_matches_quote",
    "provider_consumption_row_matches_payment_and_binding",
    "exact_retry_returned_same_fulfillment_hash_without_second_consumption",
    "cross_binding_reuse_returned_terminal_409"]),
  ("official_x402_settlement_v1", [
    "exact_envelope_v3_verified_for_registry_record_returned_by_signed_payload_hash",
    "resource_object_equals_configured_resource",
    "accepted_equals_current_payment_requirements",
    "payment_requirements_argument_equals_accepted",
    "eip712_signature_verified",
    "public_key_account_hash_equals_payer",
    "authorization_equals_envelope_payer_payee_value_nonce_and_window",
    "resource_url_hash_matches_envelope",
    "report_hash_matches_envelope",
    "payment_requirements_hash_matches_envelope",
    "signed_payment_payload_hash_matches_envelope",
    "active_wcspr_v8_pre_verify_drift_guard_passed",
    "facilitator_verify_returned_is_valid_true",
    "active_wcspr_v8_pre_settle_drift_guard_passed",
    "facilitator_settlement_response_success_true",
    "settlement_transaction_finalized_without_execution_error",
    "active_wcspr_v8_post_settle_target_and_args_readback_passed",
    "fulfillment_authorization_nonce_unique_binding_matches",
    "fulfillment_restart_reconciliation_passed",
    "exact_retry_returned_stored_fulfillment_without_second_settlement",
    "cross_binding_or_authorization_reuse_returned_terminal_409_before_submission",
    "protected_report_released_only_after_finalized_state"]),
  ("approval_boundary_v1", [
    "caddy_basic_auth_observed",
    "proxy_secret_header_overwritten_by_caddy",
    "gateway_bcrypt_check_passed",
    "approver_allowlist_check_passed",
    "csrf_check_passed",
    "nonce_consumed_exactly_once",
    "trusted_human_message_origin_matches_approval_boundary"]),
  ("demo_capability_v1", [
    "capability_signature_valid",
    "scenario_and_client_binding_exact",
    "capability_unexpired_at_first_consumption",
    "capability_consumed_atomically",
    "demo_run_provenance_present_on_all_created_records",
    "cleanup_scope_exact_demo_run_id",
    "canonical_ids_excluded_from_cleanup"]),
  ("room_identity_v1", [
    "sender_identity_derived_from_authenticated_key",
    "sender_role_derived_from_authenticated_key",
    "agent_sender_type_is_agent",
    "room_membership_enforced",
    "role_operation_matrix_enforced",
    "gateway_secret_fallback_not_used"]),
  ("snapshot", [
    "artifact_sha256_recomputed",
    "capture_time_present",
    "source_https_url_present",
    "staleness_check_passed"])]

def itemRequiredFields : List String :=
  ["proof_id", "proof_type", "generation", "lineage", "observation_mode", "temporal_scope",
    "verification_status", "execution_outcome", "claim_scope", "enforcement_scope",
    "proposal_id", "action_id", "envelope_hash", "artifact_path", "artifact_sha256",
    "source_commit", "deployment_commit", "network", "package_hash", "contract_hash",
    "deployment_domain", "schema_version", "captured_at", "payment_requirements_hash",
    "signed_payment_payload_hash", "report_hash", "settlement_transaction", "checks", "links"]

def forgedBooleanFields : List String :=
  ["chain_valid", "duplicate_proof_rejected", "passed", "verified"]

def allowedItemFields : List String := itemRequiredFields ++ forgedBooleanFields

def allowedCheckFields : List String :=
  ["name", "required", "passed", "source", "observed_at", "detail_code"]

def requiredLinkFields : List String := ["rel", "label", "href", "kind"]

def allowedOutcomes : List String := ["accepted", "expected_rejection", "not_applicable"]

structure VerifiedProofSemantics where
  generation : List String
  lineage : List String
  observationMode : List String
  temporalScope : Option (List String)
  executionOutcome : List String

private def currentProof (generation : List String) : VerifiedProofSemantics where
  generation := generation
  lineage := ["supplemental"]
  observationMode := ["live", "snapshot"]
  temporalScope := some ["current"]
  executionOutcome := ["accepted"]

def verifiedProofSemantics : List (String × VerifiedProofSemantics) := [
  ("exact_envelope_v3", currentProof ["v3"]),
  ("native_treasury_execution_v1", currentProof ["v3"]),
  ("safepay_v2", currentProof ["v2"]),
  ("official_x402_settlement_v1", currentProof ["v3"]),
  ("historical_odra_receipt_v2", {
    generation := ["v1", "v2"]
    lineage := ["canonical", "supplemental"]
    observationMode := ["live", "snapshot"]
    temporalScope := some ["historical"]
    executionOutcome := ["accepted", "expected_rejection"] }),
  ("snapshot", {
    generation := ["none"]
    lineage := ["supplemental"]
    observationMode := ["snapshot"]
    temporalScope := none
    executionOutcome := ["not_applicable"] })]

section Patterns

def isLower (u : UInt16) : Bool := 97 ≤ u && u ≤ 122
def isHexDigit (u : UInt16) : Bool := isDigit u || (97 ≤ u && u ≤ 102)

/-- `/^[0-9a-f]{n}$/`: `HEX64` and `GIT40`. -/
def isHexOf (n : Nat) (s : JsString) : Bool := s.length == n && s.all isHexDigit

/-- `/^[a-z][a-z0-9_]{0,n}$/`: `MACHINE_ID` and `CHECK_NAME`. -/
def isIdentifier (n : Nat) (s : JsString) : Bool :=
  match s with
  | [] => false
  | u :: rest => isLower u && rest.length ≤ n &&
    rest.all fun v => isLower v || isDigit v || v == 95

def isMachineId : JsString → Bool := isIdentifier 63
def isCheckName : JsString → Bool := isIdentifier 95

/-- `PROPOSAL_ID`. -/
def isRegistryProposalId (s : JsString) : Bool :=
  1 ≤ s.length && s.length ≤ 64 &&
    s.all fun u => (65 ≤ u && u ≤ 90) || isDigit u || u == 45

def isNonemptyAscii (value : Value) : Bool :=
  match value with
  | .string s => !s.isEmpty && s.all fun u => 0x20 ≤ u && u ≤ 0x7e
  | _ => false

def isStringMatching (value : Value) (pattern : JsString → Bool) : Bool :=
  match value with
  | .string s => pattern s
  | _ => false

def isNull (value : Value) : Bool := strictEq value .null

/-- `value === null || value === undefined`. -/
def isAbsent (value : Value) : Bool := isNull value || strictEq value .undefined

def isNullableMatch (value : Value) (pattern : JsString → Bool) : Bool :=
  isNull value || isStringMatching value pattern

def isStringIn (value : Value) (allowed : List String) : Bool :=
  isStringMatching value (includes allowed)

/-- `RFC3339_UTC`, then the calendar. -/
def isRfc3339String (s : JsString) : Bool :=
  let field (start width : Nat) : JsString := (s.drop start).take width
  let isField (start width : Nat) : Bool :=
    (field start width).length == width && (field start width).all isDigit
  let fraction := s.drop 19
  let shape := isField 0 4 && field 4 1 == [45] && isField 5 2 && field 7 1 == [45] &&
    isField 8 2 && field 10 1 == [84] && isField 11 2 && field 13 1 == [58] && isField 14 2 &&
    field 16 1 == [58] && isField 17 2 &&
    (fraction == [90] || (fraction.head? == some 46 && fraction.getLast? == some 90 &&
      3 ≤ fraction.length && fraction.tail.dropLast.all isDigit))
  let year := digitsValue (field 0 4)
  let month := digitsValue (field 5 2)
  let day := digitsValue (field 8 2)
  let hour := digitsValue (field 11 2)
  let minute := digitsValue (field 14 2)
  let second := digitsValue (field 17 2)
  let leap := year % 4 == 0 && (year % 100 != 0 || year % 400 == 0)
  let monthLengths := [31, if leap then 29 else 28, 31, 30, 31, 30, 31, 31, 30, 31, 30, 31]
  shape && 1 ≤ month && month ≤ 12 && hour ≤ 23 && minute ≤ 59 && second ≤ 59 && 1 ≤ day &&
    day ≤ monthLengths.getD (month - 1) 0

def isRfc3339 (value : Value) : Bool := isStringMatching value isRfc3339String

def isRepositoryRelativePath (value : Value) : Bool :=
  match value with
  | .string s => !s.isEmpty && s.head? != some 0x2f && !s.contains 0x5c &&
    (s.splitOn 0x2f).all fun segment => segment != [] && segment != [0x2e] && segment != [0x2e, 0x2e]
  | _ => false

end Patterns

section Validators
variable (rt : Runtime)

/-- `Date.parse(a) > Date.parse(b)`: false when either is NaN. -/
def isAfter (a b : JsString) : Bool :=
  match rt.dateParse a, rt.dateParse b with
  | some x, some y => y < x
  | _, _ => false

def isHttpsUrl (value : Value) : Bool :=
  match value with
  | .string s => match rt.parseUrl s with
    | some url => url.protocol == js "https:" && url.username == [] && url.password == []
    | none => false
  | _ => false

def isCheckSource (value : Value) : Bool := isRepositoryRelativePath value || isHttpsUrl rt value

def isAllowedHref (value : Value) : Bool :=
  isHttpsUrl rt value || isStringMatching value fun s =>
    s == js "/dashboard" || (js "/dashboard/").isPrefixOf s || (js "/dashboard?").isPrefixOf s

/-- One reason when the condition holds. -/
def reasonIf (c : Bool) (reason : JsString) : List JsString := if c then [reason] else []

def validateEnum (value : Value) (allowed : List String) (label : String) : List JsString :=
  reasonIf (!isStringIn value allowed) (js s!"{label} is invalid")

def isVerified (item : Fields) : Bool := isLiteral (prop item "verification_status") "verified"

/-- One dimension of `validateVerifiedProofSemantics`; `none` is an `undefined` set, which can
neither be asked nor spread. -/
def checkDimension (item : Fields) (proofType : JsString) (field : String)
    (allowed : Option (List String)) : Except JsThrow (List JsString) :=
  match allowed with
  | none => .error (.typeError (match prop item field with
    | .string _ => "Cannot read properties of undefined (reading 'has')"
    | _ => "Spread syntax requires ...iterable[Symbol.iterator] to be a function"))
  | some allowed => .ok <| reasonIf (!isStringIn (prop item field) allowed)
      (js "verified " ++ proofType ++ js s!" {field} must be one of " ++
        joined (sorted (allowed.map js)) "|")

def checkDimensions (item : Fields) (proofType : JsString) :
    List (String × Option (List String)) → Except JsThrow (List JsString)
  | [] => .ok []
  | (field, allowed) :: dimensions => do
    let reasons ← checkDimension item proofType field allowed
    let rest ← checkDimensions item proofType dimensions
    return reasons ++ rest

def validateVerifiedProofSemantics (item : Fields) (proofType : Option JsString) :
    Except JsThrow (List JsString) :=
  match isVerified item, proofType with
  | true, some name =>
    match lookupLiteral verifiedProofSemantics name with
    | .missing => .ok []
    | .inherited =>
      checkDimensions item name [("generation", none), ("lineage", none),
        ("observation_mode", none), ("execution_outcome", none)]
    | .own contract =>
      checkDimensions item name ([("generation", some contract.generation),
        ("lineage", some contract.lineage), ("observation_mode", some contract.observationMode),
        ("execution_outcome", some contract.executionOutcome)] ++
        (match contract.temporalScope with
          | some scope => [("temporal_scope", some scope)]
          | none => []))
  | _, _ => .ok []

def validateLink (raw : Value) : List JsString :=
  match raw with
  | .object link =>
    let unknownFields := (keys link).filter fun field => !includes requiredLinkFields field
    let missingFields := requiredLinkFields.filter fun field => !hasOwn link field
    reasonIf (!unknownFields.isEmpty)
      (js "typed link has unknown fields: " ++ joined (sorted unknownFields) ",") ++
    reasonIf (!missingFields.isEmpty)
      (js "typed link is missing fields: " ++ joined (sorted (missingFields.map js)) ",") ++
    reasonIf (!isStringMatching (prop link "rel") isMachineId) (js "typed link rel is invalid") ++
    reasonIf (!isNonemptyAscii (prop link "label")) (js "typed link label is invalid") ++
    reasonIf (!isAllowedHref rt (prop link "href")) (js "typed link href is invalid") ++
    reasonIf (!isStringIn (prop link "kind") ["artifact", "chain", "source", "ui", "download"])
      (js "typed link kind is invalid")
  | _ => [js "typed link must be an object"]

def validateLinks (input : Value) : List JsString :=
  match input with
  | .array links => links.flatMap (validateLink rt)
  | _ => [js "links must be an array"]

/-- `name`, or the empty string. -/
def checkName (check : Fields) : JsString :=
  match prop check "name" with
  | .string s => s
  | _ => []

def isBoolean (value : Value) : Bool :=
  match value with
  | .boolean _ => true
  | _ => false

def isTrue (value : Value) : Bool := strictEq value (.boolean true)

/-- The reasons one observed check gives, in the loop of `validateChecks`. -/
def validateCheck (check : Fields) (seen : List JsString) (capturedAt : Value)
    (referenceTime : JsString) : List JsString :=
  let unknownFields := (keys check).filter fun field => !includes allowedCheckFields field
  let name := checkName check
  let label := js "observed check " ++ (if name.isEmpty then js "<unknown>" else name)
  reasonIf (!unknownFields.isEmpty)
    (js "observed check has unknown fields: " ++ joined (sorted unknownFields) ",") ++
  reasonIf (!isCheckName name) (js "observed check name is not canonical") ++
  reasonIf (seen.contains name) (js "duplicate observed check name " ++ name) ++
  reasonIf (!isBoolean (prop check "required") || !isBoolean (prop check "passed"))
    (label ++ js " requires boolean required/passed") ++
  reasonIf (!isCheckSource rt (prop check "source")) (label ++ js " has invalid source") ++
  (match prop check "observed_at" with
    | .string observed =>
      if isRfc3339String observed then
        reasonIf (isAfter rt observed referenceTime)
          (label ++ js " observed_at is in the verifier's future") ++
        (match capturedAt with
          | .string captured => reasonIf (isRfc3339String captured && isAfter rt observed captured)
              (label ++ js " observed_at is after item captured_at")
          | _ => [])
      else [label ++ js " has invalid observed_at"]
    | _ => [label ++ js " has invalid observed_at"]) ++
  reasonIf (hasOwn check "detail_code" && !isAbsent (prop check "detail_code") &&
      !isStringMatching (prop check "detail_code") isMachineId)
    (label ++ js " has invalid detail_code")

/-- `checks.set(name, raw)`: a second entry keeps the place of the first. -/
def setCheck (checks : List (JsString × Fields)) (name : JsString) (raw : Fields) :
    List (JsString × Fields) :=
  if checks.any fun entry => entry.1 == name then
    checks.map fun entry => if entry.1 == name then (name, raw) else entry
  else checks ++ [(name, raw)]

/-- The first loop of `validateChecks`: the reasons, and the map of observed checks. -/
def observeChecks (capturedAt : Value) (referenceTime : JsString) :
    List Value → List JsString → List (JsString × Fields) →
      List JsString × List (JsString × Fields)
  | [], _, checks => ([], checks)
  | .object raw :: rest, seen, checks =>
    let name := checkName raw
    let (reasons, checks) :=
      observeChecks capturedAt referenceTime rest (name :: seen) (setCheck checks name raw)
    (validateCheck rt raw seen capturedAt referenceTime ++ reasons, checks)
  | _ :: rest, seen, checks =>
    let (reasons, checks) := observeChecks capturedAt referenceTime rest seen checks
    (js "observed check must be an object" :: reasons, checks)

/-- The two loops over the required checks and over the extra ones. -/
def requireChecks (required : List String) (checks : List (JsString × Fields)) : List JsString :=
  (required.flatMap fun name =>
    match checks.lookup (js name) with
    | none => [js s!"missing required observed check {name}"]
    | some check =>
      if !isTrue (prop check "required") then [js s!"mapped check {name} must set required=true"]
      else reasonIf (!isTrue (prop check "passed")) (js s!"required check {name} did not pass")) ++
  (checks.flatMap fun (name, check) =>
    reasonIf (!includes required name && isTrue (prop check "required") &&
        !isTrue (prop check "passed"))
      (js "extra required check " ++ name ++ js " did not pass"))

def validateChecks (input : Value) (proofType : Option JsString) (capturedAt : Value)
    (referenceTime : JsString) : Except JsThrow (List JsString) :=
  match input with
  | .array observed =>
    let (reasons, checks) := observeChecks rt capturedAt referenceTime observed [] []
    match proofType with
    | none => .ok reasons
    | some name =>
      match lookupLiteral requiredChecks name with
      | .missing => .ok reasons
      -- what the literal inherits is truthy and cannot be iterated
      | .inherited => .error (.typeError "required is not iterable")
      | .own required => .ok (reasons ++ requireChecks required checks)
  | _ => .ok [js "checks must be an array"]

def requireFields (item : Fields) (fields : List String) (requirement : JsString) :
    List JsString :=
  fields.flatMap fun field => reasonIf (isAbsent (prop item field)) (requirement ++ js field)

/-- `proofType === "name"`. -/
def isType (proofType : Option JsString) (name : String) : Bool := proofType == some (js name)

def validateNullability (item : Fields) (proofType : Option JsString) : List JsString :=
  let verified := isVerified item
  (if verified then
    requireFields item
      ["artifact_path", "artifact_sha256", "source_commit", "schema_version", "captured_at"]
      (js "verified proof requires ") ++
    reasonIf (isLiteral (prop item "observation_mode") "live" &&
        isLiteral (prop item "temporal_scope") "current" && isNull (prop item "deployment_commit"))
      (js "verified live current proof requires deployment_commit")
  else []) ++
  (if isType proofType "exact_envelope_v3" || isType proofType "native_treasury_execution_v1" then
    requireFields item ["proposal_id", "action_id", "envelope_hash", "network", "package_hash",
      "contract_hash", "deployment_domain"] (proofType.getD [] ++ js " requires ")
  else []) ++
  (if isType proofType "historical_odra_receipt_v2" && verified then
    requireFields item ["proposal_id", "network", "package_hash", "contract_hash",
      "source_commit", "deployment_commit"] (js "verified historical Odra proof requires ")
  else []) ++
  (if isType proofType "safepay_v2" && verified then
    requireFields item ["proposal_id", "network", "report_hash", "settlement_transaction"]
      (js "verified SafePay proof requires ")
  else []) ++
  (if isType proofType "official_x402_settlement_v1" && verified then
    requireFields item ["proposal_id", "action_id", "envelope_hash", "network", "package_hash",
      "contract_hash", "deployment_domain"] (js "verified official x402 proof requires ") ++
    requireFields item ["payment_requirements_hash", "signed_payment_payload_hash",
      "report_hash", "settlement_transaction"] (js "verified official x402 proof requires ")
  else [])

def paymentSemanticCapability (proofType : Option JsString) : Option UnsupportedCapability :=
  if isType proofType "safepay_v2" then some .safepayV2Semantics
  else if isType proofType "official_x402_settlement_v1" then
    some .officialX402SettlementV1Semantics
  else none

end Validators
end Concordia.Verify
