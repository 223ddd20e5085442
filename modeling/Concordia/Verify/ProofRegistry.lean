import Concordia.Verify.Registry

/-! Verification of one proof item, the bindings between items, and of a whole registry. -/
namespace Concordia.Verify
open Concordia.Js

section Items
variable (rt : Runtime)

/-- `JSON.stringify` of a string. -/
def jsonStringify (s : JsString) : JsString :=
  let hex4 (u : UInt16) : JsString :=
    js "\\u" ++ toHex [(u.toNat / 256).toUInt8, (u.toNat % 256).toUInt8]
  let isHigh (u : UInt16) : Bool := 0xd800 ≤ u && u ≤ 0xdbff
  let isLow (u : UInt16) : Bool := 0xdc00 ≤ u && u ≤ 0xdfff
  let escape (before after : Option UInt16) (u : UInt16) : JsString :=
    if u = 0x22 then js "\\\"" else if u = 0x5c then js "\\\\"
    else if u = 0x08 then js "\\b" else if u = 0x0c then js "\\f" else if u = 0x0a then js "\\n"
    else if u = 0x0d then js "\\r" else if u = 0x09 then js "\\t"
    else if u < 0x20 then hex4 u
    else if isHigh u && !(after.any isLow) then hex4 u
    else if isLow u && !(before.any isHigh) then hex4 u
    else [u]
  let rec body (before : Option UInt16) : JsString → JsString
    | [] => []
    | u :: rest => escape before rest.head? u ++ body (some u) rest
  js "\"" ++ body none s ++ js "\""

def strictJsonMessage : StrictJsonError → JsString
  | .duplicateJsonKey key => js "duplicate JSON key " ++ jsonStringify key
  | .invalidJson message offset => js message ++ js " at byte " ++ decimal offset

def validateAdapterClaims (item : Fields) (expected : List (String × JsString)) :
    List JsString :=
  expected.flatMap fun (field, value) =>
    reasonIf (!strictEq (prop item field) (.string value))
      (js s!"{field} differs from independently verified artifact")

/-- What an adapter's success means to the item: claims to compare, a further reason, facts. -/
structure AdapterSuccess where
  claims : List (String × JsString)
  reasons : List JsString
  facts : Option AdapterFacts

def runAdapter (item : Fields) (proofType : Option JsString) (parsed : Value) :
    Except AdapterError AdapterSuccess :=
  if isType proofType "exact_envelope_v3" then do
    let facts ← rt.verifyExactEnvelopeV3Artifact parsed
    return {
      claims := [("proposal_id", facts.proposalId), ("action_id", facts.actionId),
        ("envelope_hash", facts.envelopeHash), ("network", facts.network),
        ("package_hash", facts.packageHash), ("contract_hash", facts.contractHash),
        ("deployment_domain", facts.deploymentDomain), ("source_commit", facts.sourceCommit),
        ("deployment_commit", facts.deploymentCommit),
        ("schema_version", js "concordia.v3-proof.v1")]
      reasons := []
      facts := some (.exactEnvelope facts) }
  else if isType proofType "historical_odra_receipt_v2" then do
    let facts ← rt.verifyHistoricalOdraReceiptArtifact parsed
    return {
      claims := [("proposal_id", facts.proposalId), ("generation", facts.generation),
        ("network", js "casper-test"), ("package_hash", facts.packageHash),
        ("contract_hash", facts.contractHash), ("source_commit", facts.sourceCommit),
        ("deployment_commit", facts.deploymentCommit), ("schema_version", facts.schemaVersion),
        ("captured_at", facts.capturedAt)]
      reasons := reasonIf (facts.generation == js "v1" && !isLiteral (prop item "lineage") "canonical")
        (js "the currently publishable historical v1 combined proof must use canonical lineage")
      facts := some (.historicalOdra facts) }
  else if isType proofType "native_treasury_execution_v1" then do
    let facts ← rt.verifyNativeTreasuryExecutionArtifact parsed
    return {
      claims := [("proposal_id", facts.proposalId), ("action_id", facts.actionId),
        ("envelope_hash", facts.envelopeHash), ("network", facts.network),
        ("package_hash", facts.packageHash), ("contract_hash", facts.contractHash),
        ("deployment_domain", facts.deploymentDomain), ("source_commit", facts.sourceCommit),
        ("deployment_commit", facts.deploymentCommit), ("schema_version", facts.schemaVersion),
        ("captured_at", facts.capturedAt)]
      reasons := []
      facts := some (.nativeTreasury facts) }
  else if isType proofType "safepay_v2" then do
    let facts ← rt.verifySafePayV2ArtifactEnvelope parsed
    return {
      claims := [("proposal_id", facts.proposalId), ("network", facts.network),
        ("report_hash", facts.reportHash),
        ("settlement_transaction", facts.settlementTransaction),
        ("source_commit", facts.sourceCommit), ("deployment_commit", facts.deploymentCommit),
        ("schema_version", facts.schemaVersion), ("captured_at", facts.capturedAt)]
      reasons := []
      facts := none }
  else do
    let facts ← rt.verifyOfficialX402ArtifactEnvelope parsed
    return {
      claims := [("proposal_id", facts.proposalId), ("action_id", facts.actionId),
        ("envelope_hash", facts.envelopeHash), ("network", facts.network),
        ("package_hash", facts.packageHash), ("contract_hash", facts.contractHash),
        ("deployment_domain", facts.deploymentDomain),
        ("payment_requirements_hash", facts.paymentRequirementsHash),
        ("signed_payment_payload_hash", facts.signedPaymentPayloadHash),
        ("report_hash", facts.reportHash),
        ("settlement_transaction", facts.settlementTransaction),
        ("source_commit", facts.sourceCommit), ("deployment_commit", facts.deploymentCommit),
        ("schema_version", facts.schemaVersion), ("captured_at", facts.capturedAt)]
      reasons := []
      facts := none }

/-- What the adapter section of `verifyItem` finds out. -/
structure Evidence where
  reasons : List JsString := []
  unavailableReasons : List JsString := []
  envelopeVerified : Bool := false
  semanticsVerified : Bool := false
  facts : Option AdapterFacts := none

def artifactBytes : Artifact → List UInt8
  | .text content => rt.utf8Encode content
  | .bytes content => content

/-- The `try` block: nothing thrown in it leaves it. -/
def tryAdapter (item : Fields) (proofType : Option JsString) (artifact : Artifact) : Evidence :=
  let name := proofType.getD []
  let outcome : Except AdapterError AdapterSuccess := do
    let parsed ← (parseJsonStrict (rt.utf8Decode (artifactBytes rt artifact))).mapError
      fun e => .strictJson (strictJsonMessage e)
    runAdapter rt item proofType parsed
  match outcome with
  | .ok success =>
    let mismatches := validateAdapterClaims item success.claims
    let semantic := isType proofType "exact_envelope_v3" ||
      isType proofType "historical_odra_receipt_v2" ||
      isType proofType "native_treasury_execution_v1"
    { reasons := mismatches ++ success.reasons
      envelopeVerified := mismatches.isEmpty
      semanticsVerified := semantic
      facts := success.facts }
  | .error (.historicalUnavailable message) =>
    { unavailableReasons :=
        [js "independent " ++ name ++ js " verification unavailable: " ++ message] }
  | .error (.strictJson message) => { reasons := [js "artifact strict JSON is invalid: " ++ message] }
  | .error (.error message) =>
    { reasons := [js "independent " ++ name ++ js " verification failed: " ++ message] }
  | .error .notAnError =>
    { reasons := [js "independent " ++ name ++ js " verification failed: unknown adapter error"] }

def asStringOrNull (value : Value) : Option JsString :=
  match value with
  | .string s => some s
  | _ => none

/-- The first checks of an item: which fields it has, its identifier and its type. -/
def identityReasons (item : Fields) (proofType : Option JsString) : List JsString :=
  let unknownFields := (keys item).filter fun field => !includes allowedItemFields field
  reasonIf (!unknownFields.isEmpty)
    (js "unknown proof item fields: " ++ joined (sorted unknownFields) ",") ++
  (itemRequiredFields.flatMap fun field =>
    reasonIf (!hasOwn item field) (js s!"missing required field {field}")) ++
  reasonIf (!isStringMatching (prop item "proof_id") isMachineId) (js "proof_id is not canonical") ++
  reasonIf (!proofType.any (includes proofTypes)) (js "proof_type is not recognized")

/-- The checks on the fields of an item, in their order; they end with `validateNullability` and
the explicitly invalid outcomes. -/
def itemReasons (item : Fields) (registryProposalId registryGeneratedAt referenceTime : JsString) :
    Except JsThrow (List JsString) := do
  let proofType := asStringOrNull (prop item "proof_type")
  let capturedAt := prop item "captured_at"
  let hexFields := ["action_id", "envelope_hash", "artifact_sha256", "package_hash",
    "contract_hash", "deployment_domain", "payment_requirements_hash",
    "signed_payment_payload_hash", "report_hash", "settlement_transaction"]
  let capturedAfter (time : JsString) : Bool := match capturedAt with
    | .string captured => isRfc3339String captured && isAfter rt captured time
    | _ => false
  let semantics ← validateVerifiedProofSemantics item proofType
  let checks ← validateChecks rt (prop item "checks") proofType capturedAt referenceTime
  return identityReasons item proofType ++ (
    validateEnum (prop item "generation") ["v1", "v2", "v3", "none"] "generation" ++
    validateEnum (prop item "lineage") ["canonical", "supplemental"] "lineage" ++
    validateEnum (prop item "observation_mode") ["live", "snapshot", "unavailable"]
      "observation_mode" ++
    validateEnum (prop item "temporal_scope") ["current", "historical"] "temporal_scope" ++
    validateEnum (prop item "verification_status")
      ["verified", "pending", "stale", "unavailable", "invalid"] "verification_status" ++
    validateEnum (prop item "execution_outcome")
      ["accepted", "expected_rejection", "not_applicable", "unexpected_rejection",
        "not_attempted", "unknown"] "execution_outcome" ++
    semantics ++
    reasonIf (!isNonemptyAscii (prop item "claim_scope")) (js "claim_scope must be nonempty ASCII") ++
    reasonIf (!isNonemptyAscii (prop item "enforcement_scope"))
      (js "enforcement_scope must be nonempty ASCII") ++
    reasonIf (!isNull (prop item "proposal_id") &&
        (!isStringMatching (prop item "proposal_id") isRegistryProposalId ||
          !strictEq (prop item "proposal_id") (.string registryProposalId)))
      (js "proposal_id must be null or equal the registry proposal") ++
    (hexFields.flatMap fun field =>
      reasonIf (!isNullableMatch (prop item field) (isHexOf 64))
        (js s!"{field} must be null or lowercase hex32")) ++
    (["source_commit", "deployment_commit"].flatMap fun field =>
      reasonIf (!isNullableMatch (prop item field) (isHexOf 40))
        (js s!"{field} must be null or lowercase git SHA")) ++
    reasonIf (!isNull (prop item "artifact_path") &&
        !isRepositoryRelativePath (prop item "artifact_path"))
      (js "artifact_path must be a safe repository-relative path or null") ++
    reasonIf (!isNull (prop item "network") && !isNonemptyAscii (prop item "network"))
      (js "network must be ASCII or null") ++
    reasonIf (!isNull (prop item "schema_version") && !isNonemptyAscii (prop item "schema_version"))
      (js "schema_version must be ASCII or null") ++
    reasonIf (!isNull capturedAt && !isRfc3339 capturedAt)
      (js "captured_at must be RFC3339 UTC or null") ++
    reasonIf (capturedAfter referenceTime) (js "captured_at is in the verifier's future") ++
    reasonIf (isVerified item && capturedAfter registryGeneratedAt)
      (js "verified proof captured_at is after registry generated_at") ++
    validateLinks rt (prop item "links") ++
    checks ++
    validateNullability item proofType ++
    reasonIf (isLiteral (prop item "verification_status") "invalid" ||
        isLiteral (prop item "execution_outcome") "unexpected_rejection")
      (js "proof explicitly reports an invalid or unexpected outcome"))

def itemResult (proofId proofType : Option JsString) (status : ResultStatus)
    (reasons ignoredAssertions : List JsString) (verifiedAspects : List VerifiedAspect)
    (unsupportedCapabilities : List UnsupportedCapability) : ItemVerificationResult where
  proofId := proofId
  proofType := proofType
  status := status
  green := status = .verified
  reasons := reasons
  ignoredAssertions := ignoredAssertions
  verifiedAspects := verifiedAspects
  unsupportedCapabilities := unsupportedCapabilities

/-- The `else` branches over an artifact: the snapshot checks, the adapters, or neither. -/
def gatherEvidence (item : Fields) (proofType : Option JsString) (artifact : Option Artifact)
    (hashVerified : Bool) (referenceTime : JsString) : Evidence :=
  let adapted := isType proofType "exact_envelope_v3" ||
    isType proofType "historical_odra_receipt_v2" ||
    isType proofType "native_treasury_execution_v1" || isType proofType "safepay_v2" ||
    isType proofType "official_x402_settlement_v1"
  if isType proofType "snapshot" then
    let sourcePresent := match prop item "links" with
      | .array links => links.any fun raw => match raw with
        | .object link => isLiteral (prop link "rel") "source" &&
            isLiteral (prop link "kind") "source" && isHttpsUrl rt (prop link "href")
        | _ => false
      | _ => false
    let stale := match prop item "captured_at" with
      | .string captured =>
        match isRfc3339String captured, rt.dateParse captured, rt.dateParse referenceTime with
        | true, some capturedMs, some referenceMs =>
          capturedMs ≤ referenceMs && isLiteral (prop item "temporal_scope") "current" &&
            decide (referenceMs - capturedMs > 24 * 60 * 60 * 1000)
        | _, _, _ => false
      | _ => false
    { reasons := reasonIf (!sourcePresent) (js "snapshot requires an explicit HTTPS source link")
      unavailableReasons := reasonIf stale (js "current snapshot is older than 24 hours")
      semanticsVerified := hashVerified && sourcePresent }
  else
    match hashVerified && adapted, artifact with
    | true, some artifact => tryAdapter rt item proofType artifact
    | true, none => {}
    | false, _ =>
      { unavailableReasons := reasonIf (paymentSemanticCapability proofType).isNone
          (js "independent " ++ proofType.getD (js "unknown") ++
            js " proof adapter has not verified the artifact") }

/-- The status of an item, and all the reasons it is reported with. -/
def conclude (reasons unavailableReasons unknownReasons : List JsString) (green : Bool) :
    ResultStatus × List JsString :=
  let all := reasons ++ unavailableReasons ++ unknownReasons
  if !reasons.isEmpty then (.invalid, all)
  else if !unavailableReasons.isEmpty then (.unavailable, all)
  else if !unknownReasons.isEmpty then (.unknown, all)
  else if green then (.verified, all)
  else (.unknown, all ++ [js "proof does not satisfy the frozen green predicate"])

def verifyItem (input : Value) (registryProposalId : JsString)
    (artifacts : List (JsString × Artifact)) (registryGeneratedAt referenceTime : JsString) :
    Except JsThrow InternalItemVerificationResult :=
  match input with
  | .object item => do
    let proofId := asStringOrNull (prop item "proof_id")
    let proofType := asStringOrNull (prop item "proof_type")
    let verified := isVerified item
    let fieldReasons ← itemReasons rt item registryProposalId registryGeneratedAt referenceTime
    let observationUnavailable := isLiteral (prop item "verification_status") "unavailable" ||
      isLiteral (prop item "verification_status") "stale" ||
      isLiteral (prop item "observation_mode") "unavailable"
    let notTerminal := isLiteral (prop item "verification_status") "pending" ||
      isLiteral (prop item "execution_outcome") "not_attempted" ||
      isLiteral (prop item "execution_outcome") "unknown"
    let capability := if verified then paymentSemanticCapability proofType else none
    let path := if verified then asStringOrNull (prop item "artifact_path") else none
    let artifact := path.bind fun path => artifacts.lookup path
    let digestMatches := artifact.any fun artifact =>
      strictEq (.string (rt.sha256Hex (artifactBytes rt artifact))) (prop item "artifact_sha256")
    let evidence := if verified then
      gatherEvidence rt item proofType artifact digestMatches referenceTime else {}
    let reasons := fieldReasons ++
      reasonIf (artifact.isSome && !digestMatches) (js "artifact SHA-256 mismatch") ++
      evidence.reasons
    let unavailableReasons :=
      reasonIf observationUnavailable (js "proof observation is unavailable or stale") ++
      reasonIf (path.isSome && artifact.isNone)
        (js "artifact bytes unavailable for " ++ path.getD []) ++
      evidence.unavailableReasons ++
      reasonIf capability.isSome (proofType.getD [] ++
        js " payment semantic verification is unsupported by this package; " ++
        (if evidence.envelopeVerified then
          js "artifact SHA-256 and proposal/identity envelope were independently verified"
        else js "a dedicated raw-evidence semantic adapter is required"))
    let unknownReasons :=
      reasonIf notTerminal (js "proof has not reached an observed terminal outcome")
    -- `String(execution_outcome)` is reached without reasons only, on one of the known outcomes
    let green := verified && evidence.semanticsVerified &&
      !isLiteral (prop item "observation_mode") "unavailable" &&
      isStringIn (prop item "execution_outcome") allowedOutcomes
    let (status, allReasons) := conclude reasons unavailableReasons unknownReasons green
    let aspects := [VerifiedAspect.artifactIdentityEnvelope, .artifactSha256, .proofSemantics,
      .proposalBinding].filter fun aspect => match aspect with
      | .artifactIdentityEnvelope => evidence.envelopeVerified
      | .artifactSha256 => digestMatches
      | .proofSemantics => evidence.semanticsVerified
      | .proposalBinding => isStringMatching (prop item "proposal_id") isRegistryProposalId &&
          strictEq (prop item "proposal_id") (.string registryProposalId)
    return {
      itemResult proofId proofType status allReasons
        (sorted ((forgedBooleanFields.filter (hasOwn item)).map js)) aspects capability.toList with
      adapterFacts := evidence.facts }
  | _ => .ok { itemResult none none .invalid [js "proof item must be an object"] [] [] [] with
      adapterFacts := none }

end Items

section Bindings

/-- `isExactEnvelopeFacts`. -/
def exactEnvelopeFacts (item : InternalItemVerificationResult) : Option ExactEnvelopeV3Facts :=
  match item.adapterFacts with
  | some (.exactEnvelope facts) =>
    if facts.schemaId = js "concordia.v3-proof-verification.v1" then some facts else none
  | _ => none

/-- `isNativeTreasuryFacts`. -/
def nativeTreasuryFacts (item : InternalItemVerificationResult) :
    Option NativeTreasuryExecutionFacts :=
  match item.adapterFacts with
  | some (.nativeTreasury facts) =>
    if facts.schemaVersion = js "concordia.native_treasury_execution.v1" then some facts else none
  | _ => none

def invalidateItem (item : InternalItemVerificationResult) (reason : String) :
    InternalItemVerificationResult :=
  { item with status := .invalid, green := false, reasons := item.reasons ++ [js reason] }

/-- The body of the loop of `applyCrossProofBindings`. -/
def bindTreasury (exactItems : List ExactEnvelopeV3Facts)
    (treasury : InternalItemVerificationResult) : InternalItemVerificationResult :=
  match isType treasury.proofType "native_treasury_execution_v1" &&
      treasury.status == .verified, nativeTreasuryFacts treasury with
  | true, some facts =>
    let candidates := exactItems.filter fun exact =>
      exact.proposalId == facts.proposalId && exact.actionId == facts.actionId &&
        exact.envelopeHash == facts.envelopeHash && exact.network == facts.network &&
        exact.packageHash == facts.packageHash && exact.contractHash == facts.contractHash &&
        exact.deploymentDomain == facts.deploymentDomain
    match candidates with
    | [exact] =>
      if facts.snapshotBlockHeight < exact.finalizationBlockHeight ∧
          facts.authorizationBlockHeight = exact.finalizationBlockHeight ∧
          facts.authorizationBlockHash = exact.finalizationBlockHash ∧
          ¬ exact.finalizationBlockHeight > facts.nativeBlockHeight then treasury
      else invalidateItem treasury
        "native treasury ordering must satisfy snapshot < v3 finalization = exact scan-start block <= native execution"
    | _ => invalidateItem treasury
        "native treasury execution requires exactly one independently verified, identity-matched exact-envelope v3 proof"
  | _, _ => treasury

def applyCrossProofBindings (items : List InternalItemVerificationResult) :
    List InternalItemVerificationResult :=
  let exactItems := items.filterMap fun item =>
    if isType item.proofType "exact_envelope_v3" && item.status == .verified then
      exactEnvelopeFacts item
    else none
  items.map (bindTreasury exactItems)

end Bindings

section Registry
variable (rt : Runtime)

def summarize (items : List ItemVerificationResult) : Summary where
  total := items.length
  verified := items.countP (·.status == .verified)
  invalid := items.countP (·.status == .invalid)
  unavailable := items.countP (·.status == .unavailable)
  unknown := items.countP (·.status == .unknown)

def overallStatus (items : List ItemVerificationResult) : ResultStatus :=
  if items.isEmpty then .unknown
  else if items.any (·.status == .invalid) then .invalid
  else if items.any (·.status == .unavailable) then .unavailable
  else if items.any (·.status == .unknown) then .unknown
  else .verified

def exitCodeFor : ResultStatus → Nat
  | .verified => 0
  | .invalid => 2
  | .unavailable => 3
  | .unknown => 4

def topLevelError (code : String) (message : JsString) : RegistryVerificationResult where
  status := .invalid
  valid := false
  exitCode := exitCodeFor .invalid
  proposalId := none
  verificationScope := .none
  summary := ⟨0, 0, 0, 0, 0⟩
  items := []
  error := some (code, message)

/-- The first `proof_id` that occurs twice. -/
def duplicateProofId : List Value → List JsString → Option JsString
  | [], _ => none
  | .object raw :: rest, seen =>
    match prop raw "proof_id" with
    | .string proofId =>
      if seen.contains proofId then some proofId else duplicateProofId rest (proofId :: seen)
    | _ => duplicateProofId rest seen
  | _ :: rest, seen => duplicateProofId rest seen

def topLevelFields : List String := ["schema_version", "generated_at", "proposal_id", "items"]

/-- What the top level of a registry must give before its items are looked at. -/
structure TopLevel where
  proposalId : JsString
  generatedAt : JsString
  referenceTime : JsString
  items : List Value

/-- The checks of `verifyProofRegistry` before it walks the items. -/
def checkTopLevel (input : Value) (now : Option JsString) :
    Except RegistryVerificationResult TopLevel :=
  if now.any fun now => !isRfc3339String now then
    .error (topLevelError "invalid_reference_time" (js "now must be RFC3339 UTC"))
  else
    match input with
    | .object registry =>
      let missing := topLevelFields.filter fun key => !hasOwn registry key
      let unknown := (keys registry).filter fun key => !includes topLevelFields key
      if !missing.isEmpty then
        .error (topLevelError "missing_registry_fields"
          (js "required top-level fields must be own properties: " ++
            joined (sorted (missing.map js)) ","))
      else if !unknown.isEmpty then
        .error (topLevelError "unknown_registry_fields"
          (js "unknown top-level fields: " ++ joined (sorted unknown) ","))
      else if !strictEq (prop registry "schema_version") (.number 1) then
        .error (topLevelError "invalid_schema_version" (js "schema_version must equal 1"))
      else
        let generatedAt := prop registry "generated_at"
        let proposalId := prop registry "proposal_id"
        if !isRfc3339 generatedAt then
          .error (topLevelError "invalid_generated_at" (js "generated_at must be RFC3339 UTC"))
        else if !isStringMatching proposalId isRegistryProposalId then
          .error (topLevelError "invalid_proposal_id" (js "proposal_id is not canonical"))
        else
          match generatedAt, proposalId, prop registry "items" with
          | .string generatedAt, .string proposalId, .array items =>
            if items.length > 128 then
              .error (topLevelError "too_many_items" (js "registry exceeds the 128-item limit"))
            else
              match duplicateProofId items [] with
              | some proofId =>
                .error (topLevelError "duplicate_proof_id" (js "duplicate proof_id " ++ proofId))
              | none =>
                let referenceTime := now.getD rt.clock
                if isAfter rt generatedAt referenceTime then
                  .error (topLevelError "future_generated_at"
                    (js "generated_at cannot be in the verifier's future"))
                else .ok ⟨proposalId, generatedAt, referenceTime, items⟩
          | _, _, _ => .error (topLevelError "invalid_items" (js "items must be an array"))
    | _ => .error (topLevelError "invalid_registry" (js "registry must be an object"))

/-- `input.items.map(verifyItem)`. -/
def verifyItems (top : TopLevel) (artifacts : List (JsString × Artifact)) :
    List Value → Except JsThrow (List InternalItemVerificationResult)
  | [] => .ok []
  | item :: rest => do
    let result ← verifyItem rt item top.proposalId artifacts top.generatedAt top.referenceTime
    let results ← verifyItems top artifacts rest
    return result :: results

def verifyProofRegistry (input : Value) (artifacts : List (JsString × Artifact))
    (now : Option JsString) : Except JsThrow RegistryVerificationResult :=
  match checkTopLevel rt input now with
  | .error result => .ok result
  | .ok top => do
    let internalItems ← verifyItems rt top artifacts top.items
    let items := (applyCrossProofBindings internalItems).map fun item =>
      item.toItemVerificationResult
    let status := overallStatus items
    return {
      status := status
      valid := status = .verified
      exitCode := exitCodeFor status
      proposalId := some top.proposalId
      verificationScope := .artifactTranscriptConsistency
      summary := summarize items
      items := items
      error := none }

end Registry
end Concordia.Verify
