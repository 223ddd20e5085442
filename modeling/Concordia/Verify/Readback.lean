import Concordia.Contract.Types
import Concordia.Verify.Rpc

/-! The V3 readback adapter: seventeen recorded calls, and the cells of the governance contract that
they read at one state root. The digests and the UTF-8 decoder are parameters. -/
namespace Concordia.Verify.Readback
open Concordia.Js
open Concordia.Verify.NativeDeploy (require)
open Concordia.Verify.NativeFinality (present)
open Concordia.Verify.Rpc (record sortedNames literal onlyName safeHeight)
open Concordia.Verify.Transcript (canonicalTranscriptJson)

structure Runtime where
  sha256 : List UInt8 → Contract.Bytes32
  blake2b256 : List UInt8 → Contract.Bytes32
  /-- `new TextDecoder("utf-8", { fatal: true }).decode`. -/
  decodeUtf8 : List UInt8 → Option JsString

abbrev Checked := Except String

section Values

def transcriptFields : List String :=
  ["rpc_url_identity_or_node_id", "method", "params", "request", "response", "canonical_sha256"]

def readbackFactFields : List String :=
  ["schema_id", "network", "package_hash", "contract_hash", "owner", "schema_version",
    "deployment_domain", "casper_chain_name", "proposer", "finalizer", "signers", "threshold",
    "proposal_id", "proposed_envelope", "approval_count", "finalized", "finalized_envelope",
    "action_id", "action_authorized", "observed_block_hash", "observed_block_height",
    "observed_state_root_hash"]

def schemaId : String := "concordia.v3-chain-readback.v1"

def exactOwnKeys (value : Fields) (expected : List String) (label : String) : Checked Unit :=
  require (sortedNames (keys value) == sortedNames (expected.map js))
    s!"{label} must contain exactly the frozen own fields"

def equalCanonical (actual expected : Value) (label : String) : Checked Unit := do
  let actualText ← canonicalTranscriptJson actual s!"{label} actual"
  let expectedText ← canonicalTranscriptJson expected s!"{label} expected"
  require (actualText == expectedText) s!"{label} differs from raw evidence"

/-- `"00".repeat(32)`. -/
def zeroHash : JsString := List.replicate 64 0x30

def hash32 (value : Value) (label : String) (nonzero : Bool) : Checked JsString :=
  let malformed := s!"{label} must be canonical lowercase 32-byte hex"
  match value with
  | .string s => do
    require (isHexOf 64 s) malformed
    require (!(nonzero && s == zeroHash)) s!"{label} cannot be zero"
    return s
  | _ => .error malformed

def asciiProposal (value : Value) : Checked JsString :=
  match value with
  | .string s => do
    require (isProposalId s) "readback proposal_id is invalid"
    return s
  | _ => .error "readback proposal_id is invalid"

/-- A string that is not empty. -/
def isFilled (value : Value) : Bool :=
  match value with
  | .string s => !s.isEmpty
  | _ => false

/-- `hexBytes(value)`. -/
def bytesOfHex (s : JsString) : Checked (List UInt8) :=
  match fromHex s with
  | some bytes => .ok bytes
  | none => .error "hex value must be canonical lowercase hexadecimal"

def secureEqualHex (actual expected : JsString) : Bool :=
  actual.length == expected.length && fromHex actual == fromHex expected

end Values

section Transcripts
variable (rt : Runtime)

def sha256Canonical (value : Value) (label : String) : Checked JsString := do
  let text ← canonicalTranscriptJson value label
  return toHex (rt.sha256 (text.map fun u => u.toNat.toUInt8)).toList

def isNodeIdentity (value : Value) : Bool :=
  match value with
  | .string s => !s.isEmpty && !s.contains 0x40
  | _ => false

def transcript (value : Value) : Checked Fields := do
  let item ← record value "v3 readback transcript"
  exactOwnKeys item transcriptFields "v3 readback transcript"
  require (isNodeIdentity (prop item "rpc_url_identity_or_node_id"))
    "v3 readback node identity is invalid or contains credentials"
  let method := prop item "method"
  require (isFilled method) "v3 readback method is invalid"
  let params ← record (prop item "params") "v3 readback params"
  let request ← record (prop item "request") "v3 readback request"
  exactOwnKeys request ["jsonrpc", "id", "method", "params"] "v3 readback request"
  require (isLiteral (prop request "jsonrpc") "2.0" && strictEq (prop request "method") method)
    "v3 readback request method is invalid"
  equalCanonical (prop request "params") (.object params) "v3 readback request params"
  let response ← record (prop item "response") "v3 readback response"
  exactOwnKeys response ["jsonrpc", "id", "result"] "v3 readback response"
  require (isLiteral (prop response "jsonrpc") "2.0" &&
      strictEq (prop response "id") (prop request "id"))
    "v3 readback response identity mismatch"
  let expectedDigest ← sha256Canonical rt
    (literal [("request", .object request), ("response", .object response)]) "v3 readback transcript"
  let suppliedDigest ← hash32 (prop item "canonical_sha256") "v3 readback transcript digest" false
  require (secureEqualHex expectedDigest suppliedDigest) "v3 readback transcript digest mismatch"
  return item

def storedValue (item : Fields) : Checked Fields := do
  let response ← record (prop item "response") "v3 readback response"
  let result ← record (prop response "result") "v3 readback result"
  record (prop result "stored_value") "v3 readback stored value"

/-- A number that is a byte. -/
def byteOf (value : Value) : Option UInt8 :=
  match value with
  | .number x => if x.den = 1 ∧ 0 ≤ x.num ∧ x.num ≤ 255 then some x.num.toNat.toUInt8 else none
  | _ => none

def parsedBytes (value : Value) (label : String) : Checked (List UInt8) :=
  match value with
  | .array elements =>
    match elements.mapM byteOf with
    | some bytes => .ok bytes
    | none => .error s!"{label} parsed bytes are invalid"
  | _ => .error s!"{label} parsed bytes are invalid"

/-- Four bytes, the low one first. -/
def littleU32 (n : Nat) : List UInt8 :=
  [n.toUInt8, (n / 256).toUInt8, (n / 65536).toUInt8, (n / 16777216).toUInt8]

def rawBytes (value : Value) (label : String) : Checked (List UInt8) :=
  match value with
  | .string s => bytesOfHex s
  | _ => .error s!"{label} raw bytes are missing"

/-- The bytes of a cell: a list of bytes, once in numbers and once in hexadecimal. -/
def innerStateBytes (item : Fields) (label : String) : Checked (List UInt8) := do
  let stored ← storedValue item
  let clValue ← record (prop stored "CLValue") s!"{label} CLValue"
  exactOwnKeys clValue ["cl_type", "bytes", "parsed"] s!"{label} CLValue"
  equalCanonical (prop clValue "cl_type") (literal [("List", .string (js "U8"))]) s!"{label} CLType"
  let inner ← parsedBytes (prop clValue "parsed") label
  let raw ← rawBytes (prop clValue "bytes") label
  require (raw == littleU32 inner.length ++ inner)
    s!"{label} parsed value differs from raw CLValue bytes"
  return inner

/-- The key of a cell in the dictionary of the contract: the digest of the path of its field, and of
the key of a mapping. -/
def stateDictionaryKey (index : Nat) (mappingKey : List UInt8) : JsString :=
  let path := if index ≤ 15 then [0, 0, 0, index.toUInt8] else [0xff, 1, index.toUInt8]
  toHex (rt.blake2b256 (path ++ mappingKey)).toList

end Transcripts

section Cells
variable (rt : Runtime)

def u32 (value : List UInt8) (label : String) : Checked Nat :=
  match value with
  | [a, b, c, d] =>
    .ok (a.toNat + 256 * b.toNat + 65536 * c.toNat + 16777216 * d.toNat)
  | _ => .error s!"{label} must be canonical u32 bytes"

def u8Value (value : List UInt8) (label : String) : Checked Nat :=
  match value with
  | [a] => .ok a.toNat
  | _ => .error s!"{label} must be canonical u8 bytes"

def boolValue (value : List UInt8) (label : String) : Checked Bool :=
  match value with
  | [0] => .ok false
  | [1] => .ok true
  | _ => .error s!"{label} must be canonical Bool bytes"

def bytes32Value (value : List UInt8) (label : String) : Checked JsString := do
  require (value.length == 32) s!"{label} must be canonical Bytes32"
  return toHex value

def stringValue (value : List UInt8) (label : String) : Checked JsString := do
  require (4 ≤ value.length) s!"{label} String is malformed"
  let length ← u32 (value.take 4) s!"{label} length"
  require (length == value.length - 4) s!"{label} String length is non-canonical"
  match rt.decodeUtf8 (value.drop 4) with
  | some s => .ok s
  | none => .error s!"{label} String is invalid UTF-8"

end Cells

section Calls
variable (rt : Runtime)

structure Block where
  blockHash : JsString
  stateRootHash : JsString
  blockHeight : Nat

def isArray (value : Value) : Bool :=
  match value with
  | .array _ => true
  | _ => false

def unwrapBlock (response : Fields) : Checked Block := do
  let result ← record (prop response "result") "v3 readback block result"
  exactOwnKeys result ["api_version", "block_with_signatures"] "v3 readback block result"
  require (isFilled (prop result "api_version")) "v3 readback block api_version is invalid"
  let wrapper ← record (prop result "block_with_signatures") "v3 readback block wrapper"
  exactOwnKeys wrapper ["block", "proofs"] "v3 readback block wrapper"
  require (isArray (prop wrapper "proofs")) "v3 readback block proofs must be a list"
  let versioned ← record (prop wrapper "block") "v3 readback versioned block"
  let unsupported := "v3 readback block must contain exactly one supported version"
  let version ← onlyName versioned ["Version1", "Version2"] unsupported
  require (versioned.length == 1) unsupported
  let block ← record (prop versioned version) "v3 readback block"
  require (hasOwn block "hash" && hasOwn block "header" && hasOwn block "body")
    "v3 readback block lacks hash/header/body"
  let _ ← record (prop block "body") "v3 readback block body"
  let header ← record (prop block "header") "v3 readback block header"
  let blockHash ← hash32 (prop block "hash") "v3 readback block hash" true
  let stateRootHash ← hash32 (prop header "state_root_hash") "v3 readback state root" true
  let blockHeight ← safeHeight (prop header "height") "v3 readback block height"
  return ⟨blockHash, stateRootHash, blockHeight⟩

/-- `raw.startsWith(..) ? raw.slice(..) : ..`. -/
def stripPackage (raw : JsString) : JsString :=
  if (js "contract-package-").isPrefixOf raw then raw.drop 17
  else if (js "hash-").isPrefixOf raw then raw.drop 5
  else raw

def packageHashFromContract (item : Fields) : Checked JsString := do
  let stored ← storedValue item
  let contract ← record (prop stored "Contract") "v3 readback contract record"
  match prop contract "contract_package_hash" with
  | .string raw => hash32 (.string (stripPackage raw)) "v3 readback package hash" true
  | _ => .error "v3 readback contract package hash is missing"

/-- What the artifact is expected to be about. -/
structure Identity where
  packageHash : JsString
  contractHash : JsString
  proposalId : JsString
  actionId : JsString

/-- The calls, by method. -/
structure Calls where
  block : Fields
  contract : Fields
  dictionary : List Fields

def callsOf (transcripts : List Fields) (method : String) : List Fields :=
  transcripts.filter fun item => isLiteral (prop item "method") method

def inventory (transcripts : List Fields) : Checked Calls :=
  let invalid := "v3 readback transcript method inventory is invalid"
  match callsOf transcripts "chain_get_block", callsOf transcripts "query_global_state" with
  | [block], [contract] => do
    let dictionary := callsOf transcripts "state_get_dictionary_item"
    require (dictionary.length == 15) invalid
    return ⟨block, contract, dictionary⟩
  | _, _ => .error invalid

def readBlock (call : Fields) : Checked Block := do
  let response ← record (prop call "response") "v3 readback block response"
  let block ← unwrapBlock response
  let params ← record (prop call "params") "v3 readback block params"
  require (params.length == 1) "v3 readback block params are not exact"
  equalCanonical (prop params "block_identifier") (literal [("Hash", .string block.blockHash)])
    "v3 readback block identifier"
  return block

def contractKey (contractHash : JsString) : Value := .string (js "hash-" ++ contractHash)

def checkContract (identity : Identity) (block : Block) (call : Fields) : Checked Unit := do
  equalCanonical (prop call "params") (literal
    [("state_identifier", literal [("StateRootHash", .string block.stateRootHash)]),
      ("key", contractKey identity.contractHash), ("path", .array [])])
    "v3 readback contract query"
  let packageHash ← packageHashFromContract call
  require (packageHash == identity.packageHash)
    "v3 readback exact contract does not belong to expected package"

/-- The key that a dictionary call asks for. -/
def itemKey (contractHash stateRootHash : JsString) (item : Fields) : Checked Value := do
  let params ← record (prop item "params") "v3 readback dictionary params"
  exactOwnKeys params ["state_root_hash", "dictionary_identifier"] "v3 readback dictionary params"
  require (strictEq (prop params "state_root_hash") (.string stateRootHash))
    "v3 readback dictionary query uses another state root"
  let identifier ← record (prop params "dictionary_identifier") "v3 readback dictionary identity"
  exactOwnKeys identifier ["ContractNamedKey"] "v3 readback dictionary identity"
  let namedKey ← record (prop identifier "ContractNamedKey") "v3 readback ContractNamedKey"
  exactOwnKeys namedKey ["key", "dictionary_name", "dictionary_item_key"]
    "v3 readback ContractNamedKey"
  require (strictEq (prop namedKey "key") (contractKey contractHash) &&
      isLiteral (prop namedKey "dictionary_name") "state")
    "v3 readback dictionary query uses another contract"
  return prop namedKey "dictionary_item_key"

/-- The loop over the dictionary calls; `byKey` is the map so far. -/
def indexCalls (contractHash stateRootHash : JsString) :
    List Fields → List (JsString × Fields) → Checked (List (JsString × Fields))
  | [], byKey => .ok byKey
  | item :: rest, byKey => do
    let invalid := "v3 readback dictionary key is invalid or duplicated"
    match ← itemKey contractHash stateRootHash item with
    | .string key =>
      require (isHexOf 64 key && (byKey.lookup key).isNone) invalid
      indexCalls contractHash stateRootHash rest (byKey ++ [(key, item)])
    | _ => .error invalid

/-- A cell of the contract: the index of its field, and the key of a mapping. -/
structure StateItem where
  name : String
  index : Nat
  mappingKey : List UInt8

def stateItems (proposalKey actionBytes : List UInt8) : List StateItem :=
  [⟨"owner", 1, []⟩, ⟨"schema_version", 2, []⟩, ⟨"deployment_domain", 3, []⟩,
    ⟨"casper_chain_name", 4, []⟩, ⟨"proposer", 5, []⟩, ⟨"finalizer", 6, []⟩, ⟨"signer_a", 7, []⟩,
    ⟨"signer_b", 8, []⟩, ⟨"signer_c", 9, []⟩, ⟨"threshold", 10, []⟩,
    ⟨"proposed_envelope", 12, proposalKey⟩, ⟨"approval_count", 13, proposalKey⟩,
    ⟨"finalized", 15, proposalKey⟩, ⟨"finalized_envelope", 16, proposalKey⟩,
    ⟨"action_authorized", 17, actionBytes⟩]

/-- `Buffer.from(proposalId, "ascii")` behind its length. -/
def proposalKeyOf (proposalId : JsString) : List UInt8 :=
  littleU32 proposalId.length ++ proposalId.map fun u => u.toNat.toUInt8

/-- The cells that a readback of an identity has to show. -/
def Identity.items (identity : Identity) : List StateItem :=
  stateItems (proposalKeyOf identity.proposalId) ((fromHex identity.actionId).getD [])

def readCell (byKey : List (JsString × Fields)) (item : StateItem) : Checked (String × List UInt8) :=
  match byKey.lookup (stateDictionaryKey rt item.index item.mappingKey) with
  | none => .error s!"v3 readback is missing exact state query {item.name}"
  | some call => do return (item.name, ← innerStateBytes call s!"v3 readback {item.name}")

/-- The cells, in the order of the items. -/
def readCells (byKey : List (JsString × Fields)) : List StateItem →
    Checked (List (String × List UInt8))
  | [] => return []
  | item :: rest => do return (← readCell rt byKey item) :: (← readCells byKey rest)

end Calls

section Artifact
variable (rt : Runtime)

/-- What the calls of an artifact show. -/
structure Reading where
  identity : Identity
  block : Block
  observed : List (String × List UInt8)

def Reading.cell (reading : Reading) (name : String) : List UInt8 :=
  (reading.observed.lookup name).getD []

structure ReadbackFacts where
  identity : Identity
  block : Block
  owner : JsString
  schemaVersion : Nat
  deploymentDomain : JsString
  casperChainName : JsString
  proposer : JsString
  finalizer : JsString
  signers : List JsString
  threshold : Nat
  proposedEnvelope : JsString
  approvalCount : Nat
  finalized : Bool
  finalizedEnvelope : JsString
  actionAuthorized : Bool

structure V3ReadbackFacts extends ReadbackFacts where
  artifactSha256 : JsString

/-- `schemaVersion !== 3 || ..`, the other way round. -/
def ReadbackFacts.governed (facts : ReadbackFacts) : Bool :=
  let roles := facts.proposer :: facts.finalizer :: facts.signers
  facts.schemaVersion == 3 && facts.casperChainName == js "casper-test" &&
    facts.owner != zeroHash && roles.all (· != zeroHash) && decide roles.Nodup &&
    (facts.threshold == 2 || facts.threshold == 3)

/-- `!finalized || ..`, the other way round. -/
def ReadbackFacts.authorized (facts : ReadbackFacts) : Bool :=
  facts.finalized && facts.actionAuthorized && facts.threshold ≤ facts.approvalCount &&
    facts.proposedEnvelope == facts.finalizedEnvelope

def decodeFacts (reading : Reading) : Checked ReadbackFacts := do
  let owner ← bytes32Value (reading.cell "owner") "v3 readback owner"
  let schemaVersion ← u32 (reading.cell "schema_version") "v3 readback schema_version"
  let deploymentDomain ←
    bytes32Value (reading.cell "deployment_domain") "v3 readback deployment_domain"
  let casperChainName ←
    stringValue rt (reading.cell "casper_chain_name") "v3 readback casper_chain_name"
  let proposer ← bytes32Value (reading.cell "proposer") "v3 readback proposer"
  let finalizer ← bytes32Value (reading.cell "finalizer") "v3 readback finalizer"
  let signerA ← bytes32Value (reading.cell "signer_a") "v3 readback signer_a"
  let signerB ← bytes32Value (reading.cell "signer_b") "v3 readback signer_b"
  let signerC ← bytes32Value (reading.cell "signer_c") "v3 readback signer_c"
  let threshold ← u8Value (reading.cell "threshold") "v3 readback threshold"
  let proposedEnvelope ←
    bytes32Value (reading.cell "proposed_envelope") "v3 readback proposed envelope"
  let approvalCount ← u8Value (reading.cell "approval_count") "v3 readback approval count"
  let finalized ← boolValue (reading.cell "finalized") "v3 readback finalized"
  let finalizedEnvelope ←
    bytes32Value (reading.cell "finalized_envelope") "v3 readback finalized envelope"
  let actionAuthorized ←
    boolValue (reading.cell "action_authorized") "v3 readback action authorized"
  return {
    identity := reading.identity, block := reading.block, owner, schemaVersion, deploymentDomain,
    casperChainName, proposer, finalizer, signers := [signerA, signerB, signerC], threshold,
    proposedEnvelope, approvalCount, finalized, finalizedEnvelope, actionAuthorized }

def readFacts (reading : Reading) : Checked ReadbackFacts := do
  let facts ← decodeFacts rt reading
  require facts.governed "v3 readback governance schema, roles, network or threshold is invalid"
  require facts.authorized "v3 readback does not prove exact finalized authorization"
  return facts

def rawFacts (facts : ReadbackFacts) : Value :=
  literal [("schema_id", .string (js schemaId)), ("network", .string (js "casper-test")),
    ("package_hash", .string facts.identity.packageHash),
    ("contract_hash", .string facts.identity.contractHash), ("owner", .string facts.owner),
    ("schema_version", .number facts.schemaVersion),
    ("deployment_domain", .string facts.deploymentDomain),
    ("casper_chain_name", .string facts.casperChainName), ("proposer", .string facts.proposer),
    ("finalizer", .string facts.finalizer), ("signers", .array (facts.signers.map Value.string)),
    ("threshold", .number facts.threshold), ("proposal_id", .string facts.identity.proposalId),
    ("proposed_envelope", .string facts.proposedEnvelope),
    ("approval_count", .number facts.approvalCount), ("finalized", .boolean facts.finalized),
    ("finalized_envelope", .string facts.finalizedEnvelope),
    ("action_id", .string facts.identity.actionId),
    ("action_authorized", .boolean facts.actionAuthorized),
    ("observed_block_hash", .string facts.block.blockHash),
    ("observed_block_height", .number facts.block.blockHeight),
    ("observed_state_root_hash", .string facts.block.stateRootHash)]

structure Opened where
  artifact : Fields
  identity : Identity
  artifactSha256 : JsString

def openArtifact (input : Value) : Checked Opened := do
  let artifact ← record input "v3 readback artifact"
  exactOwnKeys artifact ["schema_id", "network", "expected", "transcripts", "facts", "artifact_sha256"]
    "v3 readback artifact"
  require (isLiteral (prop artifact "schema_id") schemaId &&
      isLiteral (prop artifact "network") "casper-test")
    "v3 readback schema/network is unsupported"
  let expected ← record (prop artifact "expected") "v3 readback expected identity"
  exactOwnKeys expected ["package_hash", "contract_hash", "proposal_id", "action_id"]
    "v3 readback expected identity"
  let packageHash ← hash32 (prop expected "package_hash") "v3 readback expected package hash" true
  let contractHash ← hash32 (prop expected "contract_hash") "v3 readback expected contract hash" true
  let proposalId ← asciiProposal (prop expected "proposal_id")
  let actionId ← hash32 (prop expected "action_id") "v3 readback expected action id" true
  let suppliedArtifactHash ←
    hash32 (prop artifact "artifact_sha256") "v3 readback artifact SHA-256" false
  let artifactWithoutHash := artifact.filter fun entry => entry.1 != js "artifact_sha256"
  let recomputedArtifactHash ←
    sha256Canonical rt (.object artifactWithoutHash) "v3 readback artifact"
  require (secureEqualHex suppliedArtifactHash recomputedArtifactHash)
    "v3 readback artifact checksum mismatch"
  return ⟨artifact, ⟨packageHash, contractHash, proposalId, actionId⟩, suppliedArtifactHash⟩

def readTranscripts (value : Value) : Checked (List Fields) :=
  match value with
  | .array elements => do
    require (elements.length == 17) "v3 readback requires exactly seventeen transcripts"
    elements.mapM (transcript rt)
  | _ => .error "v3 readback requires exactly seventeen transcripts"

/-- The block, and the dictionary calls by their keys. -/
def readCalls (opened : Opened) : Checked (Block × List (JsString × Fields)) := do
  let transcripts ← readTranscripts rt (prop opened.artifact "transcripts")
  let calls ← inventory transcripts
  let block ← readBlock calls.block
  checkContract opened.identity block calls.contract
  let byKey ← indexCalls opened.identity.contractHash block.stateRootHash calls.dictionary []
  return (block, byKey)

def verifyV3ReadbackArtifact (input : Value) : Checked V3ReadbackFacts := do
  let opened ← openArtifact rt input
  let (block, byKey) ← readCalls rt opened
  let observed ← readCells rt byKey opened.identity.items
  require (byKey.length == observed.length) "v3 readback contains an unexpected state query"
  let facts ← readFacts rt ⟨opened.identity, block, observed⟩
  let persistedFacts ← record (prop opened.artifact "facts") "v3 readback persisted facts"
  exactOwnKeys persistedFacts readbackFactFields "v3 readback persisted facts"
  equalCanonical (.object persistedFacts) (rawFacts facts) "v3 readback persisted facts"
  return { facts with artifactSha256 := opened.artifactSha256 }

end Artifact
end Concordia.Verify.Readback
