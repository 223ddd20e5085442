import Concordia.Verify.Rpc

/-! Account balances at a block: the balance that a node reports with its holds, and the absence of
an account that two nodes report. -/
namespace Concordia.Verify.CasperState
open Concordia.Js Concordia.Verify.NativeDeploy Concordia.Verify.Rpc
open Concordia.Verify.NativeFinality hiding record unwrapResult height
open Concordia.Verify.Transcript

/-- A parsed `URL`. -/
structure Url where
  href : JsString
  protocol : JsString
  username : JsString
  password : JsString
  hostname : JsString
  port : JsString
  pathname : JsString
  search : JsString
  hash : JsString
  origin : JsString

/-- `new URL`, and the digest of a transcript in hexadecimal. -/
structure Runtime where
  native : NativeDeploy.Runtime
  parseUrl : JsString → Option Url
  sha256CanonicalTranscript : JsString → JsString

structure CasperAccountBalanceInput where
  chainStatusRequest : Value
  chainStatusPayload : Value
  canonicalBlockRequest : Value
  canonicalBlockPayload : Value
  balanceRequest : Value
  balanceResponse : Value
  expectedAccountHash : Value
  expectedBlockHash : Value
  expectedBlockHeight : Value
  expectedStateRootHash : Value
  /-- Checked where the field is there. -/
  expectedBalanceMotes : Option Value

structure Hold where
  time : JsString
  amount : JsString
  proof : JsString
  deriving DecidableEq

structure TranscriptSha256 where
  statusRequest : JsString
  status : JsString
  blockRequest : JsString
  block : JsString
  balanceRequest : JsString
  balanceResponse : JsString
  deriving DecidableEq

structure AccountBalanceFacts where
  accountExists : Bool
  accountHash : JsString
  blockHash : JsString
  blockHeight : Nat
  stateRootHash : JsString
  balanceMotes : JsString
  availableBalanceMotes : JsString
  balanceHoldsTotalMotes : JsString
  balanceHolds : List Hold
  nodeProvidedMerkleProofHex : JsString
  merkleProofVerificationScope : String
  balanceRequestId : Value
  transcriptSha256 : TranscriptSha256

def dialect : Dialect where
  notExact label := s!"{label} must contain exactly frozen fields"
  paramsDiffer label := s!"{label} request params do not match exactly"
  bigintIds := false

section Urls

def isLowerAlnum (u : UInt16) : Bool := (0x61 ≤ u && u ≤ 0x7a) || isDigit u

/-- `/^[a-z0-9](?:[a-z0-9-]{0,61}[a-z0-9])?$/`. -/
def isDnsLabel (label : JsString) : Bool :=
  !label.isEmpty && label.length ≤ 63 && label.all (fun u => isLowerAlnum u || u == 0x2d) &&
    label.head?.all isLowerAlnum && label.getLast?.all isLowerAlnum

/-- `/^(?:[0-9]{1,3}\.){3}[0-9]{1,3}$/`. -/
def isDottedQuad (hostname : JsString) : Bool :=
  let labels := hostname.splitOn 0x2e
  labels.length == 4 &&
    labels.all fun label => !label.isEmpty && label.length ≤ 3 && label.all isDigit

def endsWith (text : JsString) (suffix : String) : Bool := (js suffix).isSuffixOf text

def publicNodeUrl (rt : Runtime) (value : Value) : Except String (JsString × JsString) :=
  let malformed := "account absence node URL must be canonical public HTTPS"
  match value with
  | .string url =>
    if url.isEmpty then .error malformed
    else match rt.parseUrl url with
      | none => .error malformed
      | some parsed =>
        let hostname := parsed.hostname.map lowerUnit
        let labels := hostname.splitOn 0x2e
        let canonicalDnsName := 2 ≤ labels.length && labels.all isDnsLabel &&
          (labels.getLast?.getD []).any fun u => 0x61 ≤ u && u ≤ 0x7a
        if parsed.protocol == js "https:" && parsed.username.isEmpty && parsed.password.isEmpty &&
            parsed.pathname == js "/rpc" && parsed.search.isEmpty && parsed.hash.isEmpty &&
            parsed.port.isEmpty && canonicalDnsName && hostname != js "localhost" &&
            !endsWith hostname ".localhost" && !endsWith hostname ".local" &&
            !isDottedQuad hostname && parsed.href == url then
          .ok (url, parsed.origin)
        else .error malformed
  | _ => .error malformed

end Urls

section Payloads

def unwrapResult (payload : Value) (label : String) : Except String Fields := do
  let body ← record payload s!"{label} payload"
  require (isNullish (prop body "error")) s!"{label} payload contains error"
  require (isLiteral (prop body "jsonrpc") "2.0") s!"{label} payload must use JSON-RPC 2.0"
  let result ← record (prop body "result") s!"{label} result"
  require (!result.isEmpty) s!"{label} result is malformed"
  if hasOwn result "name" || hasOwn result "value" then
    exactOwnKeys dialect result ["name", "value"] s!"{label} result"
    let _ ← (match prop result "name" with
      | .string _ => .ok ()
      | _ => .error s!"{label} result is malformed" : Except String Unit)
    let value ← record (prop result "value") s!"{label} result"
    require (!value.isEmpty) s!"{label} result is malformed"
    return value
  else return result

def requireResponseId (payload expected : Value) (label : String) : Except String Unit := do
  let body ← record payload s!"{label} payload"
  require (strictEq (prop body "id") expected) s!"{label} response id does not match request id"

def parseNetwork (payload : Value) : Except String Unit := do
  let value ← unwrapResult payload "status"
  provesNetwork value "status must prove chain casper-test"

structure Block where
  blockHash : JsString
  blockHeight : Nat
  stateRootHash : JsString
  deriving DecidableEq

/-- The block under its version, or the legacy form. -/
def versioned (raw : Fields) (message : String) : Except String Fields :=
  match present raw ["Version1", "Version2"] with
  | [] => .ok raw
  | [version] => do
    require ((keys raw).length == 1) message
    record (prop raw version) "canonical block result"
  | _ => .error message

def parseBlock (payload : Value) : Except String Block := do
  let value ← unwrapResult payload "canonical block"
  require (hasOwn value "block_with_signatures" != hasOwn value "block")
    "canonical block result is malformed"
  let raw ← (if hasOwn value "block_with_signatures" then do
      let wrapper ← record (prop value "block_with_signatures") "canonical block wrapper"
      record (prop wrapper "block") "canonical block result"
    else record (prop value "block") "canonical block result" : Except String Fields)
  let block ← versioned raw "canonical block result is malformed"
  let blockHash ← lowerHash (prop block "hash") "canonical block hash"
  let header ← record (prop block "header") "canonical block header"
  let root ← onlyName header ["state_root_hash", "stateRootHash"]
    "canonical state root is ambiguous or missing"
  let stateRootHash ← lowerHash (prop header root) "canonical state root"
  let _ ← record (prop block "body") "canonical block body"
  let blockHeight ← safeHeight (prop header "height") "canonical block height"
  return ⟨blockHash, blockHeight, stateRootHash⟩

/-- The two identifiers have one canonical text. -/
def sameTranscript (actual expected : Value) (label expectedLabel message : String) :
    Except String Unit := do
  let actual ← canonicalTranscriptJson actual label
  let expected ← canonicalTranscriptJson expected expectedLabel
  require (actual == expected) message

/-- The identifier of the request; its method is `query_balance_details`. -/
def parseBalanceRequest (raw : Value) (accountHash stateRootHash : JsString) :
    Except String Value := do
  let request ← record raw "balance request"
  exactOwnKeys dialect request ["jsonrpc", "id", "method", "params"] "balance request"
  require (isLiteral (prop request "jsonrpc") "2.0" &&
    isLiteral (prop request "method") "query_balance_details")
    "balance request must call query_balance_details"
  let params ← record (prop request "params") "balance request params"
  exactOwnKeys dialect params ["state_identifier", "purse_identifier"] "balance request params"
  let state ← record (prop params "state_identifier") "balance state identifier"
  sameTranscript (.object state) (literal [("StateRootHash", .string stateRootHash)])
    "balance state identifier" "expected state identifier"
    "balance request state root does not match block"
  let purse ← record (prop params "purse_identifier") "balance purse identifier"
  sameTranscript (.object purse)
    (literal [("main_purse_under_account_hash", .string (js "account-hash-" ++ accountHash))])
    "balance purse identifier" "expected purse identifier"
    "balance request account hash does not match"
  requestId dialect (prop request "id") "balance"

def canonicalDecimal (value : Value) (label : String) : Except String Nat :=
  match value with
  | .string s =>
    if isCanonicalDecimal s then unsigned value 512
    else .error s!"{label} must be canonical non-negative U512 decimal"
  | _ => .error s!"{label} must be canonical non-negative U512 decimal"

def canonicalProof (value : Value) (label : String) : Except String JsString :=
  match value with
  | .string s =>
    if !s.isEmpty && (fromHex s).isSome then .ok s
    else .error s!"{label} must be nonempty canonical lowercase hex"
  | _ => .error s!"{label} must be nonempty canonical lowercase hex"

/-- The holds from one index on, behind holds of `total` together. -/
def parseHolds (index total : Nat) : List Value → Except String (Nat × List Hold)
  | [] => .ok (total, [])
  | raw :: rest => do
    let hold ← record raw s!"balance hold {index}"
    exactOwnKeys dialect hold ["time", "amount", "proof"] s!"balance hold {index}"
    let time ← unsigned (prop hold "time") 64
    let amount ← canonicalDecimal (prop hold "amount") "balance hold amount"
    let proof ← canonicalProof (prop hold "proof") "balance hold proof"
    require (total + amount < 2 ^ 512) "balance hold total exceeds U512"
    let (sum, holds) ← parseHolds (index + 1) (total + amount) rest
    return (sum, ⟨decimal time, decimal amount, proof⟩ :: holds)

structure BalanceDetails where
  balanceMotes : JsString
  availableBalanceMotes : JsString
  balanceHoldsTotalMotes : JsString
  balanceHolds : List Hold
  nodeProvidedMerkleProofHex : JsString
  deriving DecidableEq

def balanceDetailsFields : List String :=
  ["api_version", "total_balance", "available_balance", "total_balance_proof", "holds"]

def parseBalanceResponse (payload expectedId : Value) : Except String BalanceDetails := do
  requireResponseId payload expectedId "balance"
  let body ← record payload "balance response payload"
  let result ← record (prop body "result") "balance response result"
  exactOwnKeys dialect result ["name", "value"] "balance response result"
  require (isLiteral (prop result "name") "query_balance_details_result")
    "balance response result name must be query_balance_details_result"
  let value ← record (prop result "value") "balance response value"
  exactOwnKeys dialect value balanceDetailsFields "balance details result"
  let _ ← (match prop value "api_version" with
    | .string s => require (!s.isEmpty) "balance details api_version is malformed"
    | _ => .error "balance details api_version is malformed" : Except String Unit)
  let balance ← canonicalDecimal (prop value "total_balance") "total balance"
  let available ← canonicalDecimal (prop value "available_balance") "available balance"
  let rawHolds ← (match prop value "holds" with
    | .array elements => .ok elements
    | _ => .error "balance holds must be an array" : Except String (List Value))
  let (holdsTotal, balanceHolds) ← parseHolds 0 0 rawHolds
  require (holdsTotal ≤ balance && balance - holdsTotal == available)
    "available balance does not match total balance and hold arithmetic"
  let proof ← canonicalProof (prop value "total_balance_proof") "total balance Merkle proof"
  return {
    balanceMotes := decimal balance
    availableBalanceMotes := decimal available
    balanceHoldsTotalMotes := decimal holdsTotal
    balanceHolds
    nodeProvidedMerkleProofHex := proof }

def parseAbsenceResponse (payload expectedId : Value) : Except String Unit := do
  let body ← record payload "account absence response"
  exactOwnKeys dialect body ["jsonrpc", "id", "error"] "account absence response"
  require (isLiteral (prop body "jsonrpc") "2.0" && strictEq (prop body "id") expectedId)
    "account absence response identity does not match request"
  let error ← record (prop body "error") "account absence error"
  exactOwnKeys dialect error ["code", "message", "data"] "account absence error"
  require (strictEq (prop error "code") (.number (-32026)) &&
    (match prop error "message" with
      | .string s => !s.isEmpty
      | _ => false))
    "account absence response has wrong RPC error code"
  let _ ← canonicalTranscriptJson (prop error "data") "account absence error data"
  return ()

end Payloads

section Verification
variable (rt : Runtime)

/-- The digest of a transcript's canonical text. -/
def transcriptDigest (value : Value) (label : String) : Except String JsString :=
  rt.sha256CanonicalTranscript <$> canonicalTranscriptJson value label

/-- The six texts come first, and then their digests. -/
def transcriptDigests (input : CasperAccountBalanceInput) (balanceResponse : Value)
    (responseLabel : String) : Except String TranscriptSha256 := do
  let statusRequest ← transcriptDigest rt input.chainStatusRequest "status request"
  let status ← transcriptDigest rt input.chainStatusPayload "status payload"
  let blockRequest ← transcriptDigest rt input.canonicalBlockRequest "canonical block request"
  let block ← transcriptDigest rt input.canonicalBlockPayload "block payload"
  let balanceRequest ← transcriptDigest rt input.balanceRequest "balance request"
  let balanceResponse ← transcriptDigest rt balanceResponse responseLabel
  return ⟨statusRequest, status, blockRequest, block, balanceRequest, balanceResponse⟩

def verifyAccountBalanceAtBlock (input : CasperAccountBalanceInput) :
    Except String AccountBalanceFacts := do
  let accountHash ← lowerHash input.expectedAccountHash "expected account hash"
  let expectedBlockHash ← lowerHash input.expectedBlockHash "expected block hash"
  let expectedStateRootHash ← lowerHash input.expectedStateRootHash "expected state root hash"
  let expectedBlockHeight ← safeHeight input.expectedBlockHeight "expected block height"
  let statusId ← exactRequest dialect input.chainStatusRequest "info_get_status" (literal []) "status"
  requireResponseId input.chainStatusPayload statusId "status"
  parseNetwork input.chainStatusPayload
  let blockId ← exactRequest dialect input.canonicalBlockRequest "chain_get_block"
    (blockByHash expectedBlockHash) "canonical block"
  requireResponseId input.canonicalBlockPayload blockId "canonical block"
  let block ← parseBlock input.canonicalBlockPayload
  require (block.blockHash == expectedBlockHash)
    "canonical block hash does not match expected block hash"
  require (block.blockHeight == expectedBlockHeight)
    "canonical block height does not match expected block height"
  require (block.stateRootHash == expectedStateRootHash)
    "canonical state root does not match expected state root"
  let balanceRequestId ← parseBalanceRequest input.balanceRequest accountHash block.stateRootHash
  let balance ← parseBalanceResponse input.balanceResponse balanceRequestId
  let _ ← (match input.expectedBalanceMotes with
    | some value => do
      let expected ← unsigned value 512
      require (balance.balanceMotes == decimal expected)
        "observed balance does not match expected balance"
    | none => .ok () : Except String Unit)
  let transcriptSha256 ← transcriptDigests rt input input.balanceResponse "balance response"
  return {
    accountExists := true
    accountHash
    blockHash := block.blockHash
    blockHeight := block.blockHeight
    stateRootHash := block.stateRootHash
    balanceMotes := balance.balanceMotes
    availableBalanceMotes := balance.availableBalanceMotes
    balanceHoldsTotalMotes := balance.balanceHoldsTotalMotes
    balanceHolds := balance.balanceHolds
    nodeProvidedMerkleProofHex := balance.nodeProvidedMerkleProofHex
    merkleProofVerificationScope := "node-provided-not-locally-verified"
    balanceRequestId, transcriptSha256 }

def absenceFields : List String :=
  ["node_url", "status_request", "status_response", "block_request", "block_response",
    "balance_request", "balance_response"]

/-- What the absence of the account is checked against. -/
structure AbsenceExpectation where
  accountHash : JsString
  block : Block

/-- One node's observation, with its fields in the order of the adapter. -/
def absenceObservation (expected : AbsenceExpectation) (raw : Value) (index : Nat)
    (origins : List JsString) : Except String (JsString × Fields) := do
  let observation ← record raw s!"account absence observation {index}"
  exactOwnKeys dialect observation absenceFields s!"account absence observation {index}"
  let (_, origin) ← publicNodeUrl rt (prop observation "node_url")
  require (!origins.contains origin) "account absence nodes must be distinct"
  let statusId ← exactRequest dialect (prop observation "status_request") "info_get_status"
    (literal []) "account absence status"
  requireResponseId (prop observation "status_response") statusId "account absence status"
  parseNetwork (prop observation "status_response")
  let blockId ← exactRequest dialect (prop observation "block_request") "chain_get_block"
    (blockByHash expected.block.blockHash) "account absence block"
  requireResponseId (prop observation "block_response") blockId "account absence block"
  let block ← parseBlock (prop observation "block_response")
  require (block == expected.block) "account absence observation does not bind the expected block"
  let requestId ← parseBalanceRequest (prop observation "balance_request") expected.accountHash
    expected.block.stateRootHash
  parseAbsenceResponse (prop observation "balance_response") requestId
  return (origin, absenceFields.map fun name => (js name, prop observation name))

/-- `primary` is the caller's own transcript, which has to be the first node's. -/
def matchesPrimary (actual expected : Value) (label : String) : Except String Unit :=
  sameTranscript actual expected s!"primary {label}" s!"observation {label}"
    s!"account absence primary {label} does not match first observation"

def verifyAccountAbsenceAtBlock (input : CasperAccountBalanceInput)
    (absenceObservations : List Value) : Except String AccountBalanceFacts := do
  let accountHash ← lowerHash input.expectedAccountHash "expected account hash"
  let blockHash ← lowerHash input.expectedBlockHash "expected block hash"
  let stateRootHash ← lowerHash input.expectedStateRootHash "expected state root hash"
  let blockHeight ← safeHeight input.expectedBlockHeight "expected block height"
  let expected : AbsenceExpectation := ⟨accountHash, blockHash, blockHeight, stateRootHash⟩
  match absenceObservations with
  | [first, second] =>
    let (origin, primary) ← absenceObservation rt expected first 0 []
    let (_, secondary) ← absenceObservation rt expected second 1 [origin]
    matchesPrimary input.chainStatusRequest (prop primary "status_request") "status request"
    matchesPrimary input.chainStatusPayload (prop primary "status_response") "status response"
    matchesPrimary input.canonicalBlockRequest (prop primary "block_request") "block request"
    matchesPrimary input.canonicalBlockPayload (prop primary "block_response") "block response"
    matchesPrimary input.balanceRequest (prop primary "balance_request") "balance request"
    let balanceRequestId ← parseBalanceRequest input.balanceRequest accountHash stateRootHash
    let transcriptSha256 ← transcriptDigests rt input
      (literal [("schema_id", .string (js "concordia.account-absence-observations.v1")),
        ("node_observations", .array [.object primary, .object secondary])])
      "account absence observations"
    return {
      accountExists := false
      accountHash, blockHash, blockHeight, stateRootHash
      balanceMotes := decimal 0
      availableBalanceMotes := decimal 0
      balanceHoldsTotalMotes := decimal 0
      balanceHolds := []
      nodeProvidedMerkleProofHex := []
      merkleProofVerificationScope := "two-public-nodes-prove-account-absent"
      balanceRequestId, transcriptSha256 }
  | _ => .error "account absence requires exactly two node observations"

end Verification

/-! What an accepted balance says. -/
section Acceptance
variable {rt : Runtime} {input : CasperAccountBalanceInput} {facts : AccountBalanceFacts}

/-- A U512 in decimal. -/
def Motes (value : Value) (n : Nat) : Prop :=
  ∃ s, value = .string s ∧ isCanonicalDecimal s = true ∧ digitsValue s = n ∧ n < 2 ^ 512

def HoldOf (raw : Value) (amount : Nat) : Prop :=
  ∃ fields, raw = .object fields ∧ Motes (prop fields "amount") amount

/-- The total, the available balance and the holds of a balance response. -/
def Reports (payload : Value) (total available : Nat) (holds : List Nat) : Prop :=
  ∃ body result value rawHolds, payload = .object body ∧ prop body "result" = .object result ∧
    prop result "value" = .object value ∧ Motes (prop value "total_balance") total ∧
    Motes (prop value "available_balance") available ∧ prop value "holds" = .array rawHolds ∧
    List.Forall₂ HoldOf rawHolds holds

theorem parseUnsigned_string {s : JsString} {bits n : Nat}
    (h : parseUnsigned (.string s) bits = .ok n) : digitsValue s = n ∧ n < 2 ^ bits := by
  unfold parseUnsigned at h
  by_cases hdecimal : isCanonicalDecimal s = true
  · simp only [hdecimal, if_true, bind, Except.bind] at h
    split at h
    · cases h
    · next hrange =>
      obtain rfl := Except.ok.inj h
      refine ⟨rfl, ?_⟩
      have hlt : ¬ (Int.ofNat (digitsValue s)) ≥ 2 ^ bits := fun hge => hrange (Or.inr hge)
      have hlt : ((digitsValue s : Nat) : Int) < ((2 ^ bits : Nat) : Int) := by
        rw [Nat.cast_pow]
        exact not_le.mp hlt
      exact Int.ofNat_lt.mp hlt
  · simp only [hdecimal] at h
    cases h

theorem canonicalDecimal_ok {value : Value} {label : String} {n : Nat}
    (h : canonicalDecimal value label = .ok n) : Motes value n := by
  cases value with
  | string s =>
    simp only [canonicalDecimal] at h
    split at h
    · next hdecimal =>
      obtain ⟨hvalue, hbound⟩ := parseUnsigned_string (unsigned_ok h)
      exact ⟨s, rfl, hdecimal, hvalue, hbound⟩
    · cases h
  | _ => cases h

/-- The running total of the holds never leaves U512. -/
theorem parseHolds_ok {index total sum : Nat} {raws : List Value} {holds : List Hold}
    (htotal : total < 2 ^ 512) (h : parseHolds index total raws = .ok (sum, holds)) :
    ∃ amounts, List.Forall₂ HoldOf raws amounts ∧ sum = total + amounts.sum ∧ sum < 2 ^ 512 := by
  induction raws generalizing index total holds with
  | nil =>
    obtain ⟨rfl, rfl⟩ := Prod.mk.inj (Except.ok.inj h)
    exact ⟨[], .nil, rfl, htotal⟩
  | cons raw rest ih =>
    obtain ⟨hold, hhold, h⟩ := bind_ok h
    obtain ⟨-, -, h⟩ := bind_ok h
    obtain ⟨time, -, h⟩ := bind_ok h
    obtain ⟨amount, hamount, h⟩ := bind_ok h
    obtain ⟨proof, -, h⟩ := bind_ok h
    obtain ⟨hbound, h⟩ := require_ok h
    obtain ⟨⟨sum', holds'⟩, hrest, h⟩ := bind_ok h
    obtain ⟨rfl, -⟩ := Prod.mk.inj (Except.ok.inj h)
    obtain ⟨amounts, hamounts, hsum, hlt⟩ := ih (of_decide_eq_true hbound) hrest
    refine ⟨amount :: amounts, .cons ⟨hold, record_ok hhold, canonicalDecimal_ok hamount⟩ hamounts,
      ?_, hlt⟩
    rw [hsum, List.sum_cons, Nat.add_assoc]

/-- An accepted response reports a total of what is available and what is held. -/
theorem parseBalanceResponse_ok {payload expectedId : Value} {details : BalanceDetails}
    (h : parseBalanceResponse payload expectedId = .ok details) :
    ∃ total available holds, Reports payload total available holds ∧
      available + holds.sum = total ∧ holds.sum < 2 ^ 512 ∧
      details.balanceMotes = decimal total ∧ details.availableBalanceMotes = decimal available ∧
      details.balanceHoldsTotalMotes = decimal holds.sum := by
  obtain ⟨-, -, h⟩ := bind_ok h
  obtain ⟨body, hbody, h⟩ := bind_ok h
  obtain ⟨result, hresult, h⟩ := bind_ok h
  obtain ⟨-, -, h⟩ := bind_ok h
  obtain ⟨-, h⟩ := require_ok h
  obtain ⟨value, hvalue, h⟩ := bind_ok h
  obtain ⟨-, -, h⟩ := bind_ok h
  obtain ⟨-, -, h⟩ := bind_ok h
  obtain ⟨balance, hbalance, h⟩ := bind_ok h
  obtain ⟨available, havailable, h⟩ := bind_ok h
  obtain ⟨rawHolds, hraw, h⟩ := bind_ok h
  obtain ⟨⟨holdsTotal, balanceHolds⟩, hholds, h⟩ := bind_ok h
  obtain ⟨harithmetic, h⟩ := require_ok h
  obtain ⟨proof, -, h⟩ := bind_ok h
  obtain rfl := Except.ok.inj h
  obtain ⟨amounts, hamounts, hsum, hlt⟩ := parseHolds_ok (Nat.two_pow_pos 512) hholds
  rw [Nat.zero_add] at hsum
  simp only [Bool.and_eq_true, decide_eq_true_eq, beq_iff_eq] at harithmetic
  have hrawHolds : prop value "holds" = .array rawHolds := by
    split at hraw
    · next elements helements => rw [helements, Except.ok.inj hraw]
    · cases hraw
  refine ⟨balance, available, amounts, ⟨body, result, value, rawHolds, record_ok hbody,
    record_ok hresult, record_ok hvalue, canonicalDecimal_ok hbalance,
    canonicalDecimal_ok havailable, hrawHolds, hamounts⟩, by omega, by omega, rfl, rfl, ?_⟩
  rw [← hsum]

/-- What the caller says of the account and of the block. -/
structure Expects (input : CasperAccountBalanceInput) (account : JsString) (block : Block) :
    Prop where
  account : input.expectedAccountHash = .string account
  blockHash : input.expectedBlockHash = .string block.blockHash
  blockHeight : safeHeight input.expectedBlockHeight "expected block height" = .ok block.blockHeight
  stateRootHash : input.expectedStateRootHash = .string block.stateRootHash

/-- The account has the balance at the block: in the block that was asked for, the response
reports it as what is available and what is held. -/
structure Shows (input : CasperAccountBalanceInput) (account : JsString) (block : Block)
    (balance : Nat) : Prop where
  expects : Expects input account block
  block : parseBlock input.canonicalBlockPayload = .ok block
  reports : ∃ available holds, Reports input.balanceResponse balance available holds ∧
    available + holds.sum = balance
  bounded : balance < 2 ^ 512

theorem verifyAccountBalanceAtBlock_ok (h : verifyAccountBalanceAtBlock rt input = .ok facts) :
    ∃ balance, Shows input facts.accountHash
      ⟨facts.blockHash, facts.blockHeight, facts.stateRootHash⟩ balance ∧
      facts.balanceMotes = decimal balance ∧ facts.accountExists = true := by
  obtain ⟨account, haccount, h⟩ := bind_ok h
  obtain ⟨blockHash, hblockHash, h⟩ := bind_ok h
  obtain ⟨root, hroot, h⟩ := bind_ok h
  obtain ⟨blockHeight, hheight, h⟩ := bind_ok h
  obtain ⟨statusId, -, h⟩ := bind_ok h
  obtain ⟨-, -, h⟩ := bind_ok h
  obtain ⟨-, -, h⟩ := bind_ok h
  obtain ⟨blockId, -, h⟩ := bind_ok h
  obtain ⟨-, -, h⟩ := bind_ok h
  obtain ⟨block, hblock, h⟩ := bind_ok h
  obtain ⟨hsameHash, h⟩ := require_ok h
  obtain ⟨hsameHeight, h⟩ := require_ok h
  obtain ⟨hsameRoot, h⟩ := require_ok h
  obtain ⟨requestId, -, h⟩ := bind_ok h
  obtain ⟨details, hdetails, h⟩ := bind_ok h
  obtain ⟨-, -, h⟩ := bind_ok h
  obtain ⟨digests, -, h⟩ := bind_ok h
  obtain rfl := Except.ok.inj h
  obtain ⟨total, available, holds, hreports, hsum, hholds, hbalance, -, -⟩ :=
    parseBalanceResponse_ok hdetails
  have hsameHash : block.blockHash = blockHash := eq_of_beq hsameHash
  have hsameHeight : block.blockHeight = blockHeight := eq_of_beq hsameHeight
  have hsameRoot : block.stateRootHash = root := eq_of_beq hsameRoot
  refine ⟨total, ⟨⟨lowerHash_ok haccount, ?_, ?_, ?_⟩, hblock, ⟨available, holds, hreports, hsum⟩,
    ?_⟩, hbalance, rfl⟩
  · rw [lowerHash_ok hblockHash, hsameHash]
  · rw [hheight, hsameHeight]
  · rw [lowerHash_ok hroot, hsameRoot]
  · obtain ⟨-, -, -, -, -, -, -, ⟨-, -, -, -, hbound⟩, -⟩ := hreports
    exact hbound

/-- Two nodes of different origins report that the account does not exist at the block. -/
structure ShowsAbsent (rt : Runtime) (input : CasperAccountBalanceInput)
    (observations : List Value) (account : JsString) (block : Block) : Prop where
  expects : Expects input account block
  nodes : ∃ first second origin other fields fields', observations = [first, second] ∧
    absenceObservation rt ⟨account, block⟩ first 0 [] = .ok (origin, fields) ∧
    absenceObservation rt ⟨account, block⟩ second 1 [origin] = .ok (other, fields')

theorem verifyAccountAbsenceAtBlock_ok {observations : List Value}
    (h : verifyAccountAbsenceAtBlock rt input observations = .ok facts) :
    ShowsAbsent rt input observations facts.accountHash
      ⟨facts.blockHash, facts.blockHeight, facts.stateRootHash⟩ ∧
      facts.balanceMotes = decimal 0 ∧ facts.accountExists = false := by
  obtain ⟨account, haccount, h⟩ := bind_ok h
  obtain ⟨blockHash, hblockHash, h⟩ := bind_ok h
  obtain ⟨root, hroot, h⟩ := bind_ok h
  obtain ⟨blockHeight, hheight, h⟩ := bind_ok h
  match observations, h with
  | [first, second], h =>
    obtain ⟨⟨origin, primary⟩, hfirst, h⟩ := bind_ok h
    obtain ⟨⟨other, secondary⟩, hsecond, h⟩ := bind_ok h
    obtain ⟨-, -, h⟩ := bind_ok h
    obtain ⟨-, -, h⟩ := bind_ok h
    obtain ⟨-, -, h⟩ := bind_ok h
    obtain ⟨-, -, h⟩ := bind_ok h
    obtain ⟨-, -, h⟩ := bind_ok h
    obtain ⟨requestId, -, h⟩ := bind_ok h
    obtain ⟨digests, -, h⟩ := bind_ok h
    obtain rfl := Except.ok.inj h
    exact ⟨⟨⟨lowerHash_ok haccount, lowerHash_ok hblockHash, hheight, lowerHash_ok hroot⟩,
      first, second, origin, other, primary, secondary, rfl, hfirst, hsecond⟩, rfl, rfl⟩
  | [], h => cases h
  | [_], h => cases h
  | _ :: _ :: _ :: _, h => cases h

end Acceptance
end Concordia.Verify.CasperState
