import Concordia.Verify.CasperState

/-! The scan for duplicate transfers: every block from the authorization on is looked at, and the
finalized transfer is the only one of its source with its id. -/
namespace Concordia.Verify.NativeTransferScan
open Concordia.Js Concordia.Verify.NativeDeploy
open Concordia.Verify.NativeFinality hiding record unwrapResult height
open Concordia.Verify.Rpc Concordia.Verify.Transcript

def maxScanBlocks : Nat := 2048

structure NativeTransferScanInput where
  chainStatusRequest : Value
  chainStatusResponse : Value
  blockObservations : List Value
  authorizationBlockHeight : Value
  finality : NativeFinalityInput

structure NoDuplicateNativeTransferFacts where
  network : String
  authorizationBlockHeight : Nat
  authorizationBlockHash : JsString
  inclusionBlockHeight : Nat
  observedThroughBlockHeight : Nat
  observedThroughBlockHash : JsString
  scannedBlockCount : Nat
  matchedTransferCount : Nat
  deployHash : JsString
  sourceAccountHash : JsString
  recipientAccountHash : JsString
  amountMotes : JsString
  transferId : JsString
  transcriptSha256 : JsString
  deriving DecidableEq

structure ParsedTransfer where
  deployHash : JsString
  sourceAccountHash : JsString
  recipientAccountHash : JsString
  amountMotes : Nat
  /-- `null` is no id. -/
  transferId : Option Nat
  deriving DecidableEq

def dialect : Dialect where
  notExact label := s!"{label} fields are not exact"
  paramsDiffer label := s!"{label} request params do not match"
  bigintIds := true

section Payloads

/-- The result of a response, and its id. -/
def unwrapResult (payload : Value) (label : String) : Except String (Fields × Value) := do
  let body ← record payload s!"{label} response"
  require (isLiteral (prop body "jsonrpc") "2.0") s!"{label} response is invalid"
  require (isNullish (prop body "error")) s!"{label} response is invalid"
  let id ← requestId dialect (prop body "id") label
  let result ← record (prop body "result") s!"{label} result"
  if hasOwn result "name" || hasOwn result "value" then
    exactOwnKeys dialect result ["name", "value"] s!"{label} result"
    let _ ← (match prop result "name" with
      | .string _ => .ok ()
      | _ => .error s!"{label} result is malformed" : Except String Unit)
    let value ← record (prop result "value") s!"{label} result"
    return (value, id)
  else return (result, id)

def requireResponseId (actual expected : Value) (label : String) : Except String Unit :=
  require (strictEq actual expected) s!"{label} response id does not match request id"

structure Tip where
  height : Nat
  hash : JsString

def parseStatus (request response : Value) : Except String Tip := do
  let expectedId ← exactRequest dialect request "info_get_status" (literal []) "status"
  let (result, id) ← unwrapResult response "status"
  requireResponseId id expectedId "status"
  provesNetwork result "status must prove chain casper-test"
  let tipName ← onlyName result ["last_added_block_info", "lastAddedBlockInfo"]
    "status observed tip is ambiguous or missing"
  let tip ← record (prop result tipName) "status observed tip"
  let hashName ← onlyName tip ["hash", "block_hash"]
    "status observed tip block hash is ambiguous or missing"
  let height ← safeHeight (prop tip "height") "status observed tip height"
  let hash ← lowerHash (prop tip hashName) "status observed tip block hash"
  return ⟨height, hash⟩

def versioned (raw : Fields) : Except String Fields :=
  match present raw ["Version1", "Version2"] with
  | [] => .ok raw
  | [version] => do
    require ((keys raw).length == 1) "canonical block is ambiguous"
    record (prop raw version) "canonical block"
  | _ => .error "canonical block is ambiguous"

structure BlockLink where
  blockHash : JsString
  parentHash : JsString
  deriving DecidableEq

/-- `{ block_identifier: { Height: height } }`. -/
def blockByHeight (height : Nat) : Value :=
  literal [("block_identifier", literal [("Height", .number height)])]

def parseBlock (request response : Value) (expectedHeight : Nat) : Except String BlockLink := do
  let label := s!"block {expectedHeight}"
  let expectedId ← exactRequest dialect request "chain_get_block" (blockByHeight expectedHeight) label
  let (result, id) ← unwrapResult response label
  requireResponseId id expectedId label
  require (hasOwn result "block_with_signatures" != hasOwn result "block")
    "canonical block is ambiguous"
  let raw ← (if hasOwn result "block_with_signatures" then do
      let wrapper ← record (prop result "block_with_signatures") "canonical block wrapper"
      record (prop wrapper "block") "canonical block"
    else record (prop result "block") "canonical block" : Except String Fields)
  let block ← versioned raw
  let blockHash ← lowerHash (prop block "hash") "canonical block hash"
  let header ← record (prop block "header") "canonical block header"
  let height ← safeHeight (prop header "height") "canonical block height"
  require (height == expectedHeight) "canonical block height does not match request"
  let parentName ← onlyName header ["parent_hash", "parentHash"]
    "canonical parent hash is ambiguous or missing"
  let parentHash ← lowerHash (prop header parentName) "canonical parent hash"
  let _ ← record (prop block "body") "canonical block body"
  return ⟨blockHash, parentHash⟩

def accountPrefix : JsString := js "account-hash-"

/-- The text under `/^account-hash-([0-9a-f]{64})$/`, or a bare hash. -/
def accountText (value : Value) (label : String) : Except String JsString :=
  match value with
  | .string s =>
    if accountPrefix.isPrefixOf s && isHexOf 64 (s.drop accountPrefix.length) then
      .ok (s.drop accountPrefix.length)
    else lowerHash value label
  | _ => .error s!"{label} must be an account hash"

def parseAccountHash (value : Value) (label : String) : Except String JsString :=
  match value with
  | .object fields => do
    exactOwnKeys dialect fields ["AccountHash"] label
    accountText (prop fields "AccountHash") label
  | _ => accountText value label

def parseTransactionHash (value : Value) (label : String) : Except String JsString :=
  match value with
  | .string _ => lowerHash value label
  | _ => do
    let wrapped ← record value label
    match present wrapped ["Deploy", "Version1"] with
    | [variant] =>
      require ((keys wrapped).length == 1) s!"{label} is malformed"
      lowerHash (prop wrapped variant) label
    | _ => .error s!"{label} is malformed"

/-- What is no integer of 64 bits is no id. -/
def parseTransferId (value : Value) : Option Nat :=
  match value with
  | .bigint n => if 0 ≤ n ∧ n < 2 ^ 64 then some n.toNat else none
  | .number x =>
    match safeInteger x with
    | some n => if 0 ≤ n then some n.toNat else none
    | none => none
  | _ => none

def parseAmount (value : Value) (label : String) : Except String Nat :=
  match value with
  | .string s =>
    if isCanonicalDecimal s then unsigned value 512
    else .error s!"{label} amount must be canonical decimal"
  | _ => .error s!"{label} amount must be canonical decimal"

/-- The field that names the transaction in a version. -/
def hashField (version : String) : String :=
  if version = "Version1" then "deploy_hash" else "transaction_hash"

def parseTransfer (raw : Value) (index : Nat) : Except String ParsedTransfer := do
  let label := s!"transfer {index}"
  let wrapper ← record raw label
  match present wrapper ["Version1", "Version2"] with
  | [version] => do
    require ((keys wrapper).length == 1) s!"{label} is ambiguous"
    let transfer ← record (prop wrapper version) label
    let amountMotes ← parseAmount (prop transfer "amount") label
    let deployHash ← parseTransactionHash (prop transfer (hashField version)) s!"{label} hash"
    let sourceAccountHash ← parseAccountHash (prop transfer "from") s!"{label} source"
    let recipientAccountHash ← parseAccountHash (prop transfer "to") s!"{label} recipient"
    return ⟨deployHash, sourceAccountHash, recipientAccountHash, amountMotes,
      parseTransferId (prop transfer "id")⟩
  | _ => .error s!"{label} is ambiguous"

/-- The transfers from one index on. -/
def parseTransferList (index : Nat) : List Value → Except String (List ParsedTransfer)
  | [] => return []
  | raw :: rest => do
    let transfer ← parseTransfer raw index
    let transfers ← parseTransferList (index + 1) rest
    return transfer :: transfers

def parseTransfers (request response : Value) (expectedBlockHash : JsString)
    (expectedHeight : Nat) : Except String (List ParsedTransfer) := do
  let label := s!"block transfers {expectedHeight}"
  let expectedId ← exactRequest dialect request "chain_get_block_transfers"
    (blockByHash expectedBlockHash) label
  let (result, id) ← unwrapResult response label
  requireResponseId id expectedId label
  let blockHash ← lowerHash (prop result "block_hash") "transfer response block hash"
  require (blockHash == expectedBlockHash) "transfer response block hash does not match block"
  match prop result "transfers" with
  | .array raws => parseTransferList 0 raws
  | _ => .error "block transfers must be a list"

end Payloads

section Scan
variable (finality : FinalizedNativeTransferFacts)

structure Relevant where
  height : Nat
  blockHash : JsString
  transfer : ParsedTransfer
  deriving DecidableEq

structure ScanState where
  relevant : List Relevant
  seenHashes : List JsString
  lastBlockHash : JsString
  authorizationBlockHash : JsString
  previousBlockHash : Option JsString

def ScanState.start : ScanState := ⟨[], [], [], [], none⟩

def observationFields : List String :=
  ["block_request", "block_response", "transfers_request", "transfers_response"]

/-- The transfer has the finalized source and id. -/
def isRelevant (transfer : ParsedTransfer) : Bool :=
  transfer.sourceAccountHash == finality.signedDeploy.sourceAccountHash &&
    transfer.transferId == some (digitsValue finality.signedDeploy.transferId)

def scanBlock (state : ScanState) (offset currentHeight : Nat) (raw : Value) :
    Except String ScanState := do
  let label := s!"block observation {currentHeight}"
  let observation ← record raw label
  exactOwnKeys dialect observation observationFields label
  let block ← parseBlock (prop observation "block_request") (prop observation "block_response")
    currentHeight
  require (!state.seenHashes.contains block.blockHash) "canonical block hash repeats within scan"
  require (state.previousBlockHash.all fun hash => block.parentHash == hash)
    "block scan parent chain is not contiguous"
  let transfers ← parseTransfers (prop observation "transfers_request")
    (prop observation "transfers_response") block.blockHash currentHeight
  return {
    relevant := state.relevant ++
      (transfers.filter (isRelevant finality)).map (⟨currentHeight, block.blockHash, ·⟩)
    seenHashes := state.seenHashes ++ [block.blockHash]
    lastBlockHash := block.blockHash
    authorizationBlockHash :=
      if offset = 0 then block.blockHash else state.authorizationBlockHash
    previousBlockHash := some block.blockHash }

/-- The blocks from one offset on. -/
def scanBlocks (start offset : Nat) : List Value → ScanState → Except String ScanState
  | [], state => return state
  | raw :: rest, state => do
    let state ← scanBlock finality state offset (start + offset) raw
    scanBlocks start (offset + 1) rest state

/-- The transfer that was found is the finalized one. -/
def equalsAction (found : Relevant) : Bool :=
  found.height == finality.blockHeight && found.blockHash == finality.blockHash &&
    found.transfer.deployHash == finality.deployHash &&
    found.transfer.recipientAccountHash == finality.signedDeploy.recipientAccountHash &&
    found.transfer.amountMotes == digitsValue finality.signedDeploy.amountMotes

end Scan

section Verification
variable (rt : CasperState.Runtime)

def verifyNoDuplicateNativeTransfer (input : NativeTransferScanInput) :
    Except String NoDuplicateNativeTransferFacts := do
  let finality ← verifyFinalizedNativeTransfer rt.native input.finality
  let start ← safeHeight input.authorizationBlockHeight "authorization block height"
  require (start ≤ finality.blockHeight)
    "authorization block height cannot follow transfer inclusion"
  let tip ← parseStatus input.chainStatusRequest input.chainStatusResponse
  require (finality.blockHeight ≤ tip.height) "observed tip precedes transfer inclusion"
  let expectedCount := tip.height - start + 1
  require (expectedCount ≤ maxScanBlocks) "block scan exceeds bounded range"
  require (input.blockObservations.length == expectedCount) "block scan is not contiguous"
  let state ← scanBlocks finality start 0 input.blockObservations .start
  require (state.lastBlockHash == tip.hash) "block scan does not end at observed tip"
  match state.relevant with
  | [found] => do
    require (equalsAction finality found)
      "only matching transfer does not equal the finalized action"
    let transcript ← canonicalTranscriptJson
      (literal [("authorization_block_height", .number start),
        ("chain_status_request", input.chainStatusRequest),
        ("chain_status_response", input.chainStatusResponse),
        ("block_observations", .array input.blockObservations)]) "scan transcript"
    return {
      network := "casper-test"
      authorizationBlockHeight := start
      authorizationBlockHash := state.authorizationBlockHash
      inclusionBlockHeight := finality.blockHeight
      observedThroughBlockHeight := tip.height
      observedThroughBlockHash := tip.hash
      scannedBlockCount := expectedCount
      matchedTransferCount := 1
      deployHash := finality.deployHash
      sourceAccountHash := finality.signedDeploy.sourceAccountHash
      recipientAccountHash := finality.signedDeploy.recipientAccountHash
      amountMotes := finality.signedDeploy.amountMotes
      transferId := finality.signedDeploy.transferId
      transcriptSha256 := rt.sha256CanonicalTranscript transcript }
  | _ => .error "scan must contain exactly one transfer for source and transfer id"

end Verification

/-! The forms in which accounts, hashes and ids are recorded. -/
section Forms
variable {label : String}

inductive AccountText : Value → JsString → Prop
  | bare {hash : JsString} (hex : isHexOf 64 hash = true) : AccountText (.string hash) hash
  | prefixed {hash : JsString} (hex : isHexOf 64 hash = true) :
      AccountText (.string (accountPrefix ++ hash)) hash

inductive AccountForm : Value → JsString → Prop
  | plain {value : Value} {hash : JsString} (text : AccountText value hash) :
      AccountForm value hash
  | wrapped {value : Value} {hash : JsString} (text : AccountText value hash) :
      AccountForm (.object [(js "AccountHash", value)]) hash

inductive TransactionForm : Value → JsString → Prop
  | bare (hash : JsString) : TransactionForm (.string hash) hash
  | variant {name : String} (hash : JsString) (known : name ∈ ["Deploy", "Version1"]) :
      TransactionForm (.object [(js name, .string hash)]) hash

/-- A JSON integer of 64 bits: a number as far as it is safe, or a bigint. -/
def IdForm (value : Value) (id : Nat) : Prop :=
  id < 2 ^ 64 ∧ (value = .bigint id ∨ ∃ x, value = .number x ∧ safeInteger x = some (id : Int))

theorem lowerHash_hex {value : Value} {s : JsString} (h : lowerHash value label = .ok s) :
    value = .string s ∧ isHexOf 64 s = true := by
  cases value with
  | string t =>
    simp only [lowerHash] at h
    split at h
    · next hhex =>
      obtain rfl := Except.ok.inj h
      exact ⟨rfl, hhex⟩
    · cases h
  | _ => cases h

theorem accountText_ok {value : Value} {hash : JsString} (h : accountText value label = .ok hash) :
    AccountText value hash := by
  cases value with
  | string s =>
    simp only [accountText] at h
    split at h
    · next hstarts =>
      obtain ⟨hstarts, hhex⟩ := Bool.and_eq_true_iff.mp hstarts
      obtain ⟨rest, rfl⟩ := List.isPrefixOf_iff_prefix.mp hstarts
      rw [List.drop_left] at h hhex
      obtain rfl := Except.ok.inj h
      exact .prefixed hhex
    · obtain ⟨hvalue, hhex⟩ := lowerHash_hex h
      rw [hvalue]
      exact .bare hhex
  | _ => cases h

theorem parseAccountHash_ok {value : Value} {hash : JsString}
    (h : parseAccountHash value label = .ok hash) : AccountForm value hash := by
  cases value with
  | object fields =>
    obtain ⟨⟨⟩, hkeys, h⟩ := bind_ok h
    obtain ⟨v, rfl⟩ := exactOwnKeys_single hkeys
    rw [prop_cons_self] at h
    exact .wrapped (accountText_ok h)
  | _ => exact .plain (accountText_ok h)

theorem parseTransactionHash_ok {value : Value} {hash : JsString}
    (h : parseTransactionHash value label = .ok hash) : TransactionForm value hash := by
  unfold parseTransactionHash at h
  split at h
  · rw [(lowerHash_hex h).1]
    exact .bare hash
  · obtain ⟨wrapped, hwrapped, h⟩ := bind_ok h
    split at h
    · next variant hpresent =>
      obtain ⟨hone, h⟩ := require_ok h
      obtain ⟨hknown, v, rfl⟩ := present_single hpresent (eq_of_beq hone)
      rw [prop_cons_self] at h
      rw [record_ok hwrapped, (lowerHash_hex h).1]
      exact .variant hash hknown
    · cases h

theorem safeInteger_bound {x : ℚ} {n : Int} (h : safeInteger x = some n) :
    n.natAbs ≤ 2 ^ 53 - 1 := by
  unfold safeInteger at h
  split at h
  · next hsafe =>
    obtain rfl := Option.some.inj h
    exact hsafe.2
  · cases h

/-- Only the JSON integers of 64 bits are ids. -/
theorem parseTransferId_iff {value : Value} {id : Nat} :
    parseTransferId value = some id ↔ IdForm value id := by
  cases value with
  | bigint n =>
    simp only [parseTransferId, IdForm, Value.bigint.injEq, reduceCtorEq, false_and, exists_false,
      or_false]
    split
    · next hrange =>
      rw [Option.some.injEq]
      omega
    · next hrange =>
      simp only [reduceCtorEq, false_iff]
      omega
  | number x =>
    simp only [parseTransferId, IdForm, reduceCtorEq, Value.number.injEq, exists_eq_left', false_or]
    cases hsafe : safeInteger x with
    | none => simp
    | some n =>
      have hbound := safeInteger_bound hsafe
      simp only [Option.some.injEq]
      split
      · rw [Option.some.injEq]
        omega
      · simp only [reduceCtorEq, false_iff]
        omega
  | _ => simp [parseTransferId, IdForm]

/-- The transfer is what the JSON value records. -/
def Reads (raw : Value) (transfer : ParsedTransfer) : Prop :=
  ∃ version fields, version ∈ ["Version1", "Version2"] ∧
    raw = .object [(js version, .object fields)] ∧
    TransactionForm (prop fields (hashField version)) transfer.deployHash ∧
    AccountForm (prop fields "from") transfer.sourceAccountHash ∧
    AccountForm (prop fields "to") transfer.recipientAccountHash ∧
    CasperState.Motes (prop fields "amount") transfer.amountMotes ∧
    ∀ id, transfer.transferId = some id ↔ IdForm (prop fields "id") id

theorem parseAmount_ok {value : Value} {n : Nat} (h : parseAmount value label = .ok n) :
    CasperState.Motes value n := by
  cases value with
  | string s =>
    simp only [parseAmount] at h
    split at h
    · next hdecimal =>
      obtain ⟨hvalue, hbound⟩ := CasperState.parseUnsigned_string (unsigned_ok h)
      exact ⟨s, rfl, hdecimal, hvalue, hbound⟩
    · cases h
  | _ => cases h

theorem parseTransfer_ok {raw : Value} {index : Nat} {transfer : ParsedTransfer}
    (h : parseTransfer raw index = .ok transfer) : Reads raw transfer := by
  obtain ⟨wrapper, hwrapper, h⟩ := bind_ok h
  split at h
  · next version hpresent =>
    obtain ⟨hone, h⟩ := require_ok h
    obtain ⟨hknown, v, rfl⟩ := present_single hpresent (eq_of_beq hone)
    rw [prop_cons_self] at h
    obtain ⟨fields, hfields, h⟩ := bind_ok h
    obtain ⟨amount, hamount, h⟩ := bind_ok h
    obtain ⟨deployHash, hdeploy, h⟩ := bind_ok h
    obtain ⟨source, hsource, h⟩ := bind_ok h
    obtain ⟨recipient, hrecipient, h⟩ := bind_ok h
    obtain rfl := Except.ok.inj h
    refine ⟨version, fields, hknown, ?_, parseTransactionHash_ok hdeploy, parseAccountHash_ok hsource,
      parseAccountHash_ok hrecipient, parseAmount_ok hamount, fun id => parseTransferId_iff⟩
    rw [record_ok hwrapper, record_ok hfields]
  · cases h

theorem parseTransferList_ok {raws : List Value} {index : Nat} {transfers : List ParsedTransfer}
    (h : parseTransferList index raws = .ok transfers) : List.Forall₂ Reads raws transfers := by
  induction raws generalizing index transfers with
  | nil =>
    obtain rfl := Except.ok.inj h
    exact .nil
  | cons raw rest ih =>
    obtain ⟨transfer, htransfer, h⟩ := bind_ok h
    obtain ⟨others, hrest, h⟩ := bind_ok h
    obtain rfl := Except.ok.inj h
    exact .cons (parseTransfer_ok htransfer) (ih hrest)

end Forms

/-! The scan covers every block from its start on, and collects every relevant transfer. -/
section Coverage
variable {finality : FinalizedNativeTransferFacts}

structure ScannedBlock where
  height : Nat
  blockHash : JsString
  parentHash : JsString
  transfers : List ParsedTransfer

/-- The response lists these transfers for the block. -/
def Records (response : Value) (block : ScannedBlock) (raws : List Value) : Prop :=
  ∃ result id, unwrapResult response s!"block transfers {block.height}" = .ok (result, id) ∧
    prop result "block_hash" = .string block.blockHash ∧ prop result "transfers" = .array raws

/-- The observation is of the block, with every transfer that is recorded in it. -/
def Covers (raw : Value) (block : ScannedBlock) : Prop :=
  ∃ observation raws, raw = .object observation ∧
    parseBlock (prop observation "block_request") (prop observation "block_response") block.height =
      .ok ⟨block.blockHash, block.parentHash⟩ ∧
    Records (prop observation "transfers_response") block raws ∧
    List.Forall₂ Reads raws block.transfers

def relevantIn (finality : FinalizedNativeTransferFacts) (block : ScannedBlock) : List Relevant :=
  (block.transfers.filter (isRelevant finality)).map (⟨block.height, block.blockHash, ·⟩)

theorem parseTransfers_ok {request response : Value} {block : ScannedBlock}
    (h : parseTransfers request response block.blockHash block.height = .ok block.transfers) :
    ∃ raws, Records response block raws ∧ List.Forall₂ Reads raws block.transfers := by
  obtain ⟨expectedId, -, h⟩ := bind_ok h
  obtain ⟨⟨result, id⟩, hresult, h⟩ := bind_ok h
  obtain ⟨-, -, h⟩ := bind_ok h
  obtain ⟨blockHash, hhash, h⟩ := bind_ok h
  obtain ⟨hsame, h⟩ := require_ok h
  have hsame : blockHash = block.blockHash := eq_of_beq hsame
  split at h
  · next raws hraws =>
    refine ⟨raws, ⟨result, id, hresult, ?_, hraws⟩, parseTransferList_ok h⟩
    rw [lowerHash_ok hhash, hsame]
  · cases h

/-- One step covers its block, which is new and follows the one before. -/
theorem scanBlock_ok {state next : ScanState} {offset currentHeight : Nat} {raw : Value}
    (h : scanBlock finality state offset currentHeight raw = .ok next) :
    ∃ block, Covers raw block ∧ block.height = currentHeight ∧
      (∀ hash ∈ state.previousBlockHash, block.parentHash = hash) ∧
      block.blockHash ∉ state.seenHashes ∧
      next.relevant = state.relevant ++ relevantIn finality block ∧
      next.seenHashes = state.seenHashes ++ [block.blockHash] ∧
      next.lastBlockHash = block.blockHash ∧ next.previousBlockHash = some block.blockHash := by
  obtain ⟨observation, hobservation, h⟩ := bind_ok h
  obtain ⟨-, -, h⟩ := bind_ok h
  obtain ⟨⟨blockHash, parentHash⟩, hblock, h⟩ := bind_ok h
  obtain ⟨hnew, h⟩ := require_ok h
  obtain ⟨hparent, h⟩ := require_ok h
  obtain ⟨transfers, htransfers, h⟩ := bind_ok h
  obtain rfl := Except.ok.inj h
  obtain ⟨raws, hrecords, hreads⟩ :=
    @parseTransfers_ok _ _ ⟨currentHeight, blockHash, parentHash, transfers⟩ htransfers
  refine ⟨⟨currentHeight, blockHash, parentHash, transfers⟩,
    ⟨observation, raws, record_ok hobservation, hblock, hrecords, hreads⟩, rfl, ?_, ?_, rfl, rfl, rfl,
    rfl⟩
  · intro hash hprevious
    rw [Option.mem_def.mp hprevious] at hparent
    exact eq_of_beq hparent
  · simpa using hnew

/-- A run of the scan: the blocks that it covers, and what it has collected. -/
structure Scans (finality : FinalizedNativeTransferFacts) (start : Nat) (raws : List Value)
    (state final : ScanState) (blocks : List ScannedBlock) : Prop where
  covers : List.Forall₂ Covers raws blocks
  heights : blocks.map (·.height) = List.range' start raws.length
  linked : blocks.IsChain fun a b => b.parentHash = a.blockHash
  follows : ∀ hash ∈ state.previousBlockHash, ∀ b ∈ blocks.head?, b.parentHash = hash
  distinct : (blocks.map (·.blockHash)).Nodup
  new : ∀ b ∈ blocks, b.blockHash ∉ state.seenHashes
  collected : final.relevant = state.relevant ++ blocks.flatMap (relevantIn finality)
  last : final.lastBlockHash = (blocks.getLast?.map (·.blockHash)).getD state.lastBlockHash

theorem scanBlocks_ok {start offset : Nat} {raws : List Value} {state final : ScanState}
    (h : scanBlocks finality start offset raws state = .ok final) :
    ∃ blocks, Scans finality (start + offset) raws state final blocks := by
  induction raws generalizing offset state with
  | nil =>
    obtain rfl := Except.ok.inj h
    refine ⟨[], {
      covers := .nil
      heights := rfl
      linked := .nil
      follows := ?_
      distinct := .nil
      new := fun _ hb => absurd hb List.not_mem_nil
      collected := (List.append_nil _).symm
      last := rfl }⟩
    intro _ _ b hb
    cases hb
  | cons raw rest ih =>
    obtain ⟨next, hnext, h⟩ := bind_ok h
    obtain ⟨block, hcovers, hheight, hparent, hnew, hrelevant, hseen, hlast, hprevious⟩ :=
      scanBlock_ok hnext
    obtain ⟨blocks, hscans⟩ := ih h
    refine ⟨block :: blocks, .cons hcovers hscans.covers, ?_, ?_, ?_, ?_, ?_, ?_, ?_⟩
    · rw [List.map_cons, hheight, hscans.heights, List.length_cons, List.range'_succ]
      rfl
    · have hfollows := hscans.follows block.blockHash hprevious
      cases blocks with
      | nil => exact .singleton _
      | cons b rest => exact .cons_cons (hfollows b rfl) hscans.linked
    · intro hash hhash b hb
      obtain rfl : block = b := Option.some.inj hb
      exact hparent hash hhash
    · rw [List.map_cons, List.nodup_cons]
      refine ⟨?_, hscans.distinct⟩
      intro hin
      obtain ⟨b, hb, hsame⟩ := List.mem_map.mp hin
      apply hscans.new b hb
      rw [hseen, hsame]
      exact List.mem_append_right _ (List.mem_singleton_self _)
    · intro b hb
      rcases List.mem_cons.mp hb with rfl | hb
      · exact hnew
      · intro hin
        apply hscans.new b hb
        rw [hseen]
        exact List.mem_append_left _ hin
    · rw [hscans.collected, hrelevant, List.flatMap_cons, List.append_assoc]
    · rw [hscans.last, hlast]
      cases blocks with
      | nil => rfl
      | cons b rest => simp [List.getLast?_cons]

/-- The scan of an accepted artifact. -/
structure NoDuplicate (rt : CasperState.Runtime) (input : NativeTransferScanInput)
    (finality : FinalizedNativeTransferFacts) (start : Nat) (tip : Tip)
    (blocks : List ScannedBlock) (found : Relevant) : Prop where
  finalized : verifyFinalizedNativeTransfer rt.native input.finality = .ok finality
  authorization :
    safeHeight input.authorizationBlockHeight "authorization block height" = .ok start
  observed : parseStatus input.chainStatusRequest input.chainStatusResponse = .ok tip
  within : start ≤ finality.blockHeight ∧ finality.blockHeight ≤ tip.height
  /-- Every height from the authorization to the tip has its block, and every block its transfers. -/
  covers : List.Forall₂ Covers input.blockObservations blocks
  heights : blocks.map (·.height) = List.range' start (tip.height - start + 1)
  linked : blocks.IsChain fun a b => b.parentHash = a.blockHash
  distinct : (blocks.map (·.blockHash)).Nodup
  ends : blocks.getLast?.map (·.blockHash) = some tip.hash
  /-- One transfer alone has the source and the id, and it is the finalized one. -/
  unique : blocks.flatMap (relevantIn finality) = [found]
  action : found.height = finality.blockHeight ∧ found.blockHash = finality.blockHash ∧
    found.transfer.deployHash = finality.deployHash ∧
    found.transfer.recipientAccountHash = finality.signedDeploy.recipientAccountHash ∧
    found.transfer.amountMotes = digitsValue finality.signedDeploy.amountMotes

theorem no_duplicate_transfer {rt : CasperState.Runtime} {input : NativeTransferScanInput}
    {facts : NoDuplicateNativeTransferFacts}
    (h : verifyNoDuplicateNativeTransfer rt input = .ok facts) :
    ∃ finality start tip blocks found, NoDuplicate rt input finality start tip blocks found := by
  obtain ⟨finality, hfinality, h⟩ := bind_ok h
  obtain ⟨start, hstart, h⟩ := bind_ok h
  obtain ⟨hbefore, h⟩ := require_ok h
  obtain ⟨tip, htip, h⟩ := bind_ok h
  obtain ⟨hafter, h⟩ := require_ok h
  obtain ⟨-, h⟩ := require_ok h
  obtain ⟨hcount, h⟩ := require_ok h
  obtain ⟨state, hstate, h⟩ := bind_ok h
  obtain ⟨hlast, h⟩ := require_ok h
  have hcount : input.blockObservations.length = tip.height - start + 1 := eq_of_beq hcount
  have hlast : state.lastBlockHash = tip.hash := eq_of_beq hlast
  obtain ⟨blocks, hscans⟩ := scanBlocks_ok hstate
  split at h
  · next found hfound =>
    obtain ⟨haction, -⟩ := require_ok h
    simp only [equalsAction, Bool.and_eq_true, beq_iff_eq] at haction
    obtain ⟨⟨⟨⟨hheight, hhash⟩, hdeploy⟩, hrecipient⟩, hamount⟩ := haction
    refine ⟨finality, start, tip, blocks, found, {
      finalized := hfinality
      authorization := hstart
      observed := htip
      within := ⟨of_decide_eq_true hbefore, of_decide_eq_true hafter⟩
      covers := hscans.covers
      heights := hcount ▸ hscans.heights
      linked := hscans.linked
      distinct := hscans.distinct
      ends := ?_
      unique := ?_
      action := ⟨hheight, hhash, hdeploy, hrecipient, hamount⟩ }⟩
    · have hblocks : blocks.length = tip.height - start + 1 := by
        rw [← hcount]
        exact hscans.covers.length_eq.symm
      have hne : blocks ≠ [] := by
        intro hnil
        rw [hnil] at hblocks
        simp at hblocks
      rw [← hlast, hscans.last, List.getLast?_eq_some_getLast hne]
      rfl
    · rw [← hfound, hscans.collected]
      rfl
  · cases h

end Coverage

section Sample

def sampleCasper : CasperState.Runtime where
  native := sampleRuntime
  parseUrl _ := none
  sha256CanonicalTranscript _ := []

def request (method : String) (params : Value) : Value :=
  object [("jsonrpc", text "2.0"), ("id", .number 1), ("method", text method), ("params", params)]

def response (result : Value) : Value :=
  object [("jsonrpc", text "2.0"), ("id", .number 1), ("result", result)]

/-- A transfer of the sample's source to its recipient. -/
def recorded (deploy : String) (id : Value) : Value :=
  object [("Version1", object [("deploy_hash", text deploy), ("from", text sourceHash),
    ("to", .string (js "account-hash-" ++ js payeeHash)), ("amount", text "50000000000"),
    ("id", id)])]

/-- The scan of the one block in which the sample is included. -/
def scanInput (transfers : List Value) : NativeTransferScanInput where
  chainStatusRequest := request "info_get_status" (object [])
  chainStatusResponse := response (object [("chainspec_name", text "casper-test"),
    ("last_added_block_info", object [("height", .number 8400123), ("hash", text blockHash)])])
  blockObservations := [object [
    ("block_request", request "chain_get_block" (blockByHeight 8400123)),
    ("block_response", response (object [("block", object [("hash", text blockHash),
      ("header", object [("height", .number 8400123), ("parent_hash", text payeeHash)]),
      ("body", object [])])])),
    ("transfers_request", request "chain_get_block_transfers" (blockByHash (js blockHash))),
    ("transfers_response", response (object [("block_hash", text blockHash),
      ("transfers", .array transfers)]))]]
  authorizationBlockHeight := .number 8400123
  finality := finalityInput [("execution_result", version2 .null)]

/-- A second transfer of the source, whose id stands there as a text. -/
def doubledInput : NativeTransferScanInput :=
  scanInput [recorded deployHash (.bigint 72623859790382856),
    recorded bodyHash (text "72623859790382856")]

def doubledFacts : NoDuplicateNativeTransferFacts where
  network := "casper-test"
  authorizationBlockHeight := 8400123
  authorizationBlockHash := js blockHash
  inclusionBlockHeight := 8400123
  observedThroughBlockHeight := 8400123
  observedThroughBlockHash := js blockHash
  scannedBlockCount := 1
  matchedTransferCount := 1
  deployHash := js deployHash
  sourceAccountHash := js sourceHash
  recipientAccountHash := js payeeHash
  amountMotes := js "50000000000"
  transferId := js "72623859790382856"
  transcriptSha256 := []

/-- The scan is accepted; a value, as the next evaluation waits for it. -/
def doubledAccepted : PLift (
    verifyNoDuplicateNativeTransfer sampleCasper doubledInput = .ok doubledFacts) := ⟨by
  have hfinal : verifyFinalizedNativeTransfer sampleCasper.native doubledInput.finality =
      .ok sampleFacts := accepts_sample (by decide +kernel)
  unfold verifyNoDuplicateNativeTransfer
  rw [hfinal]
  decide +kernel⟩

theorem no_duplicate_transfer_sample : ∃ finality start tip blocks found,
    NoDuplicate sampleCasper doubledInput finality start tip blocks found :=
  no_duplicate_transfer doubledAccepted.down

/-- The transfers that an observation lists. -/
def recordedTransfers (observation : Value) : List Value :=
  match observation with
  | .object fields =>
    match unwrapResult (prop fields "transfers_response") "block transfers" with
    | .ok (result, _) =>
      match prop result "transfers" with
      | .array raws => raws
      | _ => []
    | .error _ => []
  | _ => []

/-- The transfer has this source, and its id in any form stands for this number. -/
def denotes (source : JsString) (id : Nat) (raw : Value) : Bool :=
  match raw with
  | .object [(_, .object fields)] =>
    (parseAccountHash (prop fields "from") "source").toOption == some source &&
      (parseUnsigned (prop fields "id") 64).toOption == some id
  | _ => false

/-- A transfer whose id is a text is passed over. -/
theorem text_id_passed_over :
    ¬ ∀ (rt : CasperState.Runtime) (input : NativeTransferScanInput)
      (facts : NoDuplicateNativeTransferFacts),
      verifyNoDuplicateNativeTransfer rt input = .ok facts →
        ((input.blockObservations.flatMap recordedTransfers).filter
          (denotes facts.sourceAccountHash (digitsValue facts.transferId))).length = 1 := by
  intro hall
  have hone := hall sampleCasper doubledInput doubledFacts doubledAccepted.down
  exact absurd hone (by decide +kernel)

end Sample
end Concordia.Verify.NativeTransferScan
