import Concordia.Verify.CasperState

/-! Balances around a transfer: what the source and the recipient had before and after it, in the
blocks that the nodes answered for. -/
namespace Concordia.Verify.PostTransfer
open Concordia.Js Concordia.Verify.NativeDeploy Concordia.Verify.CasperState
open Concordia.Verify.NativeFinality hiding record unwrapResult height

/-- The digest of bytes in hexadecimal, beside what the balances need. -/
structure Runtime where
  casper : CasperState.Runtime
  sha256 : List UInt8 → JsString

structure PostTransferInput where
  preSourceBalance : CasperAccountBalanceInput
  preRecipientBalance : CasperAccountBalanceInput
  postSourceBalance : CasperAccountBalanceInput
  postRecipientBalance : CasperAccountBalanceInput
  finality : NativeFinalityInput
  expectedSourceAccountHash : JsString
  expectedRecipientAccountHash : JsString
  expectedAmountMotes : Value

structure PostTransferFacts where
  network : String
  sourceAccountHash : JsString
  recipientAccountHash : JsString
  preBlockHash : JsString
  preBlockHeight : Nat
  preStateRootHash : JsString
  postBlockHash : JsString
  postBlockHeight : Nat
  postStateRootHash : JsString
  deployHash : JsString
  sourceBalanceBeforeMotes : JsString
  sourceBalanceAfterMotes : JsString
  recipientBalanceBeforeMotes : JsString
  recipientBalanceAfterMotes : JsString
  amountMotes : JsString
  gasMotes : JsString
  sourceDeltaMotes : JsString
  recipientDeltaMotes : JsString
  signedDeploySha256 : JsString
  transcriptSha256Inventory : List (String × JsString)
  deriving DecidableEq

def transcriptFields : List (String × (TranscriptSha256 → JsString)) :=
  [("status_request", (·.statusRequest)), ("status", (·.status)),
    ("block_request", (·.blockRequest)), ("block", (·.block)),
    ("balance_request", (·.balanceRequest)), ("balance_response", (·.balanceResponse))]

def requireAccount (value : JsString) (label : String) : Except String JsString :=
  if isHexOf 64 value then .ok value else .error s!"{label} must be lowercase 32-byte hex"

def inventory (role : String) (proof : AccountBalanceFacts) : List (String × JsString) :=
  transcriptFields.map fun field => (s!"{role}.{field.1}", field.2 proof.transcriptSha256)

def assertAccount (proof : AccountBalanceFacts) (expected : JsString) (label : String) :
    Except String Unit :=
  require (proof.accountHash == expected) s!"{label} does not match expected account"

def assertSamePreSnapshot (left right : AccountBalanceFacts) : Except String Unit := do
  require (left.blockHash == right.blockHash) "pre-state block does not match"
  require (left.blockHeight == right.blockHeight) "pre-state height does not match"
  require (left.stateRootHash == right.stateRootHash) "pre-state root does not match"

def assertPostSnapshot (proof : AccountBalanceFacts) (finality : FinalizedNativeTransferFacts) :
    Except String Unit := do
  require (proof.blockHash == finality.blockHash) "post-state does not match finality block"
  require (proof.blockHeight == finality.blockHeight) "post-state does not match finality height"
  require (proof.stateRootHash == finality.stateRootHash)
    "post-state does not match finality state root"

variable (rt : Runtime)

def absenceSchema : String := "concordia.account-absence-observations.v1"

def verifyBalanceInput (input : CasperAccountBalanceInput) (allowAbsence : Bool) :
    Except String AccountBalanceFacts :=
  match allowAbsence, input.balanceResponse with
  | true, .object absence =>
    if hasOwn absence "schema_id" && isLiteral (prop absence "schema_id") absenceSchema then
      match prop absence "node_observations" with
      | .array observations => verifyAccountAbsenceAtBlock rt.casper input observations
      | _ => .error "pre-recipient account absence observations are malformed"
    else verifyAccountBalanceAtBlock rt.casper input
  | _, _ => verifyAccountBalanceAtBlock rt.casper input

def verifyPostTransferBalance (input : PostTransferInput) : Except String PostTransferFacts := do
  let source ← requireAccount input.expectedSourceAccountHash "expected source account"
  let recipient ← requireAccount input.expectedRecipientAccountHash "expected recipient account"
  require (source != recipient) "source and recipient accounts must be distinct"
  let amount ← unsigned input.expectedAmountMotes 512
  require (amount != 0) "expected amount must be positive U512"
  let preSource ← verifyBalanceInput rt input.preSourceBalance false
  let preRecipient ← verifyBalanceInput rt input.preRecipientBalance true
  let postSource ← verifyBalanceInput rt input.postSourceBalance false
  let postRecipient ← verifyBalanceInput rt input.postRecipientBalance false
  let finality ← verifyFinalizedNativeTransfer rt.casper.native input.finality
  require (preSource.accountExists && postSource.accountExists && postRecipient.accountExists)
    "source and post-state balances must be proof-bearing accounts"
  require (finality.signedDeploy.sourceAccountHash == source)
    "expected source does not match signed transfer source"
  require (finality.signedDeploy.recipientAccountHash == recipient)
    "expected recipient does not match signed transfer recipient"
  require (finality.signedDeploy.amountMotes == decimal amount)
    "expected amount does not match signed transfer amount"
  assertAccount preSource source "pre-source account"
  assertAccount postSource source "post-source account"
  assertAccount preRecipient recipient "pre-recipient account"
  assertAccount postRecipient recipient "post-recipient account"
  assertSamePreSnapshot preSource preRecipient
  assertPostSnapshot postSource finality
  assertPostSnapshot postRecipient finality
  require (preSource.blockHeight < finality.blockHeight)
    "pre-state snapshot must strictly precede post-state snapshot"
  let gas ← unsigned (.string finality.gasMotes) 512
  let sourceBefore ← unsigned (.string preSource.balanceMotes) 512
  let sourceAfter ← unsigned (.string postSource.balanceMotes) 512
  let recipientBefore ← unsigned (.string preRecipient.balanceMotes) 512
  let recipientAfter ← unsigned (.string postRecipient.balanceMotes) 512
  require (amount + gas < 2 ^ 512) "amount plus gas causes U512 overflow"
  require (sourceAfter ≤ sourceBefore) "source balance increased"
  require (recipientBefore ≤ recipientAfter) "recipient balance decreased"
  require (sourceBefore - sourceAfter == amount + gas)
    "source delta does not match transfer amount plus gas"
  require (recipientAfter - recipientBefore == amount)
    "recipient delta does not match transfer amount"
  return {
    network := "casper-test"
    sourceAccountHash := source
    recipientAccountHash := recipient
    preBlockHash := preSource.blockHash
    preBlockHeight := preSource.blockHeight
    preStateRootHash := preSource.stateRootHash
    postBlockHash := finality.blockHash
    postBlockHeight := finality.blockHeight
    postStateRootHash := finality.stateRootHash
    deployHash := finality.deployHash
    sourceBalanceBeforeMotes := decimal sourceBefore
    sourceBalanceAfterMotes := decimal sourceAfter
    recipientBalanceBeforeMotes := decimal recipientBefore
    recipientBalanceAfterMotes := decimal recipientAfter
    amountMotes := decimal amount
    gasMotes := decimal gas
    sourceDeltaMotes := decimal (sourceBefore - sourceAfter)
    recipientDeltaMotes := decimal (recipientAfter - recipientBefore)
    signedDeploySha256 :=
      rt.sha256 ((fromHex finality.signedDeploy.canonicalSignedDeployHex).getD [])
    transcriptSha256Inventory := inventory "pre_source" preSource ++
      inventory "pre_recipient" preRecipient ++ inventory "post_source" postSource ++
      inventory "post_recipient" postRecipient }

section Accounting
variable {rt} {input : PostTransferInput} {facts : PostTransferFacts}

/-- The balance that an input shows: the one that a node reports, or zero for an account that two
nodes do not know. -/
def Holds (rt : Runtime) (input : CasperAccountBalanceInput) (account : JsString) (block : Block)
    (balance : Nat) : Prop :=
  Shows input account block balance ∨
    ∃ absence observations, input.balanceResponse = .object absence ∧
      prop absence "node_observations" = .array observations ∧
      ShowsAbsent rt.casper input observations account block ∧ balance = 0

def snapshot (proof : AccountBalanceFacts) : Block :=
  ⟨proof.blockHash, proof.blockHeight, proof.stateRootHash⟩

/-- A proof of an account that exists shows what a node reports. -/
theorem verifyBalanceInput_ok {input : CasperAccountBalanceInput} {allowAbsence : Bool}
    {proof : AccountBalanceFacts} (h : verifyBalanceInput rt input allowAbsence = .ok proof) :
    ∃ balance, Holds rt input proof.accountHash (snapshot proof) balance ∧
      proof.balanceMotes = decimal balance ∧
      (proof.accountExists = true → Shows input proof.accountHash (snapshot proof) balance) := by
  have reported (h : verifyAccountBalanceAtBlock rt.casper input = .ok proof) :
      ∃ balance, Holds rt input proof.accountHash (snapshot proof) balance ∧
        proof.balanceMotes = decimal balance ∧
        (proof.accountExists = true → Shows input proof.accountHash (snapshot proof) balance) := by
    obtain ⟨balance, hshows, hmotes, -⟩ := verifyAccountBalanceAtBlock_ok h
    exact ⟨balance, .inl hshows, hmotes, fun _ => hshows⟩
  unfold verifyBalanceInput at h
  split at h
  · next absence hresponse =>
    split at h
    · split at h
      · next observations hobservations =>
        obtain ⟨habsent, hmotes, hexists⟩ := verifyAccountAbsenceAtBlock_ok h
        refine ⟨0, .inr ⟨absence, observations, hresponse, hobservations, habsent, rfl⟩, hmotes, ?_⟩
        intro htrue
        rw [hexists] at htrue
        cases htrue
      · cases h
    · exact reported h
  · exact reported h

theorem assertAccount_ok {proof : AccountBalanceFacts} {expected : JsString} {label : String}
    (h : assertAccount proof expected label = .ok ()) : proof.accountHash = expected :=
  eq_of_beq (Rpc.require_unit h)

theorem assertSamePreSnapshot_ok {left right : AccountBalanceFacts}
    (h : assertSamePreSnapshot left right = .ok ()) : snapshot right = snapshot left := by
  obtain ⟨hhash, h⟩ := require_ok h
  obtain ⟨hheight, h⟩ := require_ok h
  have hroot := Rpc.require_unit h
  unfold snapshot
  rw [eq_of_beq hhash, eq_of_beq hheight, eq_of_beq hroot]

theorem assertPostSnapshot_ok {proof : AccountBalanceFacts}
    {finality : FinalizedNativeTransferFacts} (h : assertPostSnapshot proof finality = .ok ()) :
    snapshot proof = ⟨finality.blockHash, finality.blockHeight, finality.stateRootHash⟩ := by
  obtain ⟨hhash, h⟩ := require_ok h
  obtain ⟨hheight, h⟩ := require_ok h
  have hroot := Rpc.require_unit h
  unfold snapshot
  rw [eq_of_beq hhash, eq_of_beq hheight, eq_of_beq hroot]

theorem requireAccount_ok {value s : JsString} {label : String}
    (h : requireAccount value label = .ok s) : s = value := by
  unfold requireAccount at h
  split at h
  · exact (Except.ok.inj h).symm
  · cases h

/-- A balance that was written in decimal is read back. -/
theorem unsigned_decimal {s : JsString} {balance n : Nat} (hs : s = decimal balance)
    (h : unsigned (.string s) 512 = .ok n) : n = balance ∧ n < 2 ^ 512 := by
  obtain ⟨hvalue, hbound⟩ := parseUnsigned_string (unsigned_ok h)
  rw [hs, digitsValue_decimal] at hvalue
  exact ⟨hvalue.symm, hbound⟩

/-- The balances around the transfer differ by what it moved and what it cost. -/
structure Accounts (rt : Runtime) (input : PostTransferInput) (pre post : Block)
    (amount gas sourceBefore sourceAfter recipientBefore recipientAfter : Nat) : Prop where
  preSource : Shows input.preSourceBalance input.expectedSourceAccountHash pre sourceBefore
  preRecipient :
    Holds rt input.preRecipientBalance input.expectedRecipientAccountHash pre recipientBefore
  postSource : Shows input.postSourceBalance input.expectedSourceAccountHash post sourceAfter
  postRecipient :
    Shows input.postRecipientBalance input.expectedRecipientAccountHash post recipientAfter
  source : sourceBefore = sourceAfter + amount + gas
  recipient : recipientAfter = recipientBefore + amount
  bounded : sourceBefore < 2 ^ 512 ∧ recipientAfter < 2 ^ 512
  precedes : pre.blockHeight < post.blockHeight

/-- The transfer is the finalized one, in the block of the later balances. -/
structure Finalizes (rt : Runtime) (input : PostTransferInput) (post : Block) (amount gas : Nat)
    (finality : FinalizedNativeTransferFacts) : Prop where
  accepted : verifyFinalizedNativeTransfer rt.casper.native input.finality = .ok finality
  block : post = ⟨finality.blockHash, finality.blockHeight, finality.stateRootHash⟩
  source : finality.signedDeploy.sourceAccountHash = input.expectedSourceAccountHash
  recipient : finality.signedDeploy.recipientAccountHash = input.expectedRecipientAccountHash
  amount : finality.signedDeploy.amountMotes = decimal amount
  gas : digitsValue finality.gasMotes = gas

/-- Whatever is accepted adds up, from the snapshot before the transfer to the one after it. -/
theorem post_transfer_accounts (h : verifyPostTransferBalance rt input = .ok facts) :
    ∃ pre post amount gas sourceBefore sourceAfter recipientBefore recipientAfter finality,
      parseUnsigned input.expectedAmountMotes 512 = .ok amount ∧
      Finalizes rt input post amount gas finality ∧
      Accounts rt input pre post amount gas sourceBefore sourceAfter recipientBefore
        recipientAfter ∧
      facts.sourceBalanceBeforeMotes = decimal sourceBefore ∧
      facts.sourceBalanceAfterMotes = decimal sourceAfter ∧
      facts.recipientBalanceBeforeMotes = decimal recipientBefore ∧
      facts.recipientBalanceAfterMotes = decimal recipientAfter ∧
      facts.amountMotes = decimal amount ∧ facts.gasMotes = decimal gas := by
  obtain ⟨source, hsource, h⟩ := bind_ok h
  obtain ⟨recipient, hrecipient, h⟩ := bind_ok h
  obtain ⟨-, h⟩ := require_ok h
  obtain ⟨amount, hamount, h⟩ := bind_ok h
  obtain ⟨-, h⟩ := require_ok h
  obtain ⟨preSource, hpreSource, h⟩ := bind_ok h
  obtain ⟨preRecipient, hpreRecipient, h⟩ := bind_ok h
  obtain ⟨postSource, hpostSource, h⟩ := bind_ok h
  obtain ⟨postRecipient, hpostRecipient, h⟩ := bind_ok h
  obtain ⟨finality, hfinality, h⟩ := bind_ok h
  obtain ⟨hexist, h⟩ := require_ok h
  obtain ⟨hsignedSource, h⟩ := require_ok h
  obtain ⟨hsignedRecipient, h⟩ := require_ok h
  obtain ⟨hsignedAmount, h⟩ := require_ok h
  obtain ⟨⟨⟩, hpreSourceAccount, h⟩ := bind_ok h
  obtain ⟨⟨⟩, hpostSourceAccount, h⟩ := bind_ok h
  obtain ⟨⟨⟩, hpreRecipientAccount, h⟩ := bind_ok h
  obtain ⟨⟨⟩, hpostRecipientAccount, h⟩ := bind_ok h
  obtain ⟨⟨⟩, hpre, h⟩ := bind_ok h
  obtain ⟨⟨⟩, hpostSourceBlock, h⟩ := bind_ok h
  obtain ⟨⟨⟩, hpostRecipientBlock, h⟩ := bind_ok h
  obtain ⟨hprecedes, h⟩ := require_ok h
  obtain ⟨gas, hgas, h⟩ := bind_ok h
  obtain ⟨sourceBefore, hsourceBefore, h⟩ := bind_ok h
  obtain ⟨sourceAfter, hsourceAfter, h⟩ := bind_ok h
  obtain ⟨recipientBefore, hrecipientBefore, h⟩ := bind_ok h
  obtain ⟨recipientAfter, hrecipientAfter, h⟩ := bind_ok h
  obtain ⟨-, h⟩ := require_ok h
  obtain ⟨hless, h⟩ := require_ok h
  obtain ⟨hmore, h⟩ := require_ok h
  obtain ⟨hsourceDelta, h⟩ := require_ok h
  obtain ⟨hrecipientDelta, h⟩ := require_ok h
  obtain rfl := Except.ok.inj h
  obtain rfl := requireAccount_ok hsource
  obtain rfl := requireAccount_ok hrecipient
  -- The accounts and the blocks are those of the caller and of the finalized transfer.
  have hpreSourceAccount := assertAccount_ok hpreSourceAccount
  have hpostSourceAccount := assertAccount_ok hpostSourceAccount
  have hpreRecipientAccount := assertAccount_ok hpreRecipientAccount
  have hpostRecipientAccount := assertAccount_ok hpostRecipientAccount
  have hpre := assertSamePreSnapshot_ok hpre
  have hpostSourceBlock := assertPostSnapshot_ok hpostSourceBlock
  have hpostRecipientBlock := assertPostSnapshot_ok hpostRecipientBlock
  obtain ⟨⟨hpreExists, hpostExists⟩, hrecipientExists⟩ :
      (preSource.accountExists = true ∧ postSource.accountExists = true) ∧
        postRecipient.accountExists = true := by
    simpa only [Bool.and_eq_true] using hexist
  obtain ⟨balance, -, hmotes, hshows⟩ := verifyBalanceInput_ok hpreSource
  obtain ⟨rfl, hbefore⟩ := unsigned_decimal hmotes hsourceBefore
  obtain ⟨balance, hholds, hmotes, -⟩ := verifyBalanceInput_ok hpreRecipient
  obtain ⟨rfl, -⟩ := unsigned_decimal hmotes hrecipientBefore
  obtain ⟨balance, -, hmotes, hsourceShows⟩ := verifyBalanceInput_ok hpostSource
  obtain ⟨rfl, -⟩ := unsigned_decimal hmotes hsourceAfter
  obtain ⟨balance, -, hmotes, hrecipientShows⟩ := verifyBalanceInput_ok hpostRecipient
  obtain ⟨rfl, hafter⟩ := unsigned_decimal hmotes hrecipientAfter
  have hshows := hshows hpreExists
  have hsourceShows := hsourceShows hpostExists
  have hrecipientShows := hrecipientShows hrecipientExists
  rw [hpreSourceAccount] at hshows
  rw [hpreRecipientAccount, hpre] at hholds
  rw [hpostSourceAccount, hpostSourceBlock] at hsourceShows
  rw [hpostRecipientAccount, hpostRecipientBlock] at hrecipientShows
  have hless := of_decide_eq_true hless
  have hmore := of_decide_eq_true hmore
  have hsourceDelta := eq_of_beq hsourceDelta
  have hrecipientDelta := eq_of_beq hrecipientDelta
  obtain ⟨hgasValue, -⟩ := parseUnsigned_string (unsigned_ok hgas)
  refine ⟨snapshot preSource, ⟨finality.blockHash, finality.blockHeight, finality.stateRootHash⟩,
    amount, gas, sourceBefore, sourceAfter, recipientBefore, recipientAfter, finality,
    unsigned_ok hamount, ?_, ?_, rfl, rfl, rfl, rfl, rfl, rfl⟩
  · exact ⟨hfinality, rfl, eq_of_beq hsignedSource, eq_of_beq hsignedRecipient,
      eq_of_beq hsignedAmount, hgasValue⟩
  · exact {
      preSource := hshows
      preRecipient := hholds
      postSource := hsourceShows
      postRecipient := hrecipientShows
      source := by omega
      recipient := by omega
      bounded := ⟨hbefore, hafter⟩
      precedes := of_decide_eq_true hprecedes }

end Accounting

section Sample
open Concordia.Verify.Rpc (literal blockByHash)

def sampleCasper : CasperState.Runtime where
  native := sampleRuntime
  parseUrl _ := none
  sha256CanonicalTranscript _ := []

def postRuntime : Runtime := ⟨sampleCasper, fun _ => []⟩

def request (method : String) (params : Value) : Value :=
  object [("jsonrpc", text "2.0"), ("id", .number 1), ("method", text method), ("params", params)]

def response (result : Value) : Value :=
  object [("jsonrpc", text "2.0"), ("id", .number 1), ("result", result)]

def earlierHash : String := "cdcdcdcdcdcdcdcdcdcdcdcdcdcdcdcdcdcdcdcdcdcdcdcdcdcdcdcdcdcdcdcd"
def earlierRoot : String := "1111111111111111111111111111111111111111111111111111111111111111"

/-- What a node answers about an account at a block. -/
def balanceInput (account hash root : String) (height : Nat) (total available : String)
    (holds : List Value) : CasperAccountBalanceInput where
  chainStatusRequest := request "info_get_status" (object [])
  chainStatusPayload := response (object [("chainspec_name", text "casper-test")])
  canonicalBlockRequest := request "chain_get_block" (blockByHash (js hash))
  canonicalBlockPayload := response (object [("block", object [("hash", text hash),
    ("header", object [("height", .number height), ("state_root_hash", text root)]),
    ("body", object [])])])
  balanceRequest := request "query_balance_details"
    (object [("state_identifier", object [("StateRootHash", text root)]),
      ("purse_identifier",
        object [("main_purse_under_account_hash", .string (js "account-hash-" ++ js account))])])
  balanceResponse := response (object [("name", text "query_balance_details_result"),
    ("value", object [("api_version", text "2.0.0"), ("total_balance", text total),
      ("available_balance", text available), ("total_balance_proof", text "00"),
      ("holds", .array holds)])])
  expectedAccountHash := text account
  expectedBlockHash := text hash
  expectedBlockHeight := .number height
  expectedStateRootHash := text root
  expectedBalanceMotes := none

/-- 50 CSPR leave an account of 100 CSPR, of which one is held. -/
def postTransferInput : PostTransferInput where
  preSourceBalance := balanceInput sourceHash earlierHash earlierRoot 8400122 "100000000000"
    "99000000000" [object [("time", text "1"), ("amount", text "1000000000"), ("proof", text "00")]]
  preRecipientBalance := balanceInput payeeHash earlierHash earlierRoot 8400122 "0" "0" []
  postSourceBalance := balanceInput sourceHash blockHash payeeHash 8400123 "49900000000"
    "49900000000" []
  postRecipientBalance := balanceInput payeeHash blockHash payeeHash 8400123 "50000000000"
    "50000000000" []
  finality := finalityInput [("execution_result", version2 .null)]
  expectedSourceAccountHash := js sourceHash
  expectedRecipientAccountHash := js payeeHash
  expectedAmountMotes := text "50000000000"

theorem sample_finality : verifyFinalizedNativeTransfer postRuntime.casper.native
    postTransferInput.finality = .ok sampleFacts :=
  accepts_sample (by decide +kernel)

/-- The sample is accepted; a value, as the next evaluation waits for it. -/
def sampleAccepted : PLift (
    (verifyPostTransferBalance postRuntime postTransferInput).isOk = true) := ⟨by
  unfold verifyPostTransferBalance
  rw [sample_finality]
  decide +kernel⟩

theorem post_transfer_accounts_sample :
    ∃ pre post amount gas sourceBefore sourceAfter recipientBefore recipientAfter,
      Accounts postRuntime postTransferInput pre post amount gas sourceBefore sourceAfter
        recipientBefore recipientAfter := by
  have haccepted := sampleAccepted.down
  cases hfacts : verifyPostTransferBalance postRuntime postTransferInput with
  | error message =>
    rw [hfacts] at haccepted
    cases haccepted
  | ok facts =>
    obtain ⟨pre, post, amount, gas, sourceBefore, sourceAfter, recipientBefore, recipientAfter,
      finality, -, -, haccounts, -⟩ := post_transfer_accounts hfacts
    exact ⟨pre, post, amount, gas, sourceBefore, sourceAfter, recipientBefore, recipientAfter,
      haccounts⟩

end Sample
end Concordia.Verify.PostTransfer
