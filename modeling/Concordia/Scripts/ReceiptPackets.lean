import Concordia.Shared.X402Payments

/-! The receipt verifier's packets: how a packet of any supported shape is brought to one receipt,
and the static checks on it. -/
namespace Concordia.Scripts
open Concordia.Python Concordia.Locke Concordia.Shared.X402Payments
open Concordia.Js hiding Value

inductive Raised where
  | attributeError
  | typeError
  | valueError
  deriving DecidableEq

/-- What the script uses of the language: `str`, `repr`, `str.lower`, `dict` of what is no
dictionary, and `==` with a text. -/
structure Language where
  str : Value → Str
  str_text : ∀ s, str (.str s) = s
  str_truthy : ∀ v, truth v = true → str v ≠ []
  repr : Value → Str
  lower : Str → Str
  dictOf : Value → Except Raised Dict

section Reading

/-- `a or b`. -/
def orElse (a b : Value) : Value := if truth a then a else b

/-- `value.get(key)`. -/
def getFrom (value : Value) (key : String) : Except Raised Value :=
  match value with
  | .dict items => .ok (Dict.get items key)
  | _ => .error .attributeError

/-- `d.get(key, default)`. -/
def getDefault (d : Dict) (key : String) (default : Value) : Value :=
  (d.lookup (js key)).getD default

/-- A member that is only read under a condition. -/
def readIf (c : Bool) (read : Except Raised Value) (otherwise : Value) : Except Raised Value :=
  if c then read else .ok otherwise

/-- `value in (None, "")`. -/
def isBlank : Value → Bool
  | .none => true
  | .str s => s.isEmpty
  | _ => false

/-- `text.removeprefix(start)`. -/
def removePrefix (start : String) (text : Str) : Str := (after (js start) text).getD text

/-- `HASH64_RE.match(text)`: `$` also matches before a final newline. -/
def isHash64 (text : Str) : Bool :=
  let hash := if text.getLast? = some 0x0a then text.dropLast else text
  hash.length = 64 && hash.all isHexUnit

/-- `CONTRACT_RE.match(text)`. -/
def isContractHash (text : Str) : Bool := (after (js "hash-") text).any isHash64

end Reading

variable (py : Language)

section Receipts

/-- `str(value or "")`. -/
def textOf (value : Value) : Str := py.str (orElse value (.str []))

def asContractHash (value : Value) : Value :=
  let text := textOf py value
  .str (if isHash64 text then js "hash-" ++ text else text)

/-- `_runtime_arg_value`. -/
def runtimeArgValue (args : Value) (name : String) : Except Raised Value := do
  match ← getFrom (orElse args (.dict [])) name with
  | .dict d =>
    return getDefault d "value" (getDefault d "parsed" (getDefault d "bytes" (.dict d)))
  | value => return value

/-- `receipt[target] = value` for a root that the receipt lacks and the arguments have. -/
def fillRoots (args : Value) : List String → Dict → Except Raised Dict
  | [], receipt => .ok receipt
  | name :: names, receipt =>
    if truth (receipt.get name) then fillRoots args names receipt
    else do
      let value ← runtimeArgValue args name
      fillRoots args names (if isBlank value then receipt else receipt.set (js name) value)

def rootNames : List String :=
  ["policy_hash", "dissent_hash", "final_card_hash", "plan_hash", "approved_allocation_bps",
    "risk_score"]

/-- `packet.get("evidence") or packet if packet.get("cards") else packet.get("evidence") or {}`. -/
def evidenceOf (packet : Dict) : Value :=
  if truth (packet.get "cards") then orElse (packet.get "evidence") (.dict packet)
  else orElse (packet.get "evidence") (.dict [])

/-- The receipt that a packet is about, before anything is filled in. -/
def pickReceipt (packet : Dict) : Except Raised Value := do
  let proof := orElse (packet.get "proof_center") (.dict [])
  let ofProof ← getFrom proof "casper_receipt"
  let found ← readIf (!truth ofProof) ((getFrom (evidenceOf packet) "casper_receipt").map
    fun value => orElse value (.dict [])) ofProof
  let isReceipt := truth (packet.get "deploy_hash") || truth (packet.get "transaction_hash") ||
    truth (packet.get "wallet_payload") || truth (packet.get "args")
  return if !truth found && isReceipt then .dict packet else found

/-- `receipt[key] = value` where the receipt has nothing under the key. -/
def fill (receipt : Dict) (key : String) (value : Value) : Dict :=
  if truth (receipt.get key) then receipt else receipt.set (js key) value

def packetArgs (packet receipt : Dict) : Value :=
  orElse (receipt.get "typed_args") (orElse (receipt.get "typed_runtime_args")
    (orElse (packet.get "typed_runtime_args") (orElse (packet.get "args") (.dict []))))

/-- What `_normalise_receipt` returns. -/
structure Normalised where
  receipt : Dict
  proof : Value
  requiresFullProof : Bool

def normaliseReceipt (given : Dict) : Except Raised Normalised := do
  let packet : Dict := match given.get "data" with
    | .dict data => data
    | _ => given
  let picked ← pickReceipt packet
  let receipt : Dict ← match orElse picked (.dict []) with
    | .dict items => pure items
    | other => py.dictOf other
  let args := packetArgs packet receipt
  let receipt := if truth args && (receipt.lookup (js "typed_args")).isNone then
    receipt.set (js "typed_args") args else receipt
  let receipt := fill receipt "deploy_hash" (orElse (packet.get "deploy_hash")
    (orElse (packet.get "transaction_hash") (packet.get "hash")))
  let receipt := fill receipt "transaction_hash"
    (orElse (packet.get "transaction_hash") (receipt.get "deploy_hash"))
  let contractHash := if truth (receipt.get "contract_hash") then receipt.get "contract_hash"
    else orElse (packet.get "contract_hash") (receipt.get "contract_hash")
  let receipt := receipt.set (js "contract_hash") (asContractHash py contractHash)
  let receipt := fill receipt "entry_point" (orElse (packet.get "entry_point")
    (orElse (packet.get "contract_entrypoint")
      (.str (if truth args then js "store_governance_receipt" else []))))
  let receipt ← if truth args then fillRoots args rootNames receipt else pure receipt
  return {
    receipt := receipt
    proof := orElse (packet.get "proof_center") (.dict [])
    requiresFullProof := truth (packet.get "proof_center") }

end Receipts

section StaticChecks

def failureIf (c : Bool) (text : String) : List Str := if c then [js text] else []

/-- `value is False`. -/
def isFalse : Value → Bool
  | .bool b => !b
  | _ => false

/-- `value is True`. -/
def isTrue : Value → Bool
  | .bool b => b
  | _ => false

/-- `any(row.get("claim") == .. and row.get("status") == "verified" for row in compact)`. -/
def anyVerifiedClaim : List Value → Except Raised Bool
  | [] => .ok false
  | row :: rows => do
    let claim ← getFrom row "claim"
    let status ← readIf (isText claim "Approved receipt anchored on Casper Testnet")
      (getFrom row "status") .none
    if isText status "verified" then return true else anyVerifiedClaim rows

/-- What a value gives when it is iterated over. -/
def elementsOf : Value → Except Raised (List Value)
  | .list elements => .ok elements
  | .dict items => .ok (items.map fun item => .str item.1)
  | .str s => .ok (s.map fun u => .str [u])
  | _ => .error .typeError

def compactFailures (requiresFullProof : Bool) (compact : Value) : Except Raised (List Str) :=
  if requiresFullProof && !truth compact then .ok [js "Compact proof table is missing."]
  else if truth compact then do
    let rows ← elementsOf compact
    let verified ← anyVerifiedClaim rows
    return failureIf (!verified) "Approved Casper receipt claim is not verified."
  else .ok []

def requiredFlags : List (String × String) :=
  [("pre_quorum_blocked", "Pre-quorum execution was not recorded as blocked."),
    ("two_signers_approved", "Two quorum approvals were not recorded."),
    ("final_receipt_after_threshold", "Wallet final receipt after threshold is not recorded."),
    ("backend_signed_final_receipt_after_quorum",
      "Backend-signed final receipt after quorum is not recorded.")]

def requiredHashes : List (String × String) :=
  [("configure_quorum", "configure_quorum deploy hash is missing."),
    ("propose_envelope", "propose_envelope deploy hash is missing."),
    ("pre_quorum_expected_failure", "pre-quorum expected-failure deploy hash is missing."),
    ("approve_envelope_server", "server approval deploy hash is missing."),
    ("approve_envelope_browser_wallet", "browser-wallet approval deploy hash is missing."),
    ("final_store_governance_receipt", "browser-wallet final receipt deploy hash is missing."),
    ("backend_final_store_governance_receipt", "backend-signed final receipt deploy hash is missing.")]

def asDict : Value → Except Raised Dict
  | .dict items => .ok items
  | _ => .error .attributeError

/-- `value or {}`, of which members are read. -/
def dictOrEmpty (value : Value) : Except Raised Dict := asDict (orElse value (.dict []))

def quorumFailuresForPacket (packet : Dict) : Except Raised (List Str) := do
  let own := packet.get "odra_quorum_exercise"
  let quorum ← readIf (!truth own) ((dictOrEmpty (packet.get "proof_center")).map fun proof =>
    orElse (Dict.get proof "odra_quorum_exercise") (.dict [])) own
  if !truth quorum then return []
  else do
    let quorum ← asDict quorum
    let summary ← dictOrEmpty (quorum.get "summary")
    let liveDeploys ← dictOrEmpty (quorum.get "live_deploys")
    let option1 ← dictOrEmpty (quorum.get "option1_backend_signed_receipt")
    let finality ← dictOrEmpty (option1.get "finality")
    let backendHash := textOf py (orElse (summary.get "backend_signed_final_receipt")
      (option1.get "deploy_hash"))
    let recorded := liveDeploys.get "backend_final_store_governance_receipt"
    let sameHash := match recorded with
      | .str s => s == backendHash
      | _ => false
    return (requiredFlags.flatMap fun (key, message) =>
        failureIf (!isTrue (summary.get key)) message) ++
      (requiredHashes.flatMap fun (key, message) =>
        failureIf (!isHash64 (textOf py (liveDeploys.get key))) message) ++
      (if !isHash64 backendHash then
        [js "Backend-signed final receipt is missing or malformed."]
      else failureIf (truth recorded && !sameHash)
        "Backend-signed final receipt hash does not match live_deploys.") ++
      failureIf (!option1.isEmpty && !isText (option1.get "entry_point") "store_governance_receipt")
        "Backend-signed quorum receipt entry point is not store_governance_receipt." ++
      failureIf (!option1.isEmpty && !isTrue (finality.get "success"))
        "Backend-signed quorum receipt finality is not successful."

/-- `receipt.get("deploy_hash") or receipt.get("transaction_hash")`. -/
def deployHashOf (receipt : Dict) : Value :=
  orElse (receipt.get "deploy_hash") (receipt.get "transaction_hash")

def failuresForPacket (packet : Dict) : Except Raised (List Str) := do
  let evidence := evidenceOf packet
  let ⟨receipt, proof, requiresFullProof⟩ ← normaliseReceipt py packet
  let proof ← asDict proof
  let compact := orElse (proof.get "compact_proof_table") (.list [])
  let firewall := orElse (proof.get "locke_execution_firewall") (.dict [])
  let chainValid ← readIf (truth evidence) (getFrom evidence "chain_valid") .none
  let compactTable ← compactFailures requiresFullProof compact
  let deployHash := deployHashOf receipt
  let contractHash := receipt.get "contract_hash"
  let typedArgs := orElse (receipt.get "typed_args") (.dict [])
  let typedText := dumpsSorted typedArgs
  let blocksUnapproved ← readIf (truth firewall)
    (getFrom firewall "llm_can_execute_unapproved_action") (.bool false)
  let safetyStatus ← readIf requiresFullProof
    (getFrom (getDefault proof "adversarial_safety_demo" (.dict [])) "status") .none
  let quorum ← quorumFailuresForPacket py packet
  return failureIf (isFalse chainValid) "Evidence chain is not valid." ++
    compactTable ++
    failureIf (!truth deployHash || !isHash64 (py.str deployHash))
      "Casper deploy/transaction hash is missing or not a 64-character hash." ++
    failureIf (!truth contractHash || !isContractHash (py.str contractHash))
      "Contract hash is missing or malformed." ++
    failureIf (!isText (orElse (receipt.get "entry_point") (.str [])) "store_governance_receipt")
      "Entry point is not store_governance_receipt." ++
    (["policy_hash", "dissent_hash", "final_card_hash", "plan_hash"].flatMap fun key =>
      failureIf (!isHash64 (removePrefix "hash-" (removePrefix "sha256:"
        (textOf py (receipt.get key))))) s!"{key} is missing or not a 32-byte root.") ++
    failureIf (truth typedArgs && !occurs (js "ByteArray") typedText)
      "Typed Casper args do not show ByteArray roots." ++
    failureIf (truth typedArgs && !occurs (js "U32") typedText)
      "Typed Casper args do not show U32 numeric fields." ++
    failureIf (!isFalse blocksUnapproved)
      "Execution firewall does not clearly block unapproved LLM actions." ++
    failureIf (requiresFullProof && !isText safetyStatus "blocked")
      "Adversarial safety demo is missing or not blocked." ++
    quorum

end StaticChecks
end Concordia.Scripts
