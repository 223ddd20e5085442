import Concordia.Contract.Injectivity
import Concordia.Scripts.ReceiptPackets
import Concordia.Shared.TransferRecords

/-! The live check of the receipt verifier: what a node and the explorer say of a deploy, compared
with the receipt of a packet. -/
namespace Concordia.Scripts
open Concordia.Python Concordia.Locke Concordia.Shared.X402Payments
open Concordia.Js hiding Value

/-- What the outside answers: the node to each of the four requests, `none` for an exception, and
the explorer, an exception by its text. -/
structure Sources where
  node : List (Option Value)
  explorer : Except Str Value

variable (py : Language)

section Node

def rpcMethods : List String :=
  ["info_get_deploy", "info_get_transaction", "info_get_transaction", "info_get_transaction"]

/-- The loop of `_node_rpc_deploy`: the first answer that is a dictionary without an error. -/
def firstAnswer : List (String × Option Value) → Option Dict
  | [] => none
  | (method, some (.dict payload)) :: rest =>
    if truth (Dict.get payload "error") then firstAnswer rest
    else some (Dict.set payload (js "_concordia_rpc_method") (.str (js method)))
  | _ :: rest => firstAnswer rest

def nodeRpcDeploy (node : List (Option Value)) : Option Dict := firstAnswer (rpcMethods.zip node)

/-- What the loops over `_walk_dicts` collect. -/
def findExecution (found : Value) (items : List Dict) : Value :=
  items.foldl (fun found item =>
    orElse found (orElse (item.get "execution_result") (item.get "executionResult"))) found

def findError (items : List Dict) : Value :=
  items.foldl (fun message item =>
    let message := orElse message (orElse (item.get "error_message") (item.get "errorMessage"))
    let failure := orElse (item.get "Failure") (item.get "failure")
    if truth failure then orElse message (.str (py.str failure)) else message) .none

/-- The members of `_rpc_finality_summary` that the check reads. -/
structure RpcSummary where
  success : Bool
  errorMessage : Value

def rpcFinalitySummary (payload : Dict) : Except Raised RpcSummary := do
  let result ← asDict (orElse (payload.get "result") (.dict payload))
  let info ← dictOrEmpty (orElse (result.get "execution_info") (result.get "executionInfo"))
  let own := orElse (info.get "execution_result") (info.get "executionResult")
  let located := truth (orElse (info.get "block_hash") (info.get "blockHash")) &&
    truth (orElse (info.get "block_height") (info.get "blockHeight"))
  let execution := if located then own else findExecution own (recordsIn (.dict result))
  let errorMessage := findError py (recordsIn (orElse execution (.dict [])))
  return { success := truth execution && !truth errorMessage, errorMessage }

/-- The summary, unless the node is unavailable. -/
def nodeSummary (node : List (Option Value)) : Option RpcSummary :=
  (nodeRpcDeploy node).bind fun payload => (rpcFinalitySummary py payload).toOption

end Node

section Explorer

/-- `_strip_hash`. -/
def stripHash (value : Value) : Str := py.lower (removePrefix "hash-" (textOf py value))

/-- What the check reads in the explorer's answer. -/
structure LiveView where
  data : Dict
  deployHash : Value
  contract : Str
  entry : Value
  args : Dict

def liveView (payload : Value) : Except Raised LiveView := do
  let payload ← asDict payload
  let data ← asDict (orElse (payload.get "data") (.dict payload))
  let contract ← readIf (!truth (data.get "contract_hash")) ((dictOrEmpty (data.get "contract")).map
    fun contract => Dict.get contract "contract_hash") (data.get "contract_hash")
  let entryPoint ← dictOrEmpty (data.get "contract_entrypoint")
  let args ← dictOrEmpty (data.get "args")
  return {
    data
    deployHash := orElse (data.get "deploy_hash") (data.get "hash")
    contract := stripHash py contract
    entry := orElse (entryPoint.get "name") (orElse (data.get "entry_point") (data.get "entrypoint"))
    args }

end Explorer

section Arguments

/-- `_typed_arg_parsed`, once the arguments are a dictionary. -/
def typedArgParsed (args : Dict) (name : String) : Value :=
  match args.get name with
  | .dict d => getDefault d "parsed" (getDefault d "value" (Dict.get d "bytes"))
  | value => value

/-- `key in args`. -/
def contains (args : Value) (key : String) : Except Raised Bool :=
  match args with
  | .dict items => .ok (items.lookup (js key)).isSome
  | .list elements => .ok (elements.any fun element => isText element key)
  | .str s => .ok (occurs (js key) s)
  | _ => .error .typeError

/-- What the receipt states under a key. -/
def expectedArg (receipt : Dict) (key : String) : Except Raised Value := do
  let args := orElse (receipt.get "typed_args") (.dict [])
  if ← contains args key then
    let items ← asDict args
    return typedArgParsed items key
  else return receipt.get key

def keysToCompare : List String :=
  ["proposal_id", "proposal_type", "policy_hash", "dissent_hash", "final_card_hash", "plan_hash",
    "approved_allocation_bps", "risk_score", "casper_network", "decision"]

/-- The two values have one text, up to the case of letters. -/
def sameText (a b : Value) : Bool := py.lower (py.str a) == py.lower (py.str b)

def argFailure (key : String) (expected actual : Value) : List Str :=
  if isBlank expected || isBlank actual || sameText py expected actual then []
  else [js s!"Runtime arg {key} mismatch: CSPR.live " ++ py.repr actual ++ js " != local " ++
    py.repr expected]

def argFailures (receipt args : Dict) : List String → Except Raised (List Str)
  | [] => .ok []
  | key :: keys => do
    let expected ← expectedArg receipt key
    let failures ← argFailures receipt args keys
    return argFailure py key expected (typedArgParsed args key) ++ failures

end Arguments

section Check

def rpcFailures (summary : Option RpcSummary) : List Str :=
  match summary with
  | some summary => if summary.success then [] else
      [js "Casper node RPC does not show successful execution: " ++ py.str summary.errorMessage]
  | none => []

def localEntry (receipt : Dict) : Value :=
  orElse (receipt.get "entry_point") (.str (js "store_governance_receipt"))

/-- `live_entry == local_entry`, of which the latter is a text where the static checks pass. -/
def sameEntry (live loc : Value) : Bool :=
  match live, loc with
  | .str a, .str b => a == b
  | _, _ => false

def viewFailures (receipt : Dict) (deployHash : Str) (view : LiveView) : List Str :=
  let liveHash := py.str (orElse view.deployHash (.str deployHash))
  let contract := stripHash py (receipt.get "contract_hash")
  (if !liveHash.isEmpty && liveHash != deployHash then
    [js "CSPR.live deploy hash mismatch: " ++ liveHash ++ js " != " ++ deployHash] else []) ++
  (if !contract.isEmpty && !view.contract.isEmpty && contract != view.contract then
    [js "Contract hash mismatch: CSPR.live " ++ view.contract ++ js " != local " ++ contract]
    else []) ++
  (if truth view.entry && !sameEntry view.entry (localEntry receipt) then
    [js "Entry point mismatch: CSPR.live " ++ py.str view.entry ++ js " != local " ++
      py.str (localEntry receipt)] else [])

/-- The failures of `_live_chain_failures`. -/
def liveChainFailures (packet : Dict) (sources : Sources) : Except Raised (List Str) := do
  let ⟨receipt, _, _⟩ ← normaliseReceipt py packet
  let deployHash := textOf py (deployHashOf receipt)
  if !isHash64 deployHash then
    return [js "Live-chain check requires a valid local deploy hash."]
  else
    let rpc := rpcFailures py (nodeSummary py sources.node)
    match sources.explorer with
    | .error text => return [js "CSPR.live deploy lookup failed: " ++ text]
    | .ok payload => do
      let view ← liveView py payload
      let args ← argFailures py receipt view.args keysToCompare
      return rpc ++ viewFailures py receipt deployHash view ++ args

/-- `main` with `--live-chain` reports "Concordia receipt verification passed.". -/
def passesLive (packet : Dict) (sources : Sources) : Prop :=
  failuresForPacket py packet = .ok [] ∧ liveChainFailures py packet sources = .ok []

end Check

section Claims

/-- The value at the end of a path of members. -/
def memberAt : Value → List String → Value
  | value, [] => value
  | .dict items, key :: path => memberAt (Dict.get items key) path
  | _, _ :: _ => .none

/-- The hash that a node's answer gives of its deploy, where it gives one. -/
def rpcDeployHash (payload : Dict) : Value :=
  let result := orElse (payload.get "result") (.dict payload)
  orElse (memberAt result ["deploy", "hash"]) (orElse (memberAt result ["transaction", "Deploy", "hash"])
    (memberAt result ["transaction", "Version1", "hash"]))

/-- The node shows that this deploy was executed successfully. -/
def nodeShowsSuccess (deployHash : Str) (node : List (Option Value)) : Bool :=
  (nodeSummary py node).any (·.success) && (nodeRpcDeploy node).any fun payload =>
    !truth (rpcDeployHash payload) || sameText py (rpcDeployHash payload) (.str deployHash)

/-- As the explorer writes it of a deploy. -/
def explorerShowsSuccess (view : LiveView) : Bool :=
  isText (view.data.get "status") "processed" && !truth (view.data.get "error_message")

def explorerShowsFailure (view : LiveView) : Bool := truth (view.data.get "error_message")

/-- The packet has this receipt, and the explorer's answer reads like this. -/
structure Reading (packet : Dict) (sources : Sources) (receipt : Dict) (view : LiveView) : Prop where
  normalised : ∃ normalised, normaliseReceipt py packet = .ok normalised ∧
    normalised.receipt = receipt
  answered : ∃ payload, sources.explorer = .ok payload ∧ liveView py payload = .ok view

/-- The live sources agree with the receipt in all that it states. -/
structure Confirms (sources : Sources) (receipt : Dict) (view : LiveView) : Prop where
  executed : nodeShowsSuccess py (textOf py (deployHashOf receipt)) sources.node = true ∨
    explorerShowsSuccess view = true
  nodeNotFailed : ∀ summary, nodeSummary py sources.node = some summary →
    truth summary.errorMessage = false
  explorerNotFailed : explorerShowsFailure view = false
  ownDeploy : truth view.deployHash = true → py.str view.deployHash = textOf py (deployHashOf receipt)
  contract : stripHash py (receipt.get "contract_hash") ≠ [] →
    view.contract = stripHash py (receipt.get "contract_hash")
  entry : sameEntry view.entry (localEntry receipt) = true
  args : ∀ key ∈ keysToCompare, ∀ expected, expectedArg receipt key = .ok expected →
    isBlank expected = false → isBlank (typedArgParsed view.args key) = false ∧
      sameText py expected (typedArgParsed view.args key) = true

/-- Nothing that the receipt states is missing from the live sources. -/
structure Gapless (sources : Sources) (receipt : Dict) (view : LiveView) : Prop where
  executed : nodeShowsSuccess py (textOf py (deployHashOf receipt)) sources.node = true ∨
    explorerShowsSuccess view = true
  explorerNotFailed : explorerShowsFailure view = false
  contract : stripHash py (receipt.get "contract_hash") ≠ [] → view.contract ≠ []
  entry : truth view.entry = true
  args : ∀ key ∈ keysToCompare, ∀ expected, expectedArg receipt key = .ok expected →
    isBlank expected = false → isBlank (typedArgParsed view.args key) = false

/-- Something that a live source states contradicts the receipt, or an argument of the receipt
cannot be read. -/
inductive Contradicts (sources : Sources) (receipt : Dict) (view : LiveView) : Prop where
  | node (summary : RpcSummary) (answered : nodeSummary py sources.node = some summary)
      (unsuccessful : summary.success = false)
  | deployHash (stated : truth view.deployHash = true)
      (differs : py.str view.deployHash ≠ textOf py (deployHashOf receipt))
  | contract (expected : stripHash py (receipt.get "contract_hash") ≠ [])
      (stated : view.contract ≠ [])
      (differs : stripHash py (receipt.get "contract_hash") ≠ view.contract)
  | entry (stated : truth view.entry = true)
      (differs : sameEntry view.entry (localEntry receipt) = false)
  | unreadable (key : String) (compared : key ∈ keysToCompare) (error : Raised)
      (raised : expectedArg receipt key = .error error)
  | arg (key : String) (compared : key ∈ keysToCompare) (expected : Value)
      (read : expectedArg receipt key = .ok expected) (present : isBlank expected = false)
      (stated : isBlank (typedArgParsed view.args key) = false)
      (differs : sameText py expected (typedArgParsed view.args key) = false)

end Claims

section Law
variable {py} {packet receipt : Dict} {sources : Sources} {view : LiveView}

theorem argFailures_nil {args : Dict} {keys : List String} :
    argFailures py receipt args keys = .ok [] ↔ ∀ key ∈ keys, ∃ expected,
      expectedArg receipt key = .ok expected ∧ (isBlank expected = true ∨
        isBlank (typedArgParsed args key) = true ∨
        sameText py expected (typedArgParsed args key) = true) := by
  induction keys with
  | nil => simp [argFailures]
  | cons key keys ih =>
    have hnone (expected actual : Value) : argFailure py key expected actual = [] ↔
        isBlank expected = true ∨ isBlank actual = true ∨ sameText py expected actual = true := by
      unfold argFailure
      cases isBlank expected <;> cases isBlank actual <;> cases sameText py expected actual <;> simp
    simp only [argFailures, Contract.except_bind_ok, pure, Except.pure, Except.ok.injEq,
      List.append_eq_nil_iff, hnone, List.forall_mem_cons, ← ih]
    constructor
    · rintro ⟨expected, hexpected, failures, hfailures, hhead, rfl⟩
      exact ⟨⟨expected, hexpected, hhead⟩, hfailures⟩
    · rintro ⟨⟨expected, hexpected, hhead⟩, hfailures⟩
      exact ⟨expected, hexpected, [], hfailures, hhead, rfl⟩

theorem rpcFailures_nil : rpcFailures py (nodeSummary py sources.node) = [] ↔
    ∀ summary, nodeSummary py sources.node = some summary → summary.success = true := by
  cases hsummary : nodeSummary py sources.node with
  | none => simp [rpcFailures]
  | some summary => cases hsuccess : summary.success <;> simp [rpcFailures, hsuccess]

theorem viewFailures_nil {deployHash : Str} :
    viewFailures py receipt deployHash view = [] ↔
      (truth view.deployHash = true → py.str view.deployHash = deployHash) ∧
      (stripHash py (receipt.get "contract_hash") ≠ [] → view.contract ≠ [] →
        stripHash py (receipt.get "contract_hash") = view.contract) ∧
      (truth view.entry = true → sameEntry view.entry (localEntry receipt) = true) := by
  have hown : (!(py.str (orElse view.deployHash (.str deployHash))).isEmpty &&
      py.str (orElse view.deployHash (.str deployHash)) != deployHash) = false ↔
      (truth view.deployHash = true → py.str view.deployHash = deployHash) := by
    cases htruth : truth view.deployHash with
    | false => simp [orElse, htruth, py.str_text]
    | true =>
      have hne := py.str_truthy view.deployHash htruth
      simp [orElse, htruth, hne]
  have hif (c : Bool) (text : Str) : (if c = true then [text] else []) = [] ↔ c = false := by
    cases c <;> simp
  have hcontract : (!(stripHash py (receipt.get "contract_hash")).isEmpty && !view.contract.isEmpty &&
      stripHash py (receipt.get "contract_hash") != view.contract) = false ↔
      (stripHash py (receipt.get "contract_hash") ≠ [] → view.contract ≠ [] →
        stripHash py (receipt.get "contract_hash") = view.contract) := by
    simp
  have hentry : (truth view.entry && !sameEntry view.entry (localEntry receipt)) = false ↔
      (truth view.entry = true → sameEntry view.entry (localEntry receipt) = true) := by
    cases truth view.entry <;> simp
  unfold viewFailures
  dsimp only
  rw [List.append_eq_nil_iff, List.append_eq_nil_iff, hif, hif, hif, hown, hcontract, hentry,
    and_assoc]

/-- What the static checks leave of a receipt. -/
theorem static_receipt (h : failuresForPacket py packet = .ok []) :
    ∃ normalised, normaliseReceipt py packet = .ok normalised ∧
      isHash64 (textOf py (deployHashOf normalised.receipt)) = true ∧
      textOf py (deployHashOf normalised.receipt) ≠ [] := by
  simp only [failuresForPacket, Contract.except_bind_ok, pure, Except.pure, Except.ok.injEq,
    List.append_eq_nil_iff] at h
  obtain ⟨normalised, hnormalised, proof, -, chainValid, -, compactTable, -, blocks, -, safety, -,
    quorum, -, h⟩ := h
  refine ⟨normalised, hnormalised, ?_⟩
  have hdeploy := h.1.1.1.1.1.1.1.1.2
  have hboth : truth (deployHashOf normalised.receipt) = true ∧
      isHash64 (py.str (deployHashOf normalised.receipt)) = true := by
    unfold failureIf at hdeploy
    split at hdeploy
    · cases hdeploy
    · rename_i hnot
      simpa using hnot
  have htext : textOf py (deployHashOf normalised.receipt) =
      py.str (deployHashOf normalised.receipt) := by
    rw [textOf, orElse, if_pos hboth.1]
  rw [htext]
  exact ⟨hboth.2, py.str_truthy _ hboth.1⟩

/-- The live check passes a packet that the explorer answers for when nothing contradicts it. -/
theorem liveChainFailures_nil (hreading : Reading py packet sources receipt view)
    (hhash : isHash64 (textOf py (deployHashOf receipt)) = true) :
    liveChainFailures py packet sources = .ok [] ↔ ¬ Contradicts py sources receipt view := by
  obtain ⟨⟨normalised, hnormalised, rfl⟩, payload, hexplorer, hview⟩ := hreading
  have hcheck : liveChainFailures py packet sources = .ok [] ↔
      (∀ summary, nodeSummary py sources.node = some summary → summary.success = true) ∧
      viewFailures py normalised.receipt (textOf py (deployHashOf normalised.receipt)) view = [] ∧
      argFailures py normalised.receipt view.args keysToCompare = .ok [] := by
    unfold liveChainFailures
    rw [hnormalised]
    simp only [bind, Except.bind, hhash, Bool.not_true, Bool.false_eq_true, if_false, hexplorer,
      hview]
    rw [← rpcFailures_nil]
    cases argFailures py normalised.receipt view.args keysToCompare with
    | error raised => simp
    | ok failures => simp [pure, Except.pure]
  rw [hcheck, viewFailures_nil, argFailures_nil]
  constructor
  · rintro ⟨hnode, ⟨hown, hcontract, hentry⟩, hargs⟩ hcontradicts
    cases hcontradicts with
    | node summary answered unsuccessful =>
      rw [hnode summary answered] at unsuccessful
      cases unsuccessful
    | deployHash stated differs => exact differs (hown stated)
    | contract expected stated differs => exact differs (hcontract expected stated)
    | entry stated differs =>
      rw [hentry stated] at differs
      cases differs
    | unreadable key compared error raised =>
      obtain ⟨expected, hread, -⟩ := hargs key compared
      rw [hread] at raised
      cases raised
    | arg key compared expected read present stated differs =>
      obtain ⟨other, hread, hsame⟩ := hargs key compared
      obtain rfl := Except.ok.inj (hread.symm.trans read)
      rw [present, stated, differs] at hsame
      simp at hsame
  · intro hnot
    refine ⟨?_, ⟨?_, ?_, ?_⟩, ?_⟩
    · intro summary answered
      by_contra hfails
      exact hnot (.node summary answered (Bool.eq_false_iff.mpr hfails))
    · intro stated
      by_contra hdiffers
      exact hnot (.deployHash stated hdiffers)
    · intro expected stated
      by_contra hdiffers
      exact hnot (.contract expected stated hdiffers)
    · intro stated
      by_contra hdiffers
      exact hnot (.entry stated (Bool.eq_false_iff.mpr hdiffers))
    · intro key compared
      cases hread : expectedArg normalised.receipt key with
      | error raised => exact absurd (.unreadable key compared raised hread) hnot
      | ok expected =>
        refine ⟨expected, rfl, ?_⟩
        by_contra hnone
        simp only [not_or, Bool.not_eq_true] at hnone
        exact hnot (.arg key compared expected hread hnone.1 hnone.2.1 hnone.2.2)

/-- A check that passes has read the explorer's answer. -/
theorem reading_of_passes (h : passesLive py packet sources) :
    ∃ receipt view, Reading py packet sources receipt view := by
  obtain ⟨hstatic, hlive⟩ := h
  obtain ⟨normalised, hnormalised, hhash, -⟩ := static_receipt hstatic
  unfold liveChainFailures at hlive
  rw [hnormalised] at hlive
  simp only [bind, Except.bind, hhash, Bool.not_true, Bool.false_eq_true, if_false] at hlive
  cases hexplorer : sources.explorer with
  | error text =>
    rw [hexplorer] at hlive
    cases hlive
  | ok payload =>
    simp only [hexplorer] at hlive
    cases hview : liveView py payload with
    | error raised =>
      rw [hview] at hlive
      cases hlive
    | ok view => exact ⟨normalised.receipt, view, ⟨normalised, hnormalised, rfl⟩, payload, hexplorer, hview⟩

/-- A success that the node's answer shows is no failure. -/
theorem nodeSummary_success {summary : RpcSummary} (h : nodeSummary py sources.node = some summary)
    (hsuccess : summary.success = true) : truth summary.errorMessage = false := by
  obtain ⟨payload, -, hsummary⟩ := Option.bind_eq_some_iff.mp h
  cases hresult : rpcFinalitySummary py payload with
  | error raised =>
    rw [hresult] at hsummary
    cases hsummary
  | ok found =>
    rw [hresult] at hsummary
    cases hsummary
    simp only [rpcFinalitySummary, Contract.except_bind_ok, pure, Except.pure,
      Except.ok.injEq] at hresult
    obtain ⟨result, -, info, -, rfl⟩ := hresult
    dsimp only at hsuccess ⊢
    rw [Bool.and_eq_true, Bool.not_eq_true'] at hsuccess
    exact hsuccess.2

theorem truth_of_sameEntry {live : Value} (h : sameEntry live (localEntry receipt) = true) :
    truth live = true := by
  have hlocal : truth (localEntry receipt) = true := by
    unfold localEntry orElse
    split
    · assumption
    · rfl
  cases live with
  | str a =>
    cases hentry : localEntry receipt with
    | str b =>
      rw [hentry] at h hlocal
      obtain rfl : a = b := by simpa [sameEntry] using h
      exact hlocal
    | _ => simp [sameEntry, hentry] at h
  | _ => simp [sameEntry] at h

/-- Where nothing contradicts the receipt, the sources confirm it exactly when they leave no gap. -/
theorem confirms_iff (hnot : ¬ Contradicts py sources receipt view) :
    Confirms py sources receipt view ↔ Gapless py sources receipt view := by
  constructor
  · intro h
    exact {
      executed := h.executed
      explorerNotFailed := h.explorerNotFailed
      contract := fun hstated => by rw [h.contract hstated]; exact hstated
      entry := truth_of_sameEntry h.entry
      args := fun key compared expected read present => (h.args key compared expected read present).1 }
  · intro h
    exact {
      executed := h.executed
      nodeNotFailed := fun summary answered => by
        apply nodeSummary_success answered
        by_contra hfails
        exact hnot (.node summary answered (Bool.eq_false_iff.mpr hfails))
      explorerNotFailed := h.explorerNotFailed
      ownDeploy := fun stated => by
        by_contra hdiffers
        exact hnot (.deployHash stated hdiffers)
      contract := fun hstated => by
        by_contra hdiffers
        exact hnot (.contract hstated (h.contract hstated) fun heq => hdiffers heq.symm)
      entry := by
        by_contra hdiffers
        exact hnot (.entry h.entry (Bool.eq_false_iff.mpr hdiffers))
      args := fun key compared expected read present => by
        have hstated := h.args key compared expected read present
        refine ⟨hstated, ?_⟩
        by_contra hdiffers
        exact hnot (.arg key compared expected read present hstated (Bool.eq_false_iff.mpr hdiffers)) }

variable (py packet sources) in
/-- The live check that passes a packet has confirmed its receipt. -/
def SoundOn : Prop :=
  passesLive py packet sources → ∃ receipt view,
    Reading py packet sources receipt view ∧ Confirms py sources receipt view

/-- Of the packets that the static checks accept, the live check is sound on those about which the
sources leave no gap, on those that they contradict, and where the explorer cannot be read. -/
theorem live_check_sound_iff (hstatic : failuresForPacket py packet = .ok []) :
    SoundOn py packet sources ↔
      (∃ receipt view, Reading py packet sources receipt view ∧
        (Gapless py sources receipt view ∨ Contradicts py sources receipt view)) ∨
      ∀ receipt view, ¬ Reading py packet sources receipt view := by
  obtain ⟨normalised, hnormalised, hhash, -⟩ := static_receipt hstatic
  have hreceipt {receipt : Dict} {view : LiveView} (h : Reading py packet sources receipt view) :
      receipt = normalised.receipt := by
    obtain ⟨other, hother, rfl⟩ := h.normalised
    rw [Except.ok.inj (hother.symm.trans hnormalised)]
  have hview {receipt other : Dict} {view view' : LiveView}
      (h : Reading py packet sources receipt view)
      (h' : Reading py packet sources other view') : view = view' := by
    obtain ⟨payload, hexplorer, hread⟩ := h.answered
    obtain ⟨payload', hexplorer', hread'⟩ := h'.answered
    obtain rfl := Except.ok.inj (hexplorer.symm.trans hexplorer')
    exact Except.ok.inj (hread.symm.trans hread')
  by_cases hreads : ∃ receipt view, Reading py packet sources receipt view
  · obtain ⟨receipt, view, hreading⟩ := hreads
    obtain rfl := hreceipt hreading
    have hpasses : passesLive py packet sources ↔
        ¬ Contradicts py sources normalised.receipt view := by
      rw [passesLive, liveChainFailures_nil hreading hhash]
      simp [hstatic]
    constructor
    · intro hsound
      refine .inl ⟨normalised.receipt, view, hreading, ?_⟩
      by_cases hcontradicts : Contradicts py sources normalised.receipt view
      · exact .inr hcontradicts
      · obtain ⟨receipt, view', hreading', hconfirms⟩ := hsound (hpasses.mpr hcontradicts)
        obtain rfl := hreceipt hreading'
        obtain rfl := hview hreading hreading'
        exact .inl ((confirms_iff hcontradicts).mp hconfirms)
    · rintro (⟨receipt, view', hreading', hcase⟩ | hnone) hpass
      · obtain rfl := hreceipt hreading'
        obtain rfl := hview hreading hreading'
        refine ⟨normalised.receipt, view, hreading, ?_⟩
        rcases hcase with hgapless | hcontradicts
        · exact (confirms_iff (hpasses.mp hpass)).mpr hgapless
        · exact absurd hcontradicts (hpasses.mp hpass)
      · exact absurd hreading (hnone _ _)
  · constructor
    · intro _
      exact .inr fun receipt view hreading => hreads ⟨receipt, view, hreading⟩
    · rintro - hpass
      exact absurd (reading_of_passes hpass) hreads

end Law
section Sample

def plainText : Value → Str
  | .str s => s
  | _ => [0x3f]

/-- The language on texts. -/
def sampleLanguage : Language where
  str := plainText
  str_text _ := rfl
  str_truthy v h := by
    cases v with
    | str s =>
      intro hs
      simp only [plainText] at hs
      subst hs
      cases h
    | _ => simp [plainText]
  repr := plainText
  lower := List.map fun u => if 0x41 ≤ u && u ≤ 0x5a then u + 0x20 else u
  dictOf _ := .error .valueError

def hash64 : Str := List.replicate 64 0x61

/-- A flat receipt with its four roots. -/
def flatPacket : Dict :=
  [(js "deploy_hash", .str hash64), (js "contract_hash", .str (js "hash-" ++ hash64)),
    (js "entry_point", .str (js "store_governance_receipt")), (js "policy_hash", .str hash64),
    (js "dissent_hash", .str hash64), (js "final_card_hash", .str hash64),
    (js "plan_hash", .str hash64)]

/-- The node is down, and the explorer answers with these members. -/
def explorerOnly (data : Dict) : Sources := ⟨[none, none, none, none], .ok (.dict data)⟩

def failedDeploy : Dict :=
  [(js "status", .str (js "processed")), (js "error_message", .str (js "User error: 8"))]

theorem flatPacket_static : failuresForPacket sampleLanguage flatPacket = .ok [] := by
  decide +kernel

theorem live_check_sound_iff_sample :
    SoundOn sampleLanguage flatPacket (explorerOnly []) ↔
      (∃ receipt view, Reading sampleLanguage flatPacket (explorerOnly []) receipt view ∧
        (Gapless sampleLanguage (explorerOnly []) receipt view ∨
          Contradicts sampleLanguage (explorerOnly []) receipt view)) ∨
      ∀ receipt view, ¬ Reading sampleLanguage flatPacket (explorerOnly []) receipt view :=
  live_check_sound_iff flatPacket_static

/-- An empty answer of the explorer passes, and so does one that reports a failed execution. -/
theorem silent_explorer_passes : ¬ SoundOn sampleLanguage flatPacket (explorerOnly []) ∧
    ¬ SoundOn sampleLanguage flatPacket (explorerOnly failedDeploy) := by
  have hempty : liveChainFailures sampleLanguage flatPacket (explorerOnly []) = .ok [] := by
    decide +kernel
  have hfailed : liveChainFailures sampleLanguage flatPacket (explorerOnly failedDeploy) = .ok [] := by
    decide +kernel
  constructor
  · intro hsound
    obtain ⟨receipt, view, hreading, hconfirms⟩ := hsound ⟨flatPacket_static, hempty⟩
    obtain ⟨payload, hexplorer, hview⟩ := hreading.answered
    cases hexplorer
    cases hview
    exact absurd (truth_of_sameEntry hconfirms.entry) (by decide)
  · intro hsound
    obtain ⟨receipt, view, hreading, hconfirms⟩ := hsound ⟨flatPacket_static, hfailed⟩
    obtain ⟨payload, hexplorer, hview⟩ := hreading.answered
    cases hexplorer
    cases hview
    exact absurd hconfirms.explorerNotFailed (by decide +kernel)

end Sample
end Concordia.Scripts
