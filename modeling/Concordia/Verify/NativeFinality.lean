import Concordia.Verify.NativeDeploy
import Concordia.Verify.Registry

/-! Finality of a native transfer: the observed execution, the canonical block and the signed
deploy have to agree, and the execution has to say that it succeeded. -/
namespace Concordia.Verify.NativeFinality
open Concordia.Js NativeDeploy

inductive RpcMethod where
  | infoGetDeploy | infoGetTransaction
  deriving DecidableEq, Repr

structure NativeFinalityInput where
  requestedDeployHash : Value
  rpcPayload : Value
  canonicalBlockPayload : Value
  signedDeploy : SignedNativeTransferExpectation
  corroboratingRpcPayloads : List Value

structure FinalizedNativeTransferFacts where
  requestedDeployHash : JsString
  deployHash : JsString
  blockHash : JsString
  blockHeight : Nat
  stateRootHash : JsString
  rpcMethod : RpcMethod
  executionResultKind : String
  gasMotes : JsString
  blockInclusionPath : JsString
  corroborationCount : Nat
  signedDeploy : SignedNativeTransferFacts
  deriving DecidableEq

structure RpcObservation where
  deployHash : JsString
  blockHash : JsString
  blockHeight : Option Nat
  rpcMethod : RpcMethod
  executionResultKind : String
  gasMotes : JsString
  deriving DecidableEq

section Fields

def record (value : Value) (label : String) : Except String Fields :=
  match value with
  | .object fields => .ok fields
  | _ => .error s!"{label} is malformed"

def nonempty (fields : Fields) (label : String) : Except String Fields := do
  require (!fields.isEmpty) s!"{label} is malformed"
  return fields

def lowerHash (value : Value) (label : String) : Except String JsString :=
  let malformed := s!"{label} must be lowercase 32-byte hex"
  match value with
  | .string s => if isHexOf 64 s then .ok s else .error malformed
  | _ => .error malformed

def height (value : Value) (label : String) : Except String Nat :=
  let malformed := s!"{label} must be a non-negative safe integer"
  match value with
  | .number x =>
    match safeInteger x with
    | some n => if 0 ≤ n then .ok n.toNat else .error malformed
    | none => .error malformed
  | _ => .error malformed

/-- `Object.hasOwn(value, name) ? own(value, name) : own(value, other)`. -/
def either (fields : Fields) (name other : String) : Value :=
  if hasOwn fields name then prop fields name else prop fields other

def isNull (value : Value) : Bool :=
  match value with
  | .null => true
  | _ => false

def isNullish (value : Value) : Bool :=
  match value with
  | .undefined | .null => true
  | _ => false

/-- The names of a list that a record has. -/
def present (fields : Fields) (names : List String) : List String :=
  names.filter fun name => hasOwn fields name

end Fields

section Evidence

def failureKey (key : JsString) : Bool := key == js "Failure" || key == js "failure"
def errorKey (key : JsString) : Bool := key == js "error_message" || key == js "errorMessage"

mutual

def hasFailureMarker : Value → Bool
  | .array elements => markerInElements elements
  | .object fields => markerInFields fields
  | _ => false

def markerInElements : List Value → Bool
  | [] => false
  | v :: rest => hasFailureMarker v || markerInElements rest

def markerInFields : List (JsString × Value) → Bool
  | [] => false
  | (key, child) :: rest =>
    failureKey key || (errorKey key && !isNull child && !isLiteral child "") ||
      hasFailureMarker child || markerInFields rest

end

def lowerUnit (u : UInt16) : UInt16 := if 0x41 ≤ u && u ≤ 0x5a then u + 0x20 else u

def executionCost (fields : Fields) : Except String JsString := do
  let costKeys := (keys fields).filter fun key => key.map lowerUnit == js "cost"
  require (costKeys == [js "cost"]) "execution cost is required and unambiguous"
  let malformed := "execution cost must be canonical non-negative U512 decimal"
  let text ← match prop fields "cost" with
    | .number x =>
      match safeInteger x with
      | some n => if 0 ≤ n then .ok (decimal n.toNat) else .error malformed
      | none => .error malformed
    | .string s => if isCanonicalDecimal s then .ok s else .error malformed
    | _ => .error malformed
  let _ ← unsigned (.string text) 512
  return text

structure Execution where
  kind : String
  gasMotes : JsString
  deriving DecidableEq

mutual

def executionSuccess : Value → Except String Execution
  | .object fields => do
    let result ← nonempty fields "processed execution result"
    let success := hasOwn result "Success"
    let failure := hasOwn result "Failure" || hasOwn result "failure"
    require (!(success && failure)) "execution result is conflicting"
    require (!failure) "execution failed"
    if success then
      let body ← record (prop result "Success") "processed execution result"
      require (!markerInFields body) "execution failed"
      let gasMotes ← executionCost body
      return ⟨"Success", gasMotes⟩
    else
      let variants := present result ["Version1", "Version2"]
      require (variants.length == 1 && (keys result).length == 1)
        "execution result has no explicit success form"
      if hasOwn result "Version1" then version1Success fields
      else
        let body ← record (prop result "Version2") "processed execution result"
        require (!markerInFields body) "execution failed"
        require (hasOwn body "error_message" || hasOwn body "errorMessage")
          "execution result has no explicit success form"
        let gasMotes ← executionCost body
        return ⟨"Version2", gasMotes⟩
  | _ => .error "processed execution result is malformed"

/-- The nested result under `Version1`; a value that is no record is refused in the same words. -/
def version1Success : List (JsString × Value) → Except String Execution
  | [] => .error "processed execution result is malformed"
  | (key, child) :: rest =>
    if key = js "Version1" then do
      let nested ← executionSuccess child
      return ⟨s!"Version1.{nested.kind}", nested.gasMotes⟩
    else version1Success rest

end

end Evidence

section Payloads

def unwrapResult (payload : Value) (label : String) : Except String Fields := do
  let body ← record payload s!"{label} payload"
  require (isNullish (prop body "error")) s!"{label} payload contains error"
  let fields ← record (prop body "result") s!"{label} result"
  let result ← nonempty fields s!"{label} result"
  if hasOwn result "value" || hasOwn result "name" then
    let value ← record (prop result "value") s!"{label} result"
    nonempty value s!"{label} result"
  else return result

def returnedDeploy (value : Fields) : Except String (RpcMethod × JsString) := do
  let hasDeploy := hasOwn value "deploy" && !isNull (prop value "deploy")
  let hasTransaction := hasOwn value "transaction" && !isNull (prop value "transaction")
  require (hasDeploy != hasTransaction) "RPC result must contain exactly one deploy or transaction"
  if hasDeploy then
    let deploy ← record (prop value "deploy") "returned deploy"
    let hash ← lowerHash (prop deploy "hash") "returned deploy hash"
    return (.infoGetDeploy, hash)
  else
    let transaction ← record (prop value "transaction") "returned transaction"
    let variants := present transaction ["Deploy", "Version1"]
    require (variants.length == 1 && (keys transaction).length == 1)
      "returned transaction is malformed"
    let body ← record (prop transaction (variants.headD "Deploy")) "returned transaction"
    let hash ← lowerHash (prop body "hash") "returned transaction hash"
    return (.infoGetTransaction, hash)

def infoNames : List String := ["execution_info", "executionInfo"]
def resultsNames : List String := ["execution_results", "executionResults"]

/-- The observation under `execution_info`. -/
def observeInfo (method : RpcMethod) (hash : JsString) (container : Value) :
    Except String RpcObservation := do
  let fields ← record container "execution info"
  let info ← nonempty fields "execution info"
  let execution ← executionSuccess (either info "execution_result" "executionResult")
  let blockHash ← lowerHash (either info "block_hash" "blockHash") "execution block hash"
  let blockHeight ← height (either info "block_height" "blockHeight") "execution block height"
  return ⟨hash, blockHash, some blockHeight, method, execution.kind, execution.gasMotes⟩

/-- The observation under `execution_results`. -/
def observeResults (method : RpcMethod) (hash : JsString) (container : Value) :
    Except String RpcObservation :=
  match container with
  | .array [entry] => do
    let item ← record entry "processed execution result"
    let execution ← executionSuccess (either item "result" "execution_result")
    let rawHeight := either item "block_height" "blockHeight"
    let blockHash ← lowerHash (either item "block_hash" "blockHash") "execution block hash"
    let blockHeight ←
      if isNullish rawHeight then pure none else some <$> height rawHeight "execution block height"
    return ⟨hash, blockHash, blockHeight, method, execution.kind, execution.gasMotes⟩
  | _ => .error "exactly one execution result is required"

def parseRpcObservation (payload : Value) : Except String RpcObservation := do
  let value ← unwrapResult payload "RPC"
  let (method, hash) ← returnedDeploy value
  match present value infoNames, present value resultsNames with
  | [name], [] => observeInfo method hash (prop value name)
  | [], [name] => observeResults method hash (prop value name)
  | _, _ => .error "execution evidence is ambiguous or missing"

end Payloads

section CanonicalBlock

structure CanonicalBlock where
  blockHash : JsString
  blockHeight : Nat
  stateRootHash : JsString
  inclusionPath : JsString
  deriving DecidableEq

/-- The path once for each entry of a list that is the deploy. -/
def legacyPaths (deployHash : JsString) (name : String) : List Value → Except String (List JsString)
  | [] => return []
  | value :: rest => do
    let hash ← lowerHash value s!"canonical block {name} entry"
    let paths ← legacyPaths deployHash name rest
    return if hash = deployHash then js name :: paths else paths

def legacyList (body : Fields) (deployHash : JsString) (name : String) :
    Except String (List JsString) :=
  match prop body name with
  | .undefined | .null => return []
  | .array values => legacyPaths deployHash name values
  | _ => .error "canonical block result is malformed"

def lanePaths (deployHash lane : JsString) : List Value → Except String (List JsString)
  | [] => return []
  | rawItem :: rest => do
    let item ← record rawItem "canonical block transaction"
    let variants := present item ["Deploy", "Version1"]
    require (variants.length == 1 && (keys item).length == 1) "canonical block result is malformed"
    let hash ← lowerHash (prop item (variants.headD "Deploy")) "canonical block transaction hash"
    let paths ← lanePaths deployHash lane rest
    return if hash = deployHash then (js "transactions." ++ lane) :: paths else paths

def transactionPaths (deployHash : JsString) : Fields → Except String (List JsString)
  | [] => return []
  | (lane, rawItems) :: rest =>
    match rawItems with
    | .array items => do
      let here ← lanePaths deployHash lane items
      let paths ← transactionPaths deployHash rest
      return here ++ paths
    | _ => .error "canonical block result is malformed"

def inclusionPaths (version : Option String) (body : Fields) (deployHash : JsString) :
    Except String (List JsString) := do
  if version = some "Version2" then
    let transactions ← record (prop body "transactions") "canonical block transactions"
    transactionPaths deployHash transactions
  else
    require (hasOwn body "deploy_hashes" || hasOwn body "transfer_hashes")
      "canonical block result is malformed"
    let deploys ← legacyList body deployHash "deploy_hashes"
    let transfers ← legacyList body deployHash "transfer_hashes"
    return deploys ++ transfers

def wrappedBlock (value : Fields) : Except String Fields := do
  if hasOwn value "block_with_signatures" then
    let wrapper ← record (prop value "block_with_signatures") "canonical block wrapper"
    record (prop wrapper "block") "canonical block"
  else if hasOwn value "block" then record (prop value "block") "canonical block"
  else .error "canonical block result is malformed"

/-- The block under its version; `none` is the legacy form. -/
def versionedBlock (wrapped : Fields) : Except String (Option String × Fields) :=
  match present wrapped ["Version1", "Version2"] with
  | [] => return (none, wrapped)
  | [version] => do
    require ((keys wrapped).length == 1) "canonical block result is malformed"
    let block ← record (prop wrapped version) "canonical block"
    return (some version, block)
  | _ => .error "canonical block result is malformed"

def parseCanonicalBlock (payload : Value) (deployHash : JsString) :
    Except String CanonicalBlock := do
  let value ← unwrapResult payload "canonical block"
  let wrapped ← wrappedBlock value
  let (version, block) ← versionedBlock wrapped
  let blockHash ← lowerHash (prop block "hash") "canonical block hash"
  let header ← record (prop block "header") "canonical block header"
  let blockHeight ← height (prop header "height") "canonical block height"
  let stateRootHash ← lowerHash (either header "state_root_hash" "stateRootHash")
    "canonical state root hash"
  let body ← record (prop block "body") "canonical block body"
  match ← inclusionPaths version body deployHash with
  | [] => .error "requested deploy is absent from canonical block"
  | [path] => return ⟨blockHash, blockHeight, stateRootHash, path⟩
  | _ => .error "requested deploy appears multiple times in canonical block"

end CanonicalBlock

section Verification
variable (rt : NativeDeploy.Runtime)

def corroborate (requested : JsString) (observation : RpcObservation) (block : CanonicalBlock) :
    List Value → Except String Unit
  | [] => return ()
  | raw :: rest => do
    let corroboration ← parseRpcObservation raw
    require (corroboration.deployHash == requested && corroboration.blockHash == block.blockHash &&
      corroboration.gasMotes == observation.gasMotes &&
      corroboration.blockHeight.all fun h => h == block.blockHeight)
      "corroborating RPC evidence conflicts"
    corroborate requested observation block rest

def verifyFinalizedNativeTransfer (input : NativeFinalityInput) :
    Except String FinalizedNativeTransferFacts := do
  let requested ← lowerHash input.requestedDeployHash "requested deploy hash"
  let observation ← parseRpcObservation input.rpcPayload
  require (observation.deployHash == requested) "returned deploy hash does not match requested hash"
  let block ← parseCanonicalBlock input.canonicalBlockPayload requested
  require (block.blockHash == observation.blockHash)
    "canonical block hash does not match execution block"
  require (observation.blockHeight.all fun h => h == block.blockHeight)
    "execution block height does not match canonical block"
  let signedDeploy ← verifySignedNativeTransferDeploy rt input.signedDeploy
  require (signedDeploy.deployHash == requested) "signed deploy hash does not match requested hash"
  corroborate requested observation block input.corroboratingRpcPayloads
  return {
    requestedDeployHash := requested
    deployHash := signedDeploy.deployHash
    blockHash := block.blockHash
    blockHeight := block.blockHeight
    stateRootHash := block.stateRootHash
    rpcMethod := observation.rpcMethod
    executionResultKind := observation.executionResultKind
    gasMotes := observation.gasMotes
    blockInclusionPath := block.inclusionPath
    corroborationCount := input.corroboratingRpcPayloads.length
    signedDeploy }

end Verification

/-! The parser follows one path through the evidence; what lies beside it is passed over. -/
section PassedOver

/-- The fields beside the one that is read. -/
def beside (fields : Fields) (name : String) : Fields := fields.eraseP fun f => f.1 == js name

/-- The name that `either` reads. -/
def chosen (fields : Fields) (name other : String) : String :=
  if hasOwn fields name then name else other

mutual

/-- A failure marker next to the `Success` form, at the level where it is found. -/
def strayInResult : Value → Bool
  | .object fields =>
    if hasOwn fields "Success" then markerInFields (beside fields "Success")
    else strayInVersion1 fields
  | _ => false

def strayInVersion1 : List (JsString × Value) → Bool
  | [] => false
  | (key, child) :: rest => if key = js "Version1" then strayInResult child else strayInVersion1 rest

end

/-- A failure marker next to the result that is read, or next to its `Success` form. -/
def strayIn (container : Fields) (name other : String) : Bool :=
  markerInFields (beside container (chosen container name other)) ||
    strayInResult (either container name other)

def strayInInfo (container : Value) : Bool :=
  match container with
  | .object info => strayIn info "execution_result" "executionResult"
  | _ => false

def strayInResults (container : Value) : Bool :=
  match container with
  | .array [.object item] => strayIn item "result" "execution_result"
  | _ => false

/-- Some container of execution evidence in the payload carries a failure marker. -/
def evidenceFails (payload : Value) : Bool :=
  match unwrapResult payload "RPC" with
  | .ok value => (infoNames ++ resultsNames).any fun name => hasFailureMarker (prop value name)
  | .error _ => false

/-- The parts of the evidence that the parser passes over carry a failure marker. -/
def strayFails (payload : Value) : Bool :=
  match unwrapResult payload "RPC" with
  | .ok value => (infoNames.any fun name => strayInInfo (prop value name)) ||
      resultsNames.any fun name => strayInResults (prop value name)
  | .error _ => false

theorem lookup_cons_ne {key : JsString} {v : Value} {rest : Fields} {name : String}
    (h : key ≠ js name) : prop ((key, v) :: rest) name = prop rest name := by
  have hne : (js name == key) = false := beq_eq_false_iff_ne.mpr (Ne.symm h)
  simp [prop, List.lookup_cons, hne]

theorem prop_cons_self {v : Value} {rest : Fields} {name : String} :
    prop ((js name, v) :: rest) name = v := by
  simp [prop, List.lookup_cons]

/-- A field that is no failure field itself counts by its value. -/
def Neutral (name : String) : Prop :=
  failureKey (js name) = false ∧ errorKey (js name) = false

instance (name : String) : Decidable (Neutral name) := inferInstanceAs (Decidable (_ ∧ _))

theorem markerInFields_cons {name : String} (h : Neutral name) (v : Value) (rest : Fields) :
    markerInFields ((js name, v) :: rest) = (hasFailureMarker v || markerInFields rest) := by
  simp [markerInFields, h.1, h.2]

theorem markerInFields_beside {name : String} (h : Neutral name) {fields : Fields}
    (hown : hasOwn fields name = true) :
    markerInFields fields = (hasFailureMarker (prop fields name) ||
      markerInFields (beside fields name)) := by
  induction fields with
  | nil => simp [hasOwn] at hown
  | cons field rest ih =>
    obtain ⟨key, v⟩ := field
    by_cases hkey : key = js name
    · subst hkey
      rw [prop_cons_self, markerInFields_cons h]
      simp [beside]
    · have hne : (js name == key) = false := beq_eq_false_iff_ne.mpr (Ne.symm hkey)
      have hrest : hasOwn rest name = true := by simpa [hasOwn, List.lookup_cons, hne] using hown
      have hbeside : beside ((key, v) :: rest) name = (key, v) :: beside rest name := by
        simp [beside, hkey]
      rw [lookup_cons_ne hkey, hbeside]
      simp only [markerInFields]
      rw [ih hrest]
      grind

theorem record_ok {v : Value} {label : String} {fields : Fields}
    (h : record v label = .ok fields) : v = .object fields := by
  cases v with
  | object f => rw [Except.ok.inj h]
  | _ => cases h

/-- The forms of an explicit success. -/
theorem executionSuccess_cases {fields : Fields} {execution : Execution}
    (h : executionSuccess (.object fields) = .ok execution) :
    (hasOwn fields "Success" = true ∧
      ∃ body, prop fields "Success" = .object body ∧ markerInFields body = false) ∨
    (∃ child nested, fields = [(js "Version1", child)] ∧ executionSuccess child = .ok nested) ∨
    ∃ body, fields = [(js "Version2", .object body)] ∧ markerInFields body = false := by
  rw [executionSuccess] at h
  obtain ⟨result, hresult, h⟩ := bind_ok h
  obtain ⟨-, hresult⟩ := require_ok hresult
  obtain rfl := Except.ok.inj hresult
  obtain ⟨-, h⟩ := require_ok h
  obtain ⟨-, h⟩ := require_ok h
  split at h
  · next hsuccess =>
    obtain ⟨body, hbody, h⟩ := bind_ok h
    obtain ⟨hclean, -⟩ := require_ok h
    exact .inl ⟨hsuccess, body, record_ok hbody, by simpa using hclean⟩
  · obtain ⟨hvariants, h⟩ := require_ok h
    obtain ⟨hsingle, hone⟩ := Bool.and_eq_true_iff.mp hvariants
    obtain ⟨⟨key, child⟩, rfl⟩ : ∃ field, fields = [field] := by
      apply List.length_eq_one_iff.mp
      simpa [keys] using hone
    have hown : ∀ name, hasOwn [(key, child)] name = true ↔ key = js name := by
      intro name
      simp [hasOwn, List.lookup_cons]
      grind
    split at h
    · next hversion =>
      obtain rfl := (hown "Version1").mp hversion
      rw [version1Success, if_pos rfl] at h
      obtain ⟨nested, hnested, -⟩ := bind_ok h
      exact .inr (.inl ⟨child, nested, rfl, hnested⟩)
    · next hversion =>
      obtain rfl : key = js "Version2" := by
        by_contra hother
        have hnone : present [(key, child)] ["Version1", "Version2"] = [] := by
          apply List.filter_eq_nil_iff.mpr
          intro name hname
          rcases List.mem_cons.mp hname with rfl | hname
          · exact hversion
          · rw [List.mem_singleton.mp hname, hown]
            exact hother
        rw [hnone] at hsingle
        cases hsingle
      obtain ⟨body, hbody, h⟩ := bind_ok h
      obtain ⟨hclean, -⟩ := require_ok h
      rw [prop_cons_self] at hbody
      exact .inr (.inr ⟨body, by rw [record_ok hbody], by simpa using hclean⟩)

/-- Of a result that counts as a success, only what lies beside it can carry a marker. -/
theorem success_marker : ∀ (v : Value) {execution : Execution},
    executionSuccess v = .ok execution → hasFailureMarker v = strayInResult v
  | .object fields, execution, h => by
    rw [hasFailureMarker, strayInResult]
    rcases executionSuccess_cases h with ⟨hown, body, hbody, hclean⟩ | ⟨child, nested, rfl, hchild⟩ |
      ⟨body, rfl, hclean⟩
    · rw [if_pos hown, markerInFields_beside (by decide) hown, hbody, hasFailureMarker, hclean,
        Bool.false_or]
    · have ih := success_marker child hchild
      have hnot : hasOwn [(js "Version1", child)] "Success" = false := by
        have hne : (js "Success" == js "Version1") = false := by decide
        simp [hasOwn, List.lookup_cons, hne]
      rw [markerInFields_cons (by decide), hnot, ih]
      simp [strayInVersion1, markerInFields]
    · have hnot : hasOwn [(js "Version2", Value.object body)] "Success" = false := by
        have hne : (js "Success" == js "Version2") = false := by decide
        simp [hasOwn, List.lookup_cons, hne]
      have hversion : js "Version2" ≠ js "Version1" := by decide
      rw [markerInFields_cons (by decide), hnot, hasFailureMarker, hclean]
      simp [strayInVersion1, markerInFields, hversion]
  | .undefined, _, h | .null, _, h | .boolean _, _, h | .number _, _, h | .bigint _, _, h
  | .string _, _, h | .array _, _, h => by cases h

theorem hasOwn_of_object {fields body : Fields} {name : String}
    (h : prop fields name = .object body) : hasOwn fields name = true := by
  unfold prop at h
  unfold hasOwn
  cases hlookup : fields.lookup (js name) with
  | none =>
    rw [hlookup] at h
    cases h
  | some v => rfl

theorem either_eq (fields : Fields) (name other : String) :
    either fields name other = prop fields (chosen fields name other) := by
  unfold either chosen
  split
  · rfl
  · rfl

theorem success_object {v : Value} {execution : Execution}
    (h : executionSuccess v = .ok execution) : ∃ fields, v = .object fields := by
  cases v with
  | object fields => exact ⟨fields, rfl⟩
  | _ => cases h

/-- The record that holds the result: what is read is clean up to its strays. -/
theorem container_marker {fields : Fields} {name other : String} {execution : Execution}
    (hname : Neutral name) (hother : Neutral other)
    (h : executionSuccess (either fields name other) = .ok execution) :
    markerInFields fields = strayIn fields name other := by
  have hneutral : Neutral (chosen fields name other) := by
    unfold chosen
    split
    · exact hname
    · exact hother
  have hown : hasOwn fields (chosen fields name other) = true := by
    obtain ⟨body, hbody⟩ := success_object h
    rw [either_eq] at hbody
    exact hasOwn_of_object hbody
  have hresult := success_marker _ h
  rw [either_eq] at hresult
  unfold strayIn
  rw [markerInFields_beside hneutral hown, either_eq, hresult]
  exact Bool.or_comm _ _

theorem info_marker {method : RpcMethod} {hash : JsString} {container : Value}
    {observation : RpcObservation} (h : observeInfo method hash container = .ok observation) :
    hasFailureMarker container = strayInInfo container := by
  obtain ⟨fields, hfields, h⟩ := bind_ok h
  obtain ⟨info, hinfo, h⟩ := bind_ok h
  obtain ⟨-, hinfo⟩ := require_ok hinfo
  obtain rfl := Except.ok.inj hinfo
  obtain ⟨execution, hexecution, -⟩ := bind_ok h
  rw [record_ok hfields, hasFailureMarker, strayInInfo]
  exact container_marker (by decide) (by decide) hexecution

theorem results_marker {method : RpcMethod} {hash : JsString} {container : Value}
    {observation : RpcObservation} (h : observeResults method hash container = .ok observation) :
    hasFailureMarker container = strayInResults container := by
  unfold observeResults at h
  split at h
  · next entry =>
    obtain ⟨item, hitem, h⟩ := bind_ok h
    obtain ⟨execution, hexecution, -⟩ := bind_ok h
    rw [record_ok hitem, hasFailureMarker, markerInElements, markerInElements, hasFailureMarker,
      strayInResults, Bool.or_false]
    exact container_marker (by decide) (by decide) hexecution
  · cases h

/-- Looking at the names a record has is enough for a test that fails on `undefined`. -/
theorem any_present {test : Value → Bool} (htest : test .undefined = false) (value : Fields)
    (names : List String) : names.any (fun name => test (prop value name)) =
      (present value names).any fun name => test (prop value name) := by
  induction names with
  | nil => rfl
  | cons name names ih =>
    unfold present at ih ⊢
    by_cases hown : hasOwn value name = true
    · rw [List.filter_cons_of_pos hown, List.any_cons, List.any_cons, ih]
    · have hundefined : prop value name = .undefined := by
        unfold hasOwn at hown
        unfold prop
        cases hlookup : value.lookup (js name) with
        | none => rfl
        | some v => simp [hlookup] at hown
      rw [List.filter_cons_of_neg hown, List.any_cons, ih, hundefined, htest, Bool.false_or]

/-- In a payload that is accepted, only the parts passed over can carry a failure marker. -/
theorem observation_marker {payload : Value} {observation : RpcObservation}
    (h : parseRpcObservation payload = .ok observation) :
    evidenceFails payload = strayFails payload := by
  obtain ⟨value, hvalue, h⟩ := bind_ok h
  obtain ⟨⟨method, hash⟩, -, h⟩ := bind_ok h
  unfold evidenceFails strayFails
  rw [hvalue]
  simp only [List.any_append]
  rw [@any_present hasFailureMarker rfl value infoNames,
    @any_present hasFailureMarker rfl value resultsNames,
    @any_present strayInInfo rfl value infoNames, @any_present strayInResults rfl value resultsNames]
  simp only at h
  split at h
  · next name hinfo hresults =>
    rw [hinfo, hresults]
    simpa using info_marker h
  · next name hinfo hresults =>
    rw [hinfo, hresults]
    simpa using results_marker h
  · cases h

end PassedOver

section Acceptance
variable {rt : NativeDeploy.Runtime} {input : NativeFinalityInput}
  {facts : FinalizedNativeTransferFacts}

/-- Every RPC response that the verification is given. -/
def NativeFinalityInput.payloads (input : NativeFinalityInput) : List Value :=
  input.rpcPayload :: input.corroboratingRpcPayloads

/-- The observation is one of the accepted deploy in the accepted block. -/
def Observes (facts : FinalizedNativeTransferFacts) (observation : RpcObservation) : Prop :=
  observation.deployHash = facts.deployHash ∧ observation.blockHash = facts.blockHash ∧
    ∀ h ∈ observation.blockHeight, h = facts.blockHeight

/-- Everything that is accepted is what was asked for, signed, executed and included. -/
structure Agrees (rt : NativeDeploy.Runtime) (input : NativeFinalityInput)
    (facts : FinalizedNativeTransferFacts) : Prop where
  requested : input.requestedDeployHash = .string facts.deployHash
  deploy : facts.signedDeploy.deployHash = facts.deployHash
  transfer : Matches rt input.signedDeploy facts.signedDeploy
  block : parseCanonicalBlock input.canonicalBlockPayload facts.deployHash =
    .ok ⟨facts.blockHash, facts.blockHeight, facts.stateRootHash, facts.blockInclusionPath⟩
  observed : ∀ payload ∈ input.payloads, ∃ observation,
    parseRpcObservation payload = .ok observation ∧ Observes facts observation

theorem lowerHash_ok {v : Value} {label : String} {s : JsString} (h : lowerHash v label = .ok s) :
    v = .string s := by
  cases v with
  | string t =>
    simp only [lowerHash] at h
    split at h
    · rw [Except.ok.inj h]
    · cases h
  | _ => cases h

theorem all_height {blockHeight : Option Nat} {n : Nat}
    (h : (blockHeight.all fun m => m == n) = true) : ∀ m ∈ blockHeight, m = n := by
  intro m hm
  rw [Option.mem_def.mp hm] at h
  simpa using h

/-- Every corroboration is an observation of the same deploy in the same block. -/
theorem corroborate_ok {requested : JsString} {observation : RpcObservation}
    {block : CanonicalBlock} {payloads : List Value}
    (h : corroborate requested observation block payloads = .ok ()) :
    ∀ payload ∈ payloads, ∃ seen, parseRpcObservation payload = .ok seen ∧
      seen.deployHash = requested ∧ seen.blockHash = block.blockHash ∧
      ∀ n ∈ seen.blockHeight, n = block.blockHeight := by
  induction payloads with
  | nil =>
    intro payload hin
    exact absurd hin List.not_mem_nil
  | cons raw rest ih =>
    obtain ⟨seen, hseen, h⟩ := bind_ok h
    obtain ⟨hsame, h⟩ := require_ok h
    simp only [Bool.and_eq_true, beq_iff_eq] at hsame
    obtain ⟨⟨⟨hdeploy, hblock⟩, -⟩, hheight⟩ := hsame
    intro payload hin
    rcases List.mem_cons.mp hin with rfl | hin
    · exact ⟨seen, hseen, hdeploy, hblock, all_height hheight⟩
    · exact ih h payload hin

theorem accepted_agrees (h : verifyFinalizedNativeTransfer rt input = .ok facts) :
    Agrees rt input facts := by
  obtain ⟨requested, hrequested, h⟩ := bind_ok h
  obtain ⟨observation, hobservation, h⟩ := bind_ok h
  obtain ⟨hdeploy, h⟩ := require_ok h
  obtain ⟨block, hblock, h⟩ := bind_ok h
  obtain ⟨hsameBlock, h⟩ := require_ok h
  obtain ⟨hheight, h⟩ := require_ok h
  obtain ⟨signed, hsigned, h⟩ := bind_ok h
  obtain ⟨hsame, h⟩ := require_ok h
  obtain ⟨⟨⟩, hcorroborate, h⟩ := bind_ok h
  obtain rfl := Except.ok.inj h
  have hsame : signed.deployHash = requested := eq_of_beq hsame
  have hdeploy : observation.deployHash = requested := eq_of_beq hdeploy
  have hsameBlock : block.blockHash = observation.blockHash := eq_of_beq hsameBlock
  constructor
  · rw [lowerHash_ok hrequested, hsame]
  · rfl
  · exact verifySigned_matches hsigned
  · simp only [hsame]
    exact hblock
  · intro payload hin
    rcases List.mem_cons.mp hin with rfl | hin
    · exact ⟨observation, hobservation, by rw [hdeploy, hsame], hsameBlock.symm, all_height hheight⟩
    · obtain ⟨seen, hseen, hseenDeploy, hseenBlock, hseenHeight⟩ :=
        corroborate_ok hcorroborate payload hin
      exact ⟨seen, hseen, by rw [hseenDeploy, hsame], hseenBlock, hseenHeight⟩

/-- An accepted transfer agrees with everything it was checked against; its evidence is free of
failure markers exactly when the parts that the parser passes over are. -/
theorem finality_fail_closed_iff (h : verifyFinalizedNativeTransfer rt input = .ok facts) :
    Agrees rt input facts ∧
      ((∀ payload ∈ input.payloads, evidenceFails payload = false) ↔
        ∀ payload ∈ input.payloads, strayFails payload = false) := by
  have hagrees := accepted_agrees h
  refine ⟨hagrees, ?_⟩
  have hsame : ∀ payload ∈ input.payloads, evidenceFails payload = strayFails payload := by
    intro payload hin
    obtain ⟨observation, hobservation, -⟩ := hagrees.observed payload hin
    exact observation_marker hobservation
  constructor
  · intro hclean payload hin
    rw [← hsame payload hin]
    exact hclean payload hin
  · intro hclean payload hin
    rw [hsame payload hin]
    exact hclean payload hin

end Acceptance

section Sample

def keyHex : String := "79b5562e8fe654f94078b112e8a98ba7901f853ae695bed7e0e3910bad049664"
def bodyHash : String := "279f8b9d3a1d1a2094fa37ad97478179e0afa86bc8279ea7c95642b12808a313"
def deployHash : String := "f5e101a5c5606300e6faa36591f38d2f7d5152ad0ba7fe1fa2b0cf712bd50ce8"
def sourceHash : String := "2cafe3242874778ed07291e1205a2773e4913b920695cbd8bb5887373eff99f7"
def payeeHash : String := "2222222222222222222222222222222222222222222222222222222222222222"
def blockHash : String := "abababababababababababababababababababababababababababababababab"

def headerHex : JsString := js "01" ++ js keyHex ++
  js "007094349801000040771b00000000000100000000000000" ++ js bodyHash ++
  js "000000000b0000006361737065722d74657374"

def bodyHex : JsString :=
  js "00000000000100000006000000616d6f756e74050000000400e1f50508" ++
  js "05030000000600000074617267657421000000" ++ js "00" ++ js payeeHash ++ js "0b" ++
  js "06000000616d6f756e74060000000500743ba40b08020000006964090000000108070605040302010d05"

/-- A transfer of 50 CSPR on the test network, signed by its source. -/
def signedHex : JsString := headerHex ++ js deployHash ++ bodyHex ++ js "0100000001" ++ js keyHex ++
  js "0120221dffca16d4188b181b15f938fcb5f198c94b42c3a89043c2def6f624e7" ++
  js "67429a653767ab0f88930ba6703a380eebcd0130012df0a573cca03026932d7308"

/-- The digests of this deploy's header, body and account, told apart by their lengths; its texts
are ASCII and its one signature is good. -/
def sampleRuntime : NativeDeploy.Runtime where
  blake2b256 bytes :=
    let digest := if bytes.length = 108 then deployHash else if bytes.length = 124 then bodyHash
      else sourceHash
    (fromHex (js digest)).getD []
  decodeUtf8 bytes := some (bytes.map fun b => b.toNat.toUInt16)
  approvalSignatureValid _ _ _ := true

def text (s : String) : Value := .string (js s)
def object (fields : List (String × Value)) : Value := .object (fields.map fun f => (js f.1, f.2))

def version2 (errorMessage : Value) : Value :=
  object [("Version2", object [("error_message", errorMessage), ("cost", text "100000000")])]

/-- A node's answer whose execution info holds these results. -/
def rpcPayload (results : List (String × Value)) : Value :=
  object [("result", object [("value", object [
    ("deploy", object [("hash", text deployHash)]),
    ("execution_info", object ([("block_hash", text blockHash),
      ("block_height", .number 8400123)] ++ results))])])]

def blockPayload : Value :=
  object [("result", object [("value", object [("block_with_signatures", object [("block",
    object [("Version2", object [("hash", text blockHash),
      ("header", object [("height", .number 8400123), ("state_root_hash", text payeeHash)]),
      ("body", object [("transactions",
        object [("0", .array [object [("Deploy", text deployHash)]])])])])])])])])]

def finalityInput (results : List (String × Value)) : NativeFinalityInput where
  requestedDeployHash := text deployHash
  rpcPayload := rpcPayload results
  canonicalBlockPayload := blockPayload
  signedDeploy := {
    signedDeployHex := .string signedHex
    sourceAccountHash := text sourceHash
    recipientAccountHash := text payeeHash
    amountMotes := text "50000000000"
    transferId := text "72623859790382856"
    paymentAmountMotes := .undefined
    maxPaymentAmountMotes := .undefined }
  corroboratingRpcPayloads := []

def sampleFacts : FinalizedNativeTransferFacts where
  requestedDeployHash := js deployHash
  deployHash := js deployHash
  blockHash := js blockHash
  blockHeight := 8400123
  stateRootHash := js payeeHash
  rpcMethod := .infoGetDeploy
  executionResultKind := "Version2"
  gasMotes := js "100000000"
  blockInclusionPath := js "transactions.0"
  corroborationCount := 0
  signedDeploy := {
    canonicalSignedDeployHex := signedHex
    deployHash := js deployHash
    bodyHash := js bodyHash
    chainName := js "casper-test"
    sourcePublicKey := js "01" ++ js keyHex
    sourceAccountHash := js sourceHash
    recipientAccountHash := js payeeHash
    amountMotes := js "50000000000"
    transferId := js "72623859790382856"
    paymentAmountMotes := js "100000000"
    approvalSigners := [js "01" ++ js keyHex] }

/-- The check of the signed deploy, as a value: the next evaluation waits for it. -/
def sampleSigned : PLift (
    verifySignedNativeTransferDeploy sampleRuntime (finalityInput []).signedDeploy =
      .ok sampleFacts.signedDeploy) where
  down := by decide +kernel

theorem sample_signed (results : List (String × Value)) :
    verifySignedNativeTransferDeploy sampleRuntime (finalityInput results).signedDeploy =
      .ok sampleFacts.signedDeploy := by
  change verifySignedNativeTransferDeploy sampleRuntime (finalityInput []).signedDeploy = _
  exact sampleSigned.down

theorem sample_block : parseCanonicalBlock blockPayload (js deployHash) =
    .ok ⟨js blockHash, 8400123, js payeeHash, js "transactions.0"⟩ := by decide +kernel

/-- The transfer is accepted with any results from which a `Version2` success is read. -/
theorem accepts_sample {results : List (String × Value)}
    (h : parseRpcObservation (rpcPayload results) = .ok
      ⟨js deployHash, js blockHash, some 8400123, .infoGetDeploy, "Version2", js "100000000"⟩) :
    verifyFinalizedNativeTransfer sampleRuntime (finalityInput results) = .ok sampleFacts := by
  have hrequested : lowerHash (text deployHash) "requested deploy hash" = .ok (js deployHash) := by
    decide +kernel
  unfold verifyFinalizedNativeTransfer
  rw [sample_signed]
  simp only [finalityInput, hrequested, h, bind, Except.bind, sample_block]
  rfl

theorem finality_fail_closed_iff_sample :
    Agrees sampleRuntime (finalityInput [("execution_result", version2 .null)]) sampleFacts ∧
      ((∀ payload ∈ (finalityInput [("execution_result", version2 .null)]).payloads,
        evidenceFails payload = false) ↔
        ∀ payload ∈ (finalityInput [("execution_result", version2 .null)]).payloads,
          strayFails payload = false) :=
  finality_fail_closed_iff (accepts_sample (by decide +kernel))

/-- A second result container, in the other spelling, may say that the execution failed. -/
theorem mixed_results_accepted :
    ¬ ∀ (rt : NativeDeploy.Runtime) (input : NativeFinalityInput)
      (facts : FinalizedNativeTransferFacts), verifyFinalizedNativeTransfer rt input = .ok facts →
        ∀ payload ∈ input.payloads, evidenceFails payload = false := by
  intro hall
  have hclean := hall sampleRuntime
    (finalityInput [("execution_result", version2 .null),
      ("executionResult", version2 (text "User error: 1"))])
    sampleFacts (accepts_sample (by decide +kernel)) _ List.mem_cons_self
  exact absurd hclean (by decide +kernel)

end Sample

end Concordia.Verify.NativeFinality
