import Concordia.Verify.CasperState
import Mathlib.Data.List.DropRight
import Mathlib.Data.List.Perm.Basic

/-! Finality that several public nodes report: every observation has to prove the transfer by
itself, and all of them have to agree. -/
namespace Concordia.Verify.MultiNodeFinality
open Concordia.Js Concordia.Verify.NativeDeploy Concordia.Verify.Rpc
open Concordia.Verify.NativeFinality hiding record unwrapResult height
open Concordia.Verify.CasperState (isDottedQuad endsWith)
open Concordia.Verify.Transcript

def verificationScope : String :=
  "two-or-more-public-rpc-nodes-agree;validator-signatures-not-verified"

def nodeFields : List String :=
  ["node_url", "captured_at", "status_request", "status_response", "transaction_request",
    "transaction_response", "canonical_block_request", "canonical_block_response"]

structure CorroboratedNativeTransferInput where
  requestedDeployHash : JsString
  nodeObservations : List Value
  signedDeploy : SignedNativeTransferExpectation

structure CorroboratedNativeTransferFacts where
  requestedDeployHash : JsString
  deployHash : JsString
  network : String
  blockHash : JsString
  blockHeight : Nat
  stateRootHash : JsString
  rpcMethod : RpcMethod
  executionResultKind : String
  gasMotes : JsString
  blockInclusionPath : JsString
  nodeObservationCount : Nat
  corroborationCount : Nat
  nodeUrls : List JsString
  capturedAt : List JsString
  rpcMethods : List RpcMethod
  nodeObservationJson : List JsString
  nodeObservationSha256 : List JsString
  verificationScope : String
  signedDeploy : SignedNativeTransferFacts
  deriving DecidableEq

structure ParsedNode where
  nodeUrl : JsString
  origin : JsString
  capturedAt : JsString
  transcriptJson : JsString
  transcriptSha256 : JsString
  facts : FinalizedNativeTransferFacts
  deriving DecidableEq

def dialect : Dialect where
  notExact label := s!"{label} must contain exactly frozen own fields"
  paramsDiffer label := s!"{label} request params do not match exactly"
  bigintIds := false

section Payloads

def exactResponse (raw expectedId : Value) (label : String) : Except String Fields := do
  let response ← record raw s!"{label} response"
  exactOwnKeys dialect response ["jsonrpc", "id", "result"] s!"{label} response"
  require (isLiteral (prop response "jsonrpc") "2.0") s!"{label} response must use JSON-RPC 2.0"
  require (strictEq (prop response "id") expectedId) s!"{label} response id does not match request id"
  let _ ← record (prop response "result") s!"{label} result"
  return response

def resultValue (response : Fields) (expectedName label : String) : Except String Fields := do
  let result ← record (prop response "result") s!"{label} result"
  if hasOwn result "name" || hasOwn result "value" then
    exactOwnKeys dialect result ["name", "value"] s!"{label} result"
    require (isLiteral (prop result "name") expectedName)
      s!"{label} result name does not match request method"
    let value ← record (prop result "value") s!"{label} result value"
    require (!value.isEmpty) s!"{label} result is malformed"
    return value
  else
    require (!result.isEmpty) s!"{label} result is malformed"
    return result

def statusNetwork (response : Fields) : Except String Unit := do
  let value ← resultValue response "info_get_status_result" "status"
  provesNetwork value "status response must prove chain casper-test"

/-- The text against a template in which a `d` stands for any digit. -/
def fits (template : String) (text : JsString) : Bool :=
  text.length == (js template).length &&
    (text.zip (js template)).all fun u => if u.2 == 0x64 then isDigit u.1 else u.1 == u.2

/-- `(?:\.[0-9]{1,6})?Z`. -/
def fractionFits (text : JsString) : Bool :=
  text == js "Z" ||
    (text.head? == some 0x2e && text.getLast? == some 0x5a && 3 ≤ text.length && text.length ≤ 8 &&
      (text.tail.dropLast).all isDigit)

def daysInMonth (year month : Nat) : Nat :=
  if month = 2 then if year % 4 = 0 ∧ (year % 100 ≠ 0 ∨ year % 400 = 0) then 29 else 28
  else if month = 4 ∨ month = 6 ∨ month = 9 ∨ month = 11 then 30 else 31

/-- The date that is built from the numbers keeps them when it is one of the calendar. -/
def isCalendarTime (text : JsString) : Bool :=
  let number (start length : Nat) := digitsValue ((text.drop start).take length)
  let year := number 0 4
  let month := number 5 2
  let day := number 8 2
  year != 0 && 1 ≤ month && month ≤ 12 && number 11 2 ≤ 23 && number 14 2 ≤ 59 &&
    number 17 2 ≤ 59 && 1 ≤ day && day ≤ daysInMonth year month

def canonicalCapturedAt (value : Value) : Except String JsString :=
  let malformed := "capture timestamp must be canonical UTC RFC3339"
  match value with
  | .string stamp =>
    if fits "dddd-dd-ddTdd:dd:dd" (stamp.take 19) && fractionFits (stamp.drop 19) &&
        isCalendarTime stamp then .ok stamp
    else .error malformed
  | _ => .error malformed

/-- `/^\[[0-9a-f:.]+\]$/`. -/
def isBracketed (hostname : JsString) : Bool :=
  let inner := hostname.tail.dropLast
  hostname.head? == some 0x5b && hostname.getLast? == some 0x5d && !inner.isEmpty &&
    inner.all fun u => isDigit u || (0x61 ≤ u && u ≤ 0x66) || u == 0x3a || u == 0x2e

variable (rt : CasperState.Runtime)

def isPublicNode (url : JsString) (parsed : CasperState.Url) : Bool :=
  let hostname := parsed.hostname.map lowerUnit
  let localName := hostname == js "localhost" || hostname == js "localhost.localdomain" ||
    endsWith hostname ".localhost" || endsWith hostname ".local"
  let literalAddress := isBracketed hostname || isDottedQuad hostname
  parsed.protocol == js "https:" && parsed.username.isEmpty && parsed.password.isEmpty &&
    parsed.search.isEmpty && parsed.hash.isEmpty &&
    (parsed.pathname == js "/" || parsed.pathname == js "/rpc") && !hostname.isEmpty &&
    hostname.contains 0x2e && !localName && !literalAddress && parsed.href == url

/-- The URL with its origin. -/
def publicNodeUrl (value : Value) : Except String (JsString × JsString) :=
  let malformed := "node URL must identify a public credential-free HTTPS RPC endpoint"
  match value with
  | .string url =>
    if url.isEmpty then .error malformed
    else match rt.parseUrl url with
      | none => .error malformed
      | some parsed => if isPublicNode url parsed then .ok (url, parsed.origin) else .error malformed
  | _ => .error malformed

end Payloads

section Verification
variable (rt : CasperState.Runtime)

def methodName : RpcMethod → String
  | .infoGetDeploy => "info_get_deploy"
  | .infoGetTransaction => "info_get_transaction"

def transactionParams (method : RpcMethod) (requestedDeployHash : JsString) : Value :=
  match method with
  | .infoGetDeploy => literal [("deploy_hash", .string requestedDeployHash),
      ("finalized_approvals", .boolean true)]
  | .infoGetTransaction => literal [
      ("transaction_hash", literal [("Deploy", .string requestedDeployHash)]),
      ("finalized_approvals", .boolean true)]

/-- One observation, as the evidence that it is by itself. -/
def observationInput (requestedDeployHash : JsString)
    (signedDeploy : SignedNativeTransferExpectation) (raw : Fields) : NativeFinalityInput where
  requestedDeployHash := .string requestedDeployHash
  rpcPayload := prop raw "transaction_response"
  canonicalBlockPayload := prop raw "canonical_block_response"
  signedDeploy := signedDeploy
  corroboratingRpcPayloads := []

def parseNode (requestedDeployHash : JsString) (signedDeploy : SignedNativeTransferExpectation)
    (rawValue : Value) : Except String ParsedNode := do
  let raw ← record rawValue "node observation"
  exactOwnKeys dialect raw nodeFields "node observation"
  let (nodeUrl, origin) ← publicNodeUrl rt (prop raw "node_url")
  let capturedAt ← canonicalCapturedAt (prop raw "captured_at")
  let statusId ← exactRequest dialect (prop raw "status_request") "info_get_status" (literal [])
    "status"
  let statusResponse ← exactResponse (prop raw "status_response") statusId "status"
  statusNetwork statusResponse
  let provisional ← verifyFinalizedNativeTransfer rt.native
    (observationInput requestedDeployHash signedDeploy raw)
  let method := methodName provisional.rpcMethod
  let transactionId ← exactRequest dialect (prop raw "transaction_request") method
    (transactionParams provisional.rpcMethod requestedDeployHash) "transaction"
  let transactionResponse ← exactResponse (prop raw "transaction_response") transactionId
    "transaction"
  let _ ← resultValue transactionResponse s!"{method}_result" "transaction"
  let blockId ← exactRequest dialect (prop raw "canonical_block_request") "chain_get_block"
    (blockByHash provisional.blockHash) "canonical block"
  let blockResponse ← exactResponse (prop raw "canonical_block_response") blockId "canonical block"
  let _ ← resultValue blockResponse "chain_get_block_result" "canonical block"
  let transcriptJson ← canonicalTranscriptJson (.object raw) "node observation transcript"
  return ⟨nodeUrl, origin, capturedAt, transcriptJson,
    rt.sha256CanonicalTranscript transcriptJson, provisional⟩

def parseNodes (requestedDeployHash : JsString) (signedDeploy : SignedNativeTransferExpectation) :
    List Value → Except String (List ParsedNode)
  | [] => return []
  | raw :: rest => do
    let node ← parseNode rt requestedDeployHash signedDeploy raw
    let nodes ← parseNodes requestedDeployHash signedDeploy rest
    return node :: nodes

/-- What the nodes have to agree on. -/
structure Agreement where
  deployHash : JsString
  blockHash : JsString
  blockHeight : Nat
  stateRootHash : JsString
  gasMotes : JsString
  deriving DecidableEq

def agreement (facts : FinalizedNativeTransferFacts) : Agreement :=
  ⟨facts.deployHash, facts.blockHash, facts.blockHeight, facts.stateRootHash, facts.gasMotes⟩

def verifyCorroboratedNativeTransfer (input : CorroboratedNativeTransferInput) :
    Except String CorroboratedNativeTransferFacts := do
  require (2 ≤ input.nodeObservations.length)
    "at least two distinct public RPC node observations are required"
  let nodes ← parseNodes rt input.requestedDeployHash input.signedDeploy input.nodeObservations
  require (decide (nodes.map (·.origin)).Nodup)
    "node observations must use distinct public RPC URL origins"
  match nodes with
  | [] => .error "at least two node observations are required"
  | first :: others => do
    require (others.all fun node => agreement node.facts == agreement first.facts)
      "node observations conflict"
    return {
      requestedDeployHash := first.facts.requestedDeployHash
      deployHash := first.facts.deployHash
      network := "casper-test"
      blockHash := first.facts.blockHash
      blockHeight := first.facts.blockHeight
      stateRootHash := first.facts.stateRootHash
      rpcMethod := first.facts.rpcMethod
      executionResultKind := first.facts.executionResultKind
      gasMotes := first.facts.gasMotes
      blockInclusionPath := first.facts.blockInclusionPath
      nodeObservationCount := nodes.length
      corroborationCount := nodes.length - 1
      nodeUrls := nodes.map (·.nodeUrl)
      capturedAt := nodes.map (·.capturedAt)
      rpcMethods := nodes.map (·.facts.rpcMethod)
      nodeObservationJson := nodes.map (·.transcriptJson)
      nodeObservationSha256 := nodes.map (·.transcriptSha256)
      verificationScope
      signedDeploy := first.facts.signedDeploy }

end Verification

/-! Acceptance does not depend on the order of the observations. -/
section Quorum
variable {rt : CasperState.Runtime} {input : CorroboratedNativeTransferInput}
  {facts : CorroboratedNativeTransferFacts}

def CorroboratedNativeTransferFacts.agreement (facts : CorroboratedNativeTransferFacts) :
    Agreement :=
  ⟨facts.deployHash, facts.blockHash, facts.blockHeight, facts.stateRootHash, facts.gasMotes⟩

/-- The observation is accepted as this node's. -/
def Parses (rt : CasperState.Runtime) (input : CorroboratedNativeTransferInput) (raw : Value)
    (node : ParsedNode) : Prop :=
  parseNode rt input.requestedDeployHash input.signedDeploy raw = .ok node

/-- The input with other observations. -/
def CorroboratedNativeTransferInput.observing (input : CorroboratedNativeTransferInput)
    (observations : List Value) : CorroboratedNativeTransferInput :=
  { input with nodeObservations := observations }

theorem mem_of_left {α β : Type} {R : α → β → Prop} {l : List α} {m : List β} {a : α}
    (h : List.Forall₂ R l m) (ha : a ∈ l) : ∃ b ∈ m, R a b := by
  induction h with
  | nil => cases ha
  | cons hab _ ih =>
    rcases List.mem_cons.mp ha with rfl | ha
    · exact ⟨_, List.mem_cons_self, hab⟩
    · obtain ⟨b, hb, hrel⟩ := ih ha
      exact ⟨b, List.mem_cons_of_mem _ hb, hrel⟩

theorem mem_of_right {α β : Type} {R : α → β → Prop} {l : List α} {m : List β} {b : β}
    (h : List.Forall₂ R l m) (hb : b ∈ m) : ∃ a ∈ l, R a b :=
  mem_of_left h.flip hb

theorem parseNodes_iff {raws : List Value} {nodes : List ParsedNode} :
    parseNodes rt input.requestedDeployHash input.signedDeploy raws = .ok nodes ↔
      List.Forall₂ (Parses rt input) raws nodes := by
  induction raws generalizing nodes with
  | nil =>
    constructor
    · intro h
      obtain rfl := Except.ok.inj h
      exact .nil
    · intro h
      cases h
      rfl
  | cons raw rest ih =>
    constructor
    · intro h
      obtain ⟨node, hnode, h⟩ := bind_ok h
      obtain ⟨others, hothers, h⟩ := bind_ok h
      obtain rfl := Except.ok.inj h
      exact .cons hnode (ih.mp hothers)
    · intro h
      cases h with
      | cons hnode hothers =>
        unfold parseNodes
        rw [show parseNode rt input.requestedDeployHash input.signedDeploy raw = .ok _ from hnode]
        simp only [bind, Except.bind]
        rw [ih.mpr hothers]
        rfl

/-- The nodes make a quorum that agrees. -/
structure Agree (nodes : List ParsedNode) (agreed : Agreement) : Prop where
  count : 2 ≤ nodes.length
  origins : (nodes.map (·.origin)).Nodup
  agree : ∀ node ∈ nodes, agreement node.facts = agreed

theorem Agree.perm {nodes others : List ParsedNode} {agreed : Agreement} (h : Agree nodes agreed)
    (hperm : others.Perm nodes) : Agree others agreed where
  count := hperm.length_eq ▸ h.count
  origins := (hperm.map _).nodup_iff.mpr h.origins
  agree := fun node hin => h.agree node (hperm.mem_iff.mp hin)

/-- The observations are accepted when their nodes agree, and say what they agree on. -/
theorem accepted_iff {agreed : Agreement} :
    (∃ facts, verifyCorroboratedNativeTransfer rt input = .ok facts ∧ facts.agreement = agreed) ↔
      ∃ nodes, List.Forall₂ (Parses rt input) input.nodeObservations nodes ∧ Agree nodes agreed := by
  constructor
  · rintro ⟨facts, h, hagreed⟩
    obtain ⟨hcount, h⟩ := require_ok h
    obtain ⟨nodes, hnodes, h⟩ := bind_ok h
    obtain ⟨horigins, h⟩ := require_ok h
    have hparses := parseNodes_iff.mp hnodes
    refine ⟨nodes, hparses, ?_⟩
    cases nodes with
    | nil => cases h
    | cons first others =>
      obtain ⟨hall, h⟩ := require_ok h
      obtain rfl := Except.ok.inj h
      have hfirst : agreement first.facts = agreed := hagreed
      refine ⟨?_, of_decide_eq_true horigins, ?_⟩
      · rw [← hparses.length_eq]
        exact of_decide_eq_true hcount
      · intro node hin
        rcases List.mem_cons.mp hin with rfl | hin
        · exact hfirst
        · rw [← hfirst]
          exact eq_of_beq (List.all_eq_true.mp hall node hin)
  · rintro ⟨nodes, hparses, hagree⟩
    have hcount : decide (2 ≤ input.nodeObservations.length) = true := by
      rw [hparses.length_eq]
      exact decide_eq_true hagree.count
    have horigins : decide (nodes.map (·.origin)).Nodup = true := decide_eq_true hagree.origins
    unfold verifyCorroboratedNativeTransfer
    simp only [bind, Except.bind, require, hcount, if_true, parseNodes_iff.mpr hparses, horigins]
    cases nodes with
    | nil => exact absurd hagree.count (by decide)
    | cons first others =>
      have hall : (others.all fun node => agreement node.facts == agreement first.facts) = true := by
        apply List.all_eq_true.mpr
        intro node hin
        rw [hagree.agree node (List.mem_cons_of_mem _ hin), hagree.agree first List.mem_cons_self]
        exact beq_self_eq_true _
      simp only [hall, if_true]
      exact ⟨_, rfl, hagree.agree first List.mem_cons_self⟩

/-- What one observation proves by itself. -/
theorem parseNode_ok {raw : Value} {node : ParsedNode} (h : Parses rt input raw node) :
    ∃ fields, raw = .object fields ∧
      publicNodeUrl rt (prop fields "node_url") = .ok (node.nodeUrl, node.origin) ∧
      verifyFinalizedNativeTransfer rt.native
        (observationInput input.requestedDeployHash input.signedDeploy fields) = .ok node.facts := by
  obtain ⟨fields, hfields, h⟩ := bind_ok h
  obtain ⟨-, -, h⟩ := bind_ok h
  obtain ⟨⟨nodeUrl, origin⟩, hurl, h⟩ := bind_ok h
  obtain ⟨capturedAt, -, h⟩ := bind_ok h
  obtain ⟨statusId, -, h⟩ := bind_ok h
  obtain ⟨statusResponse, -, h⟩ := bind_ok h
  obtain ⟨-, -, h⟩ := bind_ok h
  obtain ⟨provisional, hfinal, h⟩ := bind_ok h
  obtain ⟨transactionId, -, h⟩ := bind_ok h
  obtain ⟨transactionResponse, -, h⟩ := bind_ok h
  obtain ⟨-, -, h⟩ := bind_ok h
  obtain ⟨blockId, -, h⟩ := bind_ok h
  obtain ⟨blockResponse, -, h⟩ := bind_ok h
  obtain ⟨-, -, h⟩ := bind_ok h
  obtain ⟨transcriptJson, -, h⟩ := bind_ok h
  obtain rfl := Except.ok.inj h
  exact ⟨fields, Rpc.record_ok hfields, hurl, hfinal⟩

theorem finalized_signed {evidence : NativeFinalityInput} {finalized : FinalizedNativeTransferFacts}
    (h : verifyFinalizedNativeTransfer rt.native evidence = .ok finalized) :
    verifySignedNativeTransferDeploy rt.native evidence.signedDeploy = .ok finalized.signedDeploy := by
  obtain ⟨requested, -, h⟩ := bind_ok h
  obtain ⟨observation, -, h⟩ := bind_ok h
  obtain ⟨-, h⟩ := require_ok h
  obtain ⟨block, -, h⟩ := bind_ok h
  obtain ⟨-, h⟩ := require_ok h
  obtain ⟨-, h⟩ := require_ok h
  obtain ⟨signed, hsigned, h⟩ := bind_ok h
  obtain ⟨-, h⟩ := require_ok h
  obtain ⟨-, -, h⟩ := bind_ok h
  obtain rfl := Except.ok.inj h
  exact hsigned

theorem accepted_signed (h : verifyCorroboratedNativeTransfer rt input = .ok facts) :
    verifySignedNativeTransferDeploy rt.native input.signedDeploy = .ok facts.signedDeploy := by
  obtain ⟨-, h⟩ := require_ok h
  obtain ⟨nodes, hnodes, h⟩ := bind_ok h
  obtain ⟨-, h⟩ := require_ok h
  cases nodes with
  | nil => cases h
  | cons first others =>
    obtain ⟨-, h⟩ := require_ok h
    obtain rfl := Except.ok.inj h
    obtain ⟨raw, -, hfirst⟩ := mem_of_right (parseNodes_iff.mp hnodes) List.mem_cons_self
    obtain ⟨fields, -, -, hfinal⟩ := parseNode_ok hfirst
    exact finalized_signed hfinal

/-- The observation alone proves that the signed deploy is final, with the facts agreed on. -/
def Proves (rt : CasperState.Runtime) (input : CorroboratedNativeTransferInput)
    (facts : CorroboratedNativeTransferFacts) (raw : Value) : Prop :=
  ∃ fields finalized, raw = .object fields ∧
    verifyFinalizedNativeTransfer rt.native
      (observationInput input.requestedDeployHash input.signedDeploy fields) = .ok finalized ∧
    finalized.signedDeploy = facts.signedDeploy ∧ agreement finalized = facts.agreement

structure Quorum (rt : CasperState.Runtime) (input : CorroboratedNativeTransferInput)
    (facts : CorroboratedNativeTransferFacts) : Prop where
  count : 2 ≤ input.nodeObservations.length
  proves : ∀ raw ∈ input.nodeObservations, Proves rt input facts raw
  /-- In every order the observations are accepted, with the same facts. -/
  symmetric : ∀ observations, observations.Perm input.nodeObservations → ∃ other,
    verifyCorroboratedNativeTransfer rt (input.observing observations) = .ok other ∧
      other.agreement = facts.agreement
  /-- With one observation more they are refused, or accepted with the same facts. -/
  monotone : ∀ raw observations, observations.Perm (raw :: input.nodeObservations) → ∀ other,
    verifyCorroboratedNativeTransfer rt (input.observing observations) = .ok other →
      other.agreement = facts.agreement

theorem accepted_quorum (h : verifyCorroboratedNativeTransfer rt input = .ok facts) :
    Quorum rt input facts := by
  obtain ⟨nodes, hparses, hagree⟩ := accepted_iff.mp ⟨facts, h, rfl⟩
  refine ⟨hparses.length_eq ▸ hagree.count, ?_, ?_, ?_⟩
  · intro raw hraw
    obtain ⟨node, hnode, hparse⟩ := mem_of_left hparses hraw
    obtain ⟨fields, hfields, -, hfinal⟩ := parseNode_ok hparse
    have hsigned := (finalized_signed hfinal).symm.trans (accepted_signed h)
    exact ⟨fields, node.facts, hfields, hfinal, Except.ok.inj hsigned, hagree.agree node hnode⟩
  · intro observations hperm
    obtain ⟨others, hothers, hnodes⟩ := List.perm_comp_forall₂ hperm hparses
    exact accepted_iff.mpr ⟨others, hothers, hagree.perm hnodes⟩
  · intro raw observations hperm other hother
    obtain ⟨others, hothers, hagreed⟩ := accepted_iff.mp ⟨other, hother, rfl⟩
    -- An observation of the shorter list is parsed to the same node in both.
    obtain ⟨shared, hshared⟩ := List.exists_mem_of_length_pos (Nat.zero_lt_of_lt hagree.count)
    obtain ⟨observation, hin, hparse⟩ := mem_of_right hparses hshared
    obtain ⟨node, hnode, hnodeParse⟩ :=
      mem_of_left hothers (hperm.mem_iff.mpr (List.mem_cons_of_mem raw hin))
    obtain rfl : shared = node := Except.ok.inj (hparse.symm.trans hnodeParse)
    rw [← hagreed.agree shared hnode, hagree.agree shared hshared]

theorem sublist_of_forall₂ {α β : Type} {R : α → β → Prop} {l sub : List α} {m : List β}
    (h : List.Forall₂ R l m) (hsub : sub.Sublist l) :
    ∃ kept, List.Forall₂ R sub kept ∧ kept.Sublist m := by
  induction hsub generalizing m with
  | slnil =>
    cases h
    exact ⟨[], .nil, .slnil⟩
  | cons a _ ih =>
    cases h with
    | cons _ htail =>
      obtain ⟨kept, hkept, hin⟩ := ih htail
      exact ⟨kept, hkept, hin.cons _⟩
  | cons_cons a _ ih =>
    cases h with
    | cons hab htail =>
      obtain ⟨kept, hkept, hin⟩ := ih htail
      exact ⟨_ :: kept, .cons hab hkept, hin.cons_cons _⟩

/-- Any two of the observations are enough. -/
theorem accepted_sublist {observations : List Value}
    (h : verifyCorroboratedNativeTransfer rt input = .ok facts)
    (hsub : observations.Sublist input.nodeObservations) (hcount : 2 ≤ observations.length) :
    ∃ other, verifyCorroboratedNativeTransfer rt (input.observing observations) = .ok other ∧
      other.agreement = facts.agreement := by
  obtain ⟨nodes, hparses, hagree⟩ := accepted_iff.mp ⟨facts, h, rfl⟩
  obtain ⟨kept, hkept, hin⟩ := sublist_of_forall₂ hparses hsub
  refine accepted_iff.mpr ⟨kept, hkept, ?_, (hin.map _).nodup hagree.origins, ?_⟩
  · rw [← hkept.length_eq]
    exact hcount
  · intro node hnode
    exact hagree.agree node (hin.subset hnode)

end Quorum

/-! Which lists name distinct hosts. -/
section Hosts
variable {rt : CasperState.Runtime} {input : CorroboratedNativeTransferInput}
  {facts : CorroboratedNativeTransferFacts}

/-- The origin of an https URL is its scheme, host and port. -/
structure LawfulUrls (rt : CasperState.Runtime) : Prop where
  origin : ∀ url parsed, rt.parseUrl url = some parsed → parsed.protocol = js "https:" →
    parsed.origin = js "https://" ++ parsed.hostname ++
      (if parsed.port.isEmpty then [] else js ":" ++ parsed.port)

/-- The hostname without brackets and without dots at its end, as live mode compares hosts. -/
def normalizeHostname (hostname : JsString) : JsString :=
  let unwrapped :=
    if hostname.head? = some 0x5b ∧ hostname.getLast? = some 0x5d then hostname.tail.dropLast
    else hostname
  (unwrapped.rdropWhile (· == 0x2e)).map lowerUnit

/-- The URL that an observation names. -/
def urlOf (rt : CasperState.Runtime) (raw : Value) : Option CasperState.Url :=
  match raw with
  | .object fields =>
    match prop fields "node_url" with
    | .string url => rt.parseUrl url
    | _ => none
  | _ => none

def hostOf (rt : CasperState.Runtime) (raw : Value) : Option JsString :=
  (urlOf rt raw).map fun parsed => normalizeHostname parsed.hostname

def DistinctHosts (rt : CasperState.Runtime) (observations : List Value) : Prop :=
  (observations.map (hostOf rt)).Nodup

/-- No host is named with two ports or in two spellings. -/
def OneEndpoint (rt : CasperState.Runtime) (observations : List Value) : Prop :=
  observations.Pairwise fun a b => ∀ u ∈ urlOf rt a, ∀ v ∈ urlOf rt b,
    normalizeHostname u.hostname = normalizeHostname v.hostname →
      u.hostname = v.hostname ∧ u.port = v.port

theorem publicNodeUrl_ok {value : Value} {url origin : JsString}
    (h : publicNodeUrl rt value = .ok (url, origin)) :
    value = .string url ∧ ∃ parsed, rt.parseUrl url = some parsed ∧
      parsed.protocol = js "https:" ∧ parsed.origin = origin := by
  cases value with
  | string s =>
    simp only [publicNodeUrl] at h
    split at h
    · cases h
    · split at h
      · cases h
      · next parsed hparsed =>
        split at h
        · next hpublic =>
          obtain ⟨rfl, rfl⟩ := Prod.mk.inj (Except.ok.inj h)
          simp only [isPublicNode, Bool.and_eq_true, beq_iff_eq] at hpublic
          exact ⟨rfl, parsed, hparsed, hpublic.1.1.1.1.1.1.1.1.1.1, rfl⟩
        · cases h
  | _ => cases h

/-- An accepted observation has a URL, which is public and has the node's origin. -/
theorem parses_url {raw : Value} {node : ParsedNode} (h : Parses rt input raw node) :
    ∃ parsed, urlOf rt raw = some parsed ∧ parsed.protocol = js "https:" ∧
      parsed.origin = node.origin := by
  obtain ⟨fields, rfl, hurl, -⟩ := parseNode_ok h
  obtain ⟨hvalue, parsed, hparsed, hprotocol, horigin⟩ := publicNodeUrl_ok hurl
  refine ⟨parsed, ?_, hprotocol, horigin⟩
  unfold urlOf
  simp only [hvalue, hparsed]

theorem urlOf_parsed {raw : Value} {parsed : CasperState.Url} (h : urlOf rt raw = some parsed) :
    ∃ url, rt.parseUrl url = some parsed := by
  unfold urlOf at h
  split at h
  · split at h
    · next url _ => exact ⟨url, h⟩
    · cases h
  · cases h

theorem origins_eq {observations : List Value} {nodes : List ParsedNode}
    (h : List.Forall₂ (Parses rt input) observations nodes) :
    observations.map (fun raw => (urlOf rt raw).map (·.origin)) =
      (nodes.map (·.origin)).map some := by
  induction h with
  | nil => rfl
  | cons hparse _ ih =>
    obtain ⟨parsed, hurl, -, horigin⟩ := parses_url hparse
    rw [List.map_cons, List.map_cons, List.map_cons, ih, hurl, Option.map_some, horigin]

theorem one_endpoint_of_distinct {observations : List Value}
    (h : DistinctHosts rt observations) : OneEndpoint rt observations := by
  apply (List.pairwise_map.mp h).imp
  intro a b hne u hu v hv hsame
  apply absurd _ hne
  rw [hostOf, hostOf, Option.mem_def.mp hu, Option.mem_def.mp hv, Option.map_some, Option.map_some,
    hsame]

/-- Accepted observations make a quorum; their hosts are distinct exactly when none is named with
two ports or in two spellings. -/
theorem corroborated_quorum_iff (hurls : LawfulUrls rt)
    (h : verifyCorroboratedNativeTransfer rt input = .ok facts) :
    (Quorum rt input facts ∧ DistinctHosts rt input.nodeObservations) ↔
      OneEndpoint rt input.nodeObservations := by
  obtain ⟨nodes, hparses, hagree⟩ := accepted_iff.mp ⟨facts, h, rfl⟩
  have horigins : input.nodeObservations.Pairwise fun a b =>
      (urlOf rt a).map (·.origin) ≠ (urlOf rt b).map (·.origin) := by
    apply List.pairwise_map.mp
    rw [origins_eq hparses]
    exact hagree.origins.map (Option.some_injective _)
  constructor
  · rintro ⟨-, hhosts⟩
    exact one_endpoint_of_distinct hhosts
  · intro hone
    refine ⟨accepted_quorum h, List.pairwise_map.mpr ?_⟩
    apply (hone.and horigins).imp_of_mem
    intro a b ha hb hpair hsame
    obtain ⟨hendpoint, hdiffer⟩ := hpair
    obtain ⟨na, -, hna⟩ := mem_of_left hparses ha
    obtain ⟨nb, -, hnb⟩ := mem_of_left hparses hb
    obtain ⟨u, hu, huProtocol, -⟩ := parses_url hna
    obtain ⟨v, hv, hvProtocol, -⟩ := parses_url hnb
    obtain ⟨uText, huParsed⟩ := urlOf_parsed hu
    obtain ⟨vText, hvParsed⟩ := urlOf_parsed hv
    rw [hostOf, hostOf, hu, hv, Option.map_some, Option.map_some] at hsame
    obtain ⟨hhostname, hport⟩ := hendpoint u hu v hv (Option.some.inj hsame)
    apply hdiffer
    rw [hu, hv, Option.map_some, Option.map_some, hurls.origin _ _ huParsed huProtocol,
      hurls.origin _ _ hvParsed hvProtocol, hhostname, hport]

end Hosts

section Sample

def endpoint (host port : String) : CasperState.Url :=
  let shown := if port.isEmpty then js host else js host ++ js ":" ++ js port
  { href := js "https://" ++ shown ++ js "/rpc"
    protocol := js "https:"
    username := []
    password := []
    hostname := js host
    port := js port
    pathname := js "/rpc"
    search := []
    hash := []
    origin := js "https://" ++ shown }

def endpoints : List CasperState.Url :=
  [endpoint "a.example.com" "", endpoint "a.example.com" "8443", endpoint "b.example.com" ""]

/-- The URLs of three endpoints are parsed, two of them on one host. -/
def sampleCasper : CasperState.Runtime where
  native := sampleRuntime
  parseUrl url := endpoints.find? fun parsed => parsed.href == url
  sha256CanonicalTranscript _ := []

def request (method : String) (params : Value) : Value :=
  object [("jsonrpc", NativeFinality.text "2.0"), ("id", .number 1),
    ("method", NativeFinality.text method), ("params", params)]

def response (name : String) (value : Value) : Value :=
  object [("jsonrpc", NativeFinality.text "2.0"), ("id", .number 1),
    ("result", object [("name", NativeFinality.text name), ("value", value)])]

def observation (url : JsString) : Value :=
  object [("node_url", .string url),
    ("captured_at", NativeFinality.text "2026-07-01T12:00:00Z"),
    ("status_request", request "info_get_status" (object [])),
    ("status_response", response "info_get_status_result"
      (object [("chainspec_name", NativeFinality.text "casper-test")])),
    ("transaction_request", request "info_get_deploy"
      (transactionParams .infoGetDeploy (js deployHash))),
    ("transaction_response", response "info_get_deploy_result" (object [
      ("deploy", object [("hash", NativeFinality.text deployHash)]),
      ("execution_info", object [("block_hash", NativeFinality.text blockHash),
        ("block_height", .number 8400123), ("execution_result", version2 .null)])])),
    ("canonical_block_request", request "chain_get_block" (blockByHash (js blockHash))),
    ("canonical_block_response", response "chain_get_block_result" (object [("block", object [
      ("hash", NativeFinality.text blockHash),
      ("header", object [("height", .number 8400123),
        ("state_root_hash", NativeFinality.text payeeHash)]),
      ("body", object [("deploy_hashes", .array [NativeFinality.text deployHash])])])]))]

def corroboratedInput (urls : List JsString) : CorroboratedNativeTransferInput where
  requestedDeployHash := js deployHash
  nodeObservations := urls.map observation
  signedDeploy := (finalityInput []).signedDeploy

def urlA : JsString := (endpoint "a.example.com" "").href
def urlA8443 : JsString := (endpoint "a.example.com" "8443").href
def urlB : JsString := (endpoint "b.example.com" "").href

theorem sampleCasper_lawful : LawfulUrls sampleCasper where
  origin url parsed hparsed _ := by
    have hfound : (endpoints.find? fun endpoint => endpoint.href == url) = some parsed := hparsed
    have hin : parsed ∈ endpoints := List.mem_of_find?_eq_some hfound
    simp only [endpoints, List.mem_cons, List.not_mem_nil, or_false] at hin
    rcases hin with rfl | rfl | rfl
    · decide +kernel
    · decide +kernel
    · decide +kernel

/-- An observation without its URL. -/
def withoutUrl : Fields :=
  match observation [] with
  | .object (_ :: fields) => fields
  | _ => []

theorem prop_withoutUrl {value : Value} {name : String} (h : (js name == js "node_url") = false) :
    prop ((js "node_url", value) :: withoutUrl) name = prop withoutUrl name := by
  simp only [prop, List.lookup_cons, h]

/-- A deploy that is found under its hash, with what the sample's signer has signed. -/
theorem finalized_of {input : NativeFinalityInput} {path : JsString}
    (hrequested : lowerHash input.requestedDeployHash "requested deploy hash" = .ok (js deployHash))
    (hobserved : parseRpcObservation input.rpcPayload = .ok
      ⟨js deployHash, js blockHash, some 8400123, .infoGetDeploy, "Version2", js "100000000"⟩)
    (hblock : parseCanonicalBlock input.canonicalBlockPayload (js deployHash) =
      .ok ⟨js blockHash, 8400123, js payeeHash, path⟩)
    (hsigned : verifySignedNativeTransferDeploy sampleRuntime input.signedDeploy =
      .ok sampleFacts.signedDeploy)
    (hnone : input.corroboratingRpcPayloads = []) :
    verifyFinalizedNativeTransfer sampleRuntime input =
      .ok { sampleFacts with blockInclusionPath := path } := by
  unfold verifyFinalizedNativeTransfer
  simp only [hrequested, hobserved, hblock, hsigned, hnone, bind, Except.bind]
  rfl

/-- What the sample says about its transfer. -/
def nodeFacts : FinalizedNativeTransferFacts :=
  { sampleFacts with blockInclusionPath := js "deploy_hashes" }

theorem sample_final : verifyFinalizedNativeTransfer sampleRuntime
    (observationInput (js deployHash) (finalityInput []).signedDeploy withoutUrl) = .ok nodeFacts := by
  apply finalized_of
  · change lowerHash (text deployHash) _ = _
    decide +kernel
  · change parseRpcObservation (prop withoutUrl "transaction_response") = _
    decide +kernel
  · change parseCanonicalBlock (prop withoutUrl "canonical_block_response") _ = _
    decide +kernel
  · exact sample_signed []
  · rfl

/-- The checks of an observation one by one, those of a recorded call together. -/
theorem parses_of {rt : CasperState.Runtime} {input : CorroboratedNativeTransferInput} {raw : Fields}
    {nodeUrl origin capturedAt transcript : JsString} {facts : FinalizedNativeTransferFacts}
    (hkeys : exactOwnKeys dialect raw nodeFields "node observation" = .ok ())
    (hurl : publicNodeUrl rt (prop raw "node_url") = .ok (nodeUrl, origin))
    (hcaptured : canonicalCapturedAt (prop raw "captured_at") = .ok capturedAt)
    (hstatus : (do
      let id ← exactRequest dialect (prop raw "status_request") "info_get_status" (literal []) "status"
      let response ← exactResponse (prop raw "status_response") id "status"
      statusNetwork response : Except String Unit) = .ok ())
    (hfinal : verifyFinalizedNativeTransfer rt.native
      (observationInput input.requestedDeployHash input.signedDeploy raw) = .ok facts)
    (htransaction : (do
      let id ← exactRequest dialect (prop raw "transaction_request") (methodName facts.rpcMethod)
        (transactionParams facts.rpcMethod input.requestedDeployHash) "transaction"
      let response ← exactResponse (prop raw "transaction_response") id "transaction"
      let _ ← resultValue response s!"{methodName facts.rpcMethod}_result" "transaction" :
        Except String Unit) = .ok ())
    (hblock : (do
      let id ← exactRequest dialect (prop raw "canonical_block_request") "chain_get_block"
        (blockByHash facts.blockHash) "canonical block"
      let response ← exactResponse (prop raw "canonical_block_response") id "canonical block"
      let _ ← resultValue response "chain_get_block_result" "canonical block" : Except String Unit) =
        .ok ())
    (htranscript : canonicalTranscriptJson (.object raw) "node observation transcript" =
      .ok transcript) :
    Parses rt input (.object raw) ⟨nodeUrl, origin, capturedAt, transcript,
      rt.sha256CanonicalTranscript transcript, facts⟩ := by
  obtain ⟨statusId, hstatusId, hstatus⟩ := bind_ok hstatus
  obtain ⟨status, hstatusResponse, hnetwork⟩ := bind_ok hstatus
  obtain ⟨transactionId, htransactionId, htransaction⟩ := bind_ok htransaction
  obtain ⟨transaction, htransactionResponse, htransaction⟩ := bind_ok htransaction
  obtain ⟨transactionValue, htransactionValue, -⟩ := bind_ok htransaction
  obtain ⟨blockId, hblockId, hblock⟩ := bind_ok hblock
  obtain ⟨block, hblockResponse, hblock⟩ := bind_ok hblock
  obtain ⟨blockValue, hblockValue, -⟩ := bind_ok hblock
  unfold Parses parseNode
  simp only [Rpc.record, bind, Except.bind, hkeys, hurl, hcaptured, hstatusId, hstatusResponse,
    hnetwork, hfinal, htransactionId, htransactionResponse, htransactionValue, hblockId,
    hblockResponse, hblockValue, htranscript]
  rfl

theorem sample_keys : exactOwnKeys dialect ((js "node_url", .null) :: withoutUrl) nodeFields
    "node observation" = .ok () := by decide +kernel

/-- An observation with a canonical transcript is accepted, whatever its node. -/
theorem sample_parses {url origin transcript : JsString} (urls : List JsString)
    (hurl : publicNodeUrl sampleCasper (.string url) = .ok (url, origin))
    (htranscript : canonicalTranscriptJson (observation url) "node observation transcript" =
      .ok transcript) :
    Parses sampleCasper (corroboratedInput urls) (observation url)
      ⟨url, origin, js "2026-07-01T12:00:00Z", transcript, [], nodeFacts⟩ := by
  have hobservation : observation url = .object ((js "node_url", .string url) :: withoutUrl) := rfl
  rw [hobservation] at htranscript ⊢
  have hother {name : String} (h : (js name == js "node_url") = false) :
      prop ((js "node_url", .string url) :: withoutUrl) name = prop withoutUrl name :=
    prop_withoutUrl h
  apply parses_of
  · exact sample_keys
  · rw [prop, List.lookup_cons_self]
    exact hurl
  · rw [hother (by decide)]
    decide +kernel
  · rw [hother (by decide), hother (by decide)]
    decide +kernel
  · have hinput : observationInput (js deployHash) (finalityInput []).signedDeploy
        ((js "node_url", .string url) :: withoutUrl) =
          observationInput (js deployHash) (finalityInput []).signedDeploy withoutUrl := by
      rw [observationInput, hother (by decide), hother (by decide), ← observationInput]
    exact (congrArg (verifyFinalizedNativeTransfer sampleRuntime) hinput).trans sample_final
  · rw [hother (by decide), hother (by decide)]
    change (do
      let id ← exactRequest dialect (prop withoutUrl "transaction_request") "info_get_deploy"
        (transactionParams .infoGetDeploy (js deployHash)) "transaction"
      let response ← exactResponse (prop withoutUrl "transaction_response") id "transaction"
      let _ ← resultValue response "info_get_deploy_result" "transaction" : Except String Unit) =
        .ok ()
    decide +kernel
  · rw [hother (by decide), hother (by decide)]
    change (do
      let id ← exactRequest dialect (prop withoutUrl "canonical_block_request") "chain_get_block"
        (blockByHash (js blockHash)) "canonical block"
      let response ← exactResponse (prop withoutUrl "canonical_block_response") id "canonical block"
      let _ ← resultValue response "chain_get_block_result" "canonical block" :
        Except String Unit) = .ok ()
    decide +kernel
  · exact htranscript

/-- An observation has a canonical transcript; a value, as the next evaluation waits for it. -/
abbrev Transcribed (url : JsString) : Type :=
  PLift ((canonicalTranscriptJson (observation url) "node observation transcript").isOk = true)

def transcribedA : Transcribed urlA where
  down := by decide +kernel

def transcribedA8443 : Transcribed urlA8443 where
  down := by decide +kernel

def transcribedB : Transcribed urlB where
  down := by decide +kernel

theorem Transcribed.parses {url origin : JsString} (h : Transcribed url) (urls : List JsString)
    (hurl : publicNodeUrl sampleCasper (.string url) = .ok (url, origin)) :
    ∃ node, Parses sampleCasper (corroboratedInput urls) (observation url) node ∧
      node.origin = origin ∧ node.facts = nodeFacts := by
  have hok := h.down
  cases htranscript : canonicalTranscriptJson (observation url) "node observation transcript" with
  | error message =>
    rw [htranscript] at hok
    cases hok
  | ok transcript => exact ⟨_, sample_parses urls hurl htranscript, rfl, rfl⟩

/-- All three are accepted. -/
theorem sample_accepted : ∃ facts, verifyCorroboratedNativeTransfer sampleCasper
    (corroboratedInput [urlA, urlA8443, urlB]) = .ok facts := by
  obtain ⟨a, hparsesA, horiginA, hfactsA⟩ := transcribedA.parses [urlA, urlA8443, urlB]
    (by decide +kernel : publicNodeUrl sampleCasper (.string urlA) =
      .ok (urlA, (endpoint "a.example.com" "").origin))
  obtain ⟨b, hparsesB, horiginB, hfactsB⟩ := transcribedA8443.parses [urlA, urlA8443, urlB]
    (by decide +kernel : publicNodeUrl sampleCasper (.string urlA8443) =
      .ok (urlA8443, (endpoint "a.example.com" "8443").origin))
  obtain ⟨c, hparsesC, horiginC, hfactsC⟩ := transcribedB.parses [urlA, urlA8443, urlB]
    (by decide +kernel : publicNodeUrl sampleCasper (.string urlB) =
      .ok (urlB, (endpoint "b.example.com" "").origin))
  have horigins : ([a, b, c].map (·.origin)).Nodup := by
    rw [List.map_cons, List.map_cons, List.map_singleton, horiginA, horiginB, horiginC]
    decide +kernel
  have hparses : List.Forall₂ (Parses sampleCasper (corroboratedInput [urlA, urlA8443, urlB]))
      (corroboratedInput [urlA, urlA8443, urlB]).nodeObservations [a, b, c] :=
    .cons hparsesA (.cons hparsesB (.cons hparsesC .nil))
  have hagree : Agree [a, b, c] (agreement nodeFacts) := by
    refine ⟨Nat.le_succ 2, horigins, ?_⟩
    intro node hin
    simp only [List.mem_cons, List.not_mem_nil, or_false] at hin
    rcases hin with rfl | rfl | rfl
    · rw [hfactsA]
    · rw [hfactsB]
    · rw [hfactsC]
  obtain ⟨facts, haccepted, -⟩ := accepted_iff.mpr ⟨[a, b, c], hparses, hagree⟩
  exact ⟨facts, haccepted⟩

/-- Any two of the three are accepted. -/
theorem pair_accepted {urls : List JsString} (hsub : urls.Sublist [urlA, urlA8443, urlB])
    (hcount : urls.length = 2) :
    ∃ facts, verifyCorroboratedNativeTransfer sampleCasper (corroboratedInput urls) = .ok facts := by
  obtain ⟨all, hall⟩ := sample_accepted
  have hobservations : 2 ≤ (urls.map observation).length := by
    rw [List.length_map, hcount]
  obtain ⟨other, hother, -⟩ := accepted_sublist hall (hsub.map observation) hobservations
  exact ⟨other, hother⟩

theorem corroborated_quorum_iff_sample : ∃ facts,
    Quorum sampleCasper (corroboratedInput [urlA, urlB]) facts ∧
      DistinctHosts sampleCasper (corroboratedInput [urlA, urlB]).nodeObservations := by
  obtain ⟨facts, haccepted⟩ := @pair_accepted [urlA, urlB]
    (.cons_cons _ (.cons _ (.refl _))) rfl
  refine ⟨facts, (corroborated_quorum_iff sampleCasper_lawful haccepted).mpr ?_⟩
  apply one_endpoint_of_distinct
  change ([urlA, urlB].map observation |>.map (hostOf sampleCasper)).Nodup
  decide +kernel

/-- Two ports of one host are accepted as two nodes. -/
theorem ports_accepted :
    ¬ ∀ (rt : CasperState.Runtime) (input : CorroboratedNativeTransferInput)
      (facts : CorroboratedNativeTransferFacts), LawfulUrls rt →
        verifyCorroboratedNativeTransfer rt input = .ok facts →
          DistinctHosts rt input.nodeObservations := by
  intro hall
  obtain ⟨facts, haccepted⟩ := @pair_accepted [urlA, urlA8443]
    (.cons_cons _ (.cons_cons _ (.cons _ .slnil))) rfl
  have hhosts := hall sampleCasper _ facts sampleCasper_lawful haccepted
  change ([urlA, urlA8443].map observation |>.map (hostOf sampleCasper)).Nodup at hhosts
  exact absurd hhosts (by decide +kernel)

end Sample
end Concordia.Verify.MultiNodeFinality
