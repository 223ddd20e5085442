import Concordia.Gateway.Operations

/-! The card models: which fields a card of each type has, and what validation makes of a
dictionary. Coercions between JSON types are left out; times and the range of a float are read by
the two functions of `Formats`. -/
namespace Concordia.Gateway
open Concordia.Python Concordia.Lib.Transactions Concordia.Lib.Transition
open Concordia.Js hiding Value

section WellFormed
variable (floats : FloatFormat)

/-- The number text that a float text is read from. -/
def readsFloat (text : Str) : Bool :=
  match Js.Json.matchNumber text with
  | some (n, []) => isFloat n && floats.repr n == text
  | _ => false

theorem readsFloat_iff {text : Str} : readsFloat floats text = true ↔
    ∃ n, Js.Json.matchNumber text = some (n, []) ∧ isFloat n = true ∧ floats.repr n = text := by
  unfold readsFloat
  split
  · rename_i n hmatch
    simp [hmatch]
  · rename_i hother
    constructor
    · intro h
      cases h
    · rintro ⟨n, hmatch, -⟩
      exact absurd hmatch (hother n)

instance (text : Str) : Decidable (FloatText floats.repr text) :=
  decidable_of_iff (text = nanText ∨ text = infinityText ∨ text = minusInfinityText ∨
    readsFloat floats text = true) (by rw [FloatText, readsFloat_iff])

mutual

/-- `WellFormed`, as a test. -/
def formed : Value → Bool
  | .float text => decide (FloatText floats.repr text)
  | .list elements => formedElements elements
  | .dict items => decide (items.map Prod.fst).Nodup && formedItems items
  | _ => true

def formedElements : List Value → Bool
  | [] => true
  | v :: rest => formed v && formedElements rest

def formedItems : List (Str × Value) → Bool
  | [] => true
  | item :: rest => formed item.2 && formedItems rest

end

mutual

theorem formed_iff : ∀ {v : Value}, formed floats v = true ↔ WellFormed floats v
  | .none | .bool _ | .int _ | .str _ => by simp [formed, WellFormed]
  | .float text => by simp [formed, WellFormed]
  | .list elements => by rw [formed, WellFormed, formedElements_iff]
  | .dict items => by
    rw [formed, WellFormed, Bool.and_eq_true, decide_eq_true_iff, formedItems_iff]

theorem formedElements_iff : ∀ {elements : List Value},
    formedElements floats elements = true ↔ WellFormedElements floats elements
  | [] => by simp [formedElements, WellFormedElements]
  | v :: rest => by
    rw [formedElements, WellFormedElements, Bool.and_eq_true, formed_iff, formedElements_iff]

theorem formedItems_iff : ∀ {items : List (Str × Value)},
    formedItems floats items = true ↔ WellFormedItems floats items
  | [] => by simp [formedItems, WellFormedItems]
  | item :: rest => by
    rw [formedItems, WellFormedItems, Bool.and_eq_true, formed_iff, formedItems_iff]

end
end WellFormed

section Fields

/-- The types of the fields. -/
inductive FieldKind where
  | text | integer | boolean | fraction | moment | object
  | literal (choices : List String)
  | nullable (kind : FieldKind)
  | listOf (kind : FieldKind)

structure Field where
  name : String
  kind : FieldKind
  /-- `none` is a required field. -/
  default : Option Value

/-- How times are written (`str` of what is parsed), and which floats lie between 0 and 1. -/
structure Formats where
  moment : Str → Option Str
  fraction : Str → Bool

def FieldKind.read (formats : Formats) : FieldKind → Value → Option Value
  | .text, .str s => some (.str s)
  | .integer, .int n => some (.int n)
  | .boolean, .bool b => some (.bool b)
  | .fraction, .float written => if formats.fraction written then some (.float written) else none
  | .moment, .str s => (formats.moment s).map .str
  | .object, .dict d => some (.dict d)
  | .literal choices, .str s => if isAmong choices s then some (.str s) else none
  | .nullable _, .none => some .none
  | .nullable kind, v => kind.read formats v
  | .listOf kind, .list elements => (elements.mapM (kind.read formats)).map .list
  | _, _ => none

/-- The fields of a model, in its order; other keys are ignored. -/
def readFields (formats : Formats) (fields : List Field) (d : Dict) : Option Dict :=
  fields.mapM fun field =>
    let v := match d.lookup (js field.name) with
      | some v => field.kind.read formats v
      | none => field.default
    v.map fun v => (js field.name, v)

def required (name : String) (kind : FieldKind) : Field := ⟨name, kind, none⟩

def optional (name : String) (kind : FieldKind) : Field := ⟨name, .nullable kind, some .none⟩

def withDefault (name : String) (kind : FieldKind) (v : Value) : Field := ⟨name, kind, some v⟩

/-- `CardBase`; the `card_hash` is not dumped. -/
def cardBase : List Field :=
  [optional "sequence_number" .integer, optional "previous_card_hash" .text]

/-- The type tag, which every model has as a literal with itself as default. -/
def cardTypeField (t : CardType) : Field :=
  withDefault "card_type" (.literal [t.name]) (.str t.column)

/-- `ExecutionEnvelope`. -/
def executionEnvelope : List Field :=
  [required "action_id" .text, required "target" .text, withDefault "parameters" .object (.dict []),
    withDefault "timeout_seconds" .integer (.int 300), optional "fallback_action" .text]

def severities : List String := ["critical", "high", "medium", "low", "P1", "P2", "P3", "P4"]

def texts (name : String) : Field := withDefault name (.listOf .text) (.list [])

def objects (name : String) : Field := withDefault name (.listOf .object) (.list [])

/-- The fields of the models behind the tag. -/
def modelFields : CardType → List Field
  | .proposalCard => [required "signal_id" .text,
      required "source" (.literal
        ["governance_feed", "treasury_metrics", "casper_events", "rwa_oracle"]),
      required "timestamp" .moment, required "title" .text,
      withDefault "raw_payload" .object (.dict []), required "fingerprint" .text,
      withDefault "preliminary_severity" (.literal (severities ++ ["unknown"])) (.str (js "unknown")),
      withDefault "security_relevant" .boolean (.bool false)]
  | .triageDecision => [required "proposal_id" .text, required "signal_id" .text,
      required "decision" (.literal ["route", "suppress"]),
      withDefault "noise_score" .fraction (.float (js "0.0")), optional "suppression_rule_id" .text,
      withDefault "reasoning" .text (.str [])]
  | .assessment => [required "proposal_id" .text, required "severity" (.literal severities),
      required "evidence_strength" .fraction, texts "blast_radius",
      required "root_cause_hypothesis" .text, required "recommended_action" .text,
      withDefault "evidence" .object (.dict []), withDefault "revision" .integer (.int 1),
      withDefault "state" .text (.str (js "assessed"))]
  | .verdict => [required "proposal_id" .text,
      required "decision" (.literal ["CONFIRM", "CHALLENGE", "FALSE_ALARM", "NEEDS_HUMAN"]),
      texts "cross_check_sources", required "reasoning" .text,
      required "agrees_with_diagnosis" .boolean, optional "challenge_request" .text,
      optional "suppression_advice" .text, optional "policy_hash" .text,
      optional "policy_version" .text, optional "dissent_hash" .text,
      optional "dissent_receipt" .object, objects "violated_rules"]
  | .responsePlan => [required "proposal_id" .text,
      required "runbook" (.literal ["RB-001", "RB-002", "RB-003", "RB-004", "RB-005", "RB-006"]),
      objects "envelopes", required "risk_level" (.literal ["low", "medium", "high", "critical"]),
      required "requires_human_approval" .boolean, optional "priority_rank" .integer,
      withDefault "revision" .integer (.int 1)]
  | .structuredApproval => [required "proposal_id" .text, required "action_id" .text,
      required "action_hash" .text,
      required "decision" (.literal ["APPROVED", "REJECTED", "FALSE_ALARM"]),
      required "approver_id" .text, withDefault "room_message_id" .text (.str []),
      withDefault "legacy_room_id" .text (.str []), required "plan_hash" .text,
      required "nonce" .text, required "expiry" .moment, optional "reason" .text,
      withDefault "approval_channel" (.literal ["room", "gateway_ui"]) (.str (js "room")),
      withDefault "runbook_version" .text (.str (js "1.0")),
      withDefault "plan_revision" .integer (.int 1)]
  | .policyAuthorization => [required "proposal_id" .text, required "authorization_id" .text,
      required "plan_hash" .text, required "action_hash" .text,
      required "risk_level" (.literal ["low", "medium"]), required "policy_rule" .text,
      required "expiry" .moment, objects "envelopes",
      withDefault "runbook_version" .text (.str (js "1.0"))]
  | .casperExecutionReceipt => [required "proposal_id" .text,
      required "authorization_type" (.literal ["human_approval", "policy"]),
      required "authorization_id" .text, objects "actions_taken", objects "timeline",
      withDefault "governance_archive" .object (.dict []),
      withDefault "resolution_summary" .text (.str []),
      withDefault "state" .text (.str (js "executed"))]
  | .governanceSummary => [required "proposal_id" .text,
      withDefault "timeline_summary" .text (.str []), withDefault "root_cause" .text (.str []),
      texts "what_worked", texts "action_items"]

/-- The envelopes of a plan are models of their own. -/
def readEnvelopes (formats : Formats) (t : CardType) (dump : Dict) : Option Dict :=
  if t == .responsePlan then
    ((dictsOf (dump.get "envelopes")).mapM (readFields formats executionEnvelope)).map fun envelopes =>
      dump.set (js "envelopes") (.list (envelopes.map .dict))
  else some dump

/-- `CARD_TYPES[card_type].model_validate(data)`, by its dump. -/
def readModel (formats : Formats) (t : CardType) (data : Dict) : Option Dict :=
  if (FieldKind.nullable .text).read formats (data.get "card_hash") |>.isNone then none
  else (readFields formats (cardBase ++ cardTypeField t :: modelFields t) data).bind
    (readEnvelopes formats t)

/-- The validated card; what comes out of `json.loads` is always well formed. -/
def validateModel (floats : FloatFormat) (formats : Formats) (t : CardType) (data : Dict) :
    Option (Card floats) :=
  match readModel formats t data with
  | some dump =>
    if h : formed floats (.dict dump) = true ∧ isOptStr (dump.get "card_type") (some t.column) = true
    then some ⟨t, dump, (formed_iff floats).mp h.1, isOptStr_iff.mp h.2⟩
    else none
  | none => none

theorem validateModel_cardType (floats : FloatFormat) (formats : Formats) (t : CardType)
    (data : Dict) (card : Card floats) (h : validateModel floats formats t data = some card) :
    card.cardType = t := by
  unfold validateModel at h
  split at h
  · split at h
    · rw [← Option.some.inj h]
    · cases h
  · cases h

end Fields

section Sample

/-- `float.__repr__`, on the two numbers of the sample cards. -/
def sampleFloats : FloatFormat where
  repr n := if n = ⟨false, js "0", some (js "9"), none⟩ then js "0.9"
    else if n = ⟨false, js "0", some (js "0"), none⟩ then js "0.0" else nanText
  repr_float n _ := by
    split
    · subst n
      exact .inr (.inr (.inr ⟨_, rfl, rfl, by decide +kernel⟩))
    · split
      · subst n
        exact .inr (.inr (.inr ⟨_, rfl, rfl, by decide +kernel⟩))
      · exact .inl rfl

/-- A digest that is quick to compute. -/
def sampleDigest (bytes : List UInt8) : Contract.Bytes32 :=
  let h := bytes.foldl (fun h b => (h * 1099511628211 + b.toNat + 1) % (2 ^ 256 - 189))
    14695981039346656037
  Vector.ofFn fun i : Fin 32 => UInt8.ofNat (h / 256 ^ (i : Nat))

/-- A deployment with the models above; every role has a key. -/
def sampleEnv : Env where
  floats := sampleFloats
  sha256 := sampleDigest
  modelValidate := validateModel sampleFloats ⟨some, fun text => isAmong ["0.0", "0.9"] text⟩
  validated := validateModel_cardType _ _
  repr s := js "'" ++ s ++ js "'"
  stripLower s := s
  strip s := s
  strTime t := dumpsInt t
  formatCardMessage d := strField d "card_hash"
  agentKeys := [(js "key-recorder", .recorder), (js "key-triage", .triage),
    (js "key-diagnosis", .diagnosis), (js "key-safety", .safetyReviewer),
    (js "key-commander", .commander), (js "key-operator", .operator),
    (js "key-gateway", .gateway)]
  roomKeys key := if key = js "key-recorder" then some (js "recorder") else none
  humanApproverIds := [js "human-1"]
  requiresMultisig := true
  operatorAgentId := js "operator"
  commanderAgentId := js "commander"
  recorderAgentId := js "recorder"
  testMode := false

def sampleDraws : Draws := ⟨0, js "12345678-1234-1234-1234-123456789abc", js "NONCE2"⟩

/-- The recorder prepares the card of a new proposal. -/
def sampleProposal : Action :=
  .request (.prepare (js "ProposalCard") (js "key-recorder") none
    [(js "signal_id", .str (js "P1")), (js "source", .str (js "governance_feed")),
      (js "timestamp", .str (js "2026-01-01 00:00:00+00:00")), (js "title", .str (js "Rebalance")),
      (js "fingerprint", .str (js "f1"))]) sampleDraws

/-- The sentinel prepares its routing decision. -/
def sampleTriage : Action :=
  .request (.prepare (js "TriageDecision") (js "key-triage") none
    [(js "proposal_id", .str (js "P1")), (js "signal_id", .str (js "P1")),
      (js "decision", .str (js "route"))])
    { sampleDraws with uuid := js "22345678-1234-1234-1234-123456789abc" }

/-- The proposal and its routing decision, each prepared and sealed. -/
def sampleActions : List Action :=
  [sampleProposal, .resume 0 sampleDraws, sampleTriage, .resume 0 sampleDraws]

def sampleSealed : Sys sampleEnv × List Action :=
  run (step sampleEnv) (Sys.initial sampleEnv) sampleActions

/-- Actions that depend on the state they are played in, for the hashes that they name. -/
abbrev Script := List (Sys sampleEnv → Action)

def play (start : Sys sampleEnv × List Action) (script : Script) : Sys sampleEnv × List Action :=
  script.foldl (fun c action => attempt (step sampleEnv) c (action c.1)) start

theorem play_accepts {log : List Action} {sys : Sys sampleEnv} (script : Script)
    (h : Accepts (step sampleEnv) (Sys.initial sampleEnv) log sys) :
    Accepts (step sampleEnv) (Sys.initial sampleEnv) (play (sys, log) script).2
      (play (sys, log) script).1 := by
  induction script generalizing sys log with
  | nil => exact h
  | cons action script ih => exact ih (attempt_accepts h (action sys))

def sampleUuid (n : Nat) : Str := decimal (10000000 + n) ++ js "-1234-1234-1234-123456789abc"

def drawsAt (n : Nat) : Draws := ⟨n, sampleUuid n, js "NONCE" ++ decimal n⟩

/-- The hash of the `i`th card. -/
def hashOf (sys : Sys sampleEnv) (i : Nat) : Str := (sys.db.cards[i]?.map (·.cardHash)).getD []

def sampleBody (fields : List (String × Value)) : Dict :=
  (js "proposal_id", .str (js "P1")) :: fields.map fun e => (js e.1, e.2)

/-- A card is prepared and sealed. -/
def sealing (n : Nat) (t : CardType) (key : String) (fields : List (String × Value)) : Script :=
  [fun _ => .request (.prepare t.column (js key) (some (sampleUuid n)) (sampleBody fields)) (drawsAt n),
    fun _ => .resume 0 (drawsAt n)]

/-- The `i`th card is posted to the room. -/
def posting (n i : Nat) (role : Role) : Script :=
  [fun sys => .request (.postMessage (js "key-recorder") (js "room-" ++ sampleUuid 0) (hashOf sys i)
    (some (js role.name)) []) (drawsAt n)]

/-- The `i`th card, prepared under `n`, is to be confirmed. -/
def claiming (n i : Nat) (key : String) : Script :=
  [fun sys => .request (.confirm (js key)
    ⟨sampleUuid n, js "msg-" ++ sampleUuid n, js "P1", hashOf sys i, none⟩) (drawsAt n)]

def resuming (n : Nat) : Script := [fun _ => .resume 0 (drawsAt n)]

/-- The same resumptions behind `k` jobs that are left alone. -/
def behind (k : Nat) (script : Script) : Script :=
  script.map fun action sys =>
    match action sys with
    | .resume i draws => .resume (i + k) draws
    | request => request

/-- A card goes all the way. -/
def publishing (n i : Nat) (t : CardType) (role : Role) (key : String)
    (fields : List (String × Value)) : Script :=
  sealing n t key fields ++ posting n i role ++ claiming n i key ++ resuming n

/-- The proposal, and its room. -/
def opening : Script :=
  [fun _ => sampleProposal, fun _ => .resume 0 sampleDraws,
    fun _ => .request (.createRoom (js "key-recorder") (some (js "P1"))) (drawsAt 0)]

def triaging (n i : Nat) : Script :=
  publishing n i .triageDecision .triage "key-triage"
    [("signal_id", .str (js "P1")), ("decision", .str (js "route"))]

def assessing (severity : String) : List (String × Value) :=
  [("severity", .str (js severity)), ("evidence_strength", .float (js "0.9")),
    ("root_cause_hypothesis", .str (js "h")), ("recommended_action", .str (js "r"))]

/-- Triage, assessment and verdict. -/
def reviewing (severity : String) : Script :=
  triaging 1 1 ++
    publishing 2 2 .assessment .diagnosis "key-diagnosis" (assessing severity) ++
    publishing 3 3 .verdict .safetyReviewer "key-safety" [("decision", .str (js "CONFIRM")),
      ("reasoning", .str (js "ok")), ("agrees_with_diagnosis", .bool true)]

/-- A plan with one envelope. -/
def planOf (action risk : String) : List (String × Value) :=
  [("runbook", .str (js "RB-001")), ("envelopes", .list [.dict [(js "action_id", .str (js action)),
    (js "target", .str (js "dao"))]]), ("risk_level", .str (js risk)),
    ("requires_human_approval", .bool false)]

def planning (n i : Nat) (action risk : String) : Script :=
  publishing n i .responsePlan .commander "key-commander" (planOf action risk)

/-- A nonce is created and challenged. -/
def challenging (n : Nat) : Script :=
  [fun _ => .request (.createNonce (js "key-commander") (js "P1")) (drawsAt n)] ++ resuming n ++
    [fun _ => .request (.challenge (js "key-commander") (js "P1") (drawsAt n).nonce (js "Approve?"))
      (drawsAt n)] ++ resuming n ++ resuming n

/-- The approver sends the plan back, under the nonce of `m`. -/
def revising (n m : Nat) : Script :=
  [fun _ => .request (.decide (js "human-1") (js "P1") (drawsAt m).nonce (.revise (js "redo")))
    (drawsAt n)] ++ resuming n

/-- The nonce of `m` is to be consumed. -/
def consuming (n m : Nat) : Script :=
  [fun sys =>
    let hashes := (sys.db.nonce (js "P1") (drawsAt m).nonce).map fun r => (r.planHash, r.actionHash)
    .request (.consumeNonce (js "key-operator") ⟨js "P1", (drawsAt m).nonce, (hashes.map (·.1)).getD [],
      (hashes.map (·.2)).getD [], js "human-1", js "m", js "room"⟩) (drawsAt n)]

/-- A receipt that names the authorization `id`. -/
def receiving (n i : Nat) (id : String) : Script :=
  publishing n i .casperExecutionReceipt .operator "key-operator"
    [("authorization_type", .str (js "human_approval")), ("authorization_id", .str (js id))]

def sampleStart : Sys sampleEnv × List Action := (Sys.initial sampleEnv, [])

end Sample
end Concordia.Gateway
