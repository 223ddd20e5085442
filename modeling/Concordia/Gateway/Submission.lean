import Concordia.Gateway.Rooms

/-! Preparing a card and confirming its publication. A route is cut where it opens a
transaction: what it read until then goes along in a request of its own. -/
namespace Concordia.Gateway
open Concordia.Python Concordia.Lib.Transactions Concordia.Lib.Transactions.Program
open Concordia.Js hiding Value

variable (env : Env)

section States

/-- `_BASE_TRANSITIONS`. -/
def baseTransition : CardType → Option ProposalState
  | .proposalCard => some .detected
  | .triageDecision => some .triaged
  | .assessment => some .assessed
  | .verdict => none
  | .responsePlan => some .planned
  | .structuredApproval => some .approved
  | .policyAuthorization => some .authorized
  | .casperExecutionReceipt => some .executed
  | .governanceSummary => some .resolved

/-- `_OUTCOME_TRANSITIONS`. -/
def outcomeTransitions : List ((CardType × String) × ProposalState) :=
  [((.verdict, "CONFIRM"), .reviewed), ((.verdict, "CHALLENGE"), .challenged),
    ((.verdict, "FALSE_ALARM"), .closedFalseAlarm), ((.verdict, "NEEDS_HUMAN"), .escalatedHuman),
    ((.triageDecision, "route"), .triaged), ((.triageDecision, "suppress"), .suppressed),
    ((.structuredApproval, "APPROVED"), .approved), ((.structuredApproval, "REJECTED"), .rejected),
    ((.structuredApproval, "FALSE_ALARM"), .closedFalseAlarm)]

/-- `_resolve_state`, on the parsed card. -/
def resolveStateOf (cardType : CardType) (data : Dict) : Option ProposalState :=
  let outcome := match data.get "decision" with
    | .str decision => outcomeTransitions.find? fun (entry : (CardType × String) × ProposalState) =>
        entry.1.1 == cardType && js entry.1.2 == decision
    | _ => none
  match outcome with
  | some entry => some entry.2
  | none => baseTransition cardType

/-- `_STATE_PREREQUISITES`. -/
def statePrerequisites : CardType → Option (List ProposalState)
  | .proposalCard => none
  | .triageDecision => some [.detected]
  | .assessment => some [.triaged, .challenged]
  | .verdict => some [.assessed]
  | .responsePlan => some [.reviewed, .rejected, .escalatedHuman]
  | .structuredApproval => some [.planned]
  | .policyAuthorization => some [.planned]
  | .casperExecutionReceipt => some [.approved, .authorized]
  | .governanceSummary => some [.executed]

/-- `_ROLE_ACL`. -/
def roleMaySubmit : Role → CardType → Bool
  | .recorder, t => t == .proposalCard
  | .triage, t => t == .triageDecision
  | .diagnosis, t => t == .assessment
  | .safetyReviewer, t => t == .verdict
  | .commander, t => t == .responsePlan
  | .operator, t => t == .casperExecutionReceipt
  | .gateway, _ => true

/-- `sorted(states)`, as Python prints the list. -/
def sortedStates (states : List ProposalState) : Str :=
  let names := (states.map fun s => js s.name).insertionSort fun a b => strLe a b
  js "[" ++ (js ", ").intercalate (names.map fun name => js "'" ++ name ++ js "'") ++ js "]"

end States

section Keys

/-- `_authenticate_agent`: the role, or the status and the detail of the refusal. -/
def authenticateAgent (key : Str) (cardType : CardType) : Except PyException Role :=
  if key = [] then .error (.http 401 (js "Missing agent key"))
  else if env.agentKeys.isEmpty then
    .error (.http 401 (js "No submission keys configured — all requests rejected"))
  else
    match env.agentKeys.lookup key with
    | none => .error (.http 401 (js "Invalid agent key"))
    | some role =>
      if roleMaySubmit role cardType then .ok role
      else .error (.http 403 (js s!"Agent role '{role.name}' cannot submit {cardType.name}"))

/-- The authentication of the other routes: a key of one of the roles. -/
def authenticateRole (allowed : List Role) (noKeys : String) (refusal : Role → Str) (key : Str) :
    Except PyException Role :=
  if key = [] then .error (.http 401 (js "Missing X-Agent-Key header"))
  else if env.agentKeys.isEmpty then .error (.http 401 (js noKeys))
  else
    match env.agentKeys.lookup key with
    | none => .error (.http 401 (js "Invalid agent key"))
    | some role => if allowed.contains role then .ok role else .error (.http 403 (refusal role))

end Keys

section RiskFloor

/-- `GOVERNANCE_IMPACT_RISK_FLOOR`. -/
def governanceImpactRiskFloor : List (String × String) :=
  [("critical", "critical"), ("high", "high"), ("medium", "medium"), ("low", "low"),
    ("unknown", "low"), ("p1", "high"), ("p2", "medium"), ("p3", "low"), ("p4", "low")]

/-- `RISK_RANK`. -/
def riskRank (risk : Str) : Nat :=
  if risk = js "medium" then 1 else if risk = js "high" then 2 else if risk = js "critical" then 3
  else 0

def highRiskPlaybooks : List String :=
  ["treasury-cap-exceeded", "payment-settlement-review", "rwa-evidence-review", "RB-002", "RB-005"]

def strField (d : Dict) (key : String) : Str :=
  match d.get key with
  | .str s => s
  | _ => []

/-- The floor of the severity of the latest assessment; `none` is an unreadable card. -/
def severityFloor (row : CardRow) : Option Str :=
  match loads env.floats row.cardJson with
  | some (.dict assessment) =>
    let severity := match strField assessment "severity" with
      | [] => js "unknown"
      | s => env.stripLower s
    some (js (((governanceImpactRiskFloor.find? fun e => js e.1 == severity).map (·.2)).getD "low"))
  | _ => none

def dictsOf : Value → List Dict
  | .list elements => elements.filterMap fun v => match v with
    | .dict d => some d
    | _ => none
  | _ => []

def Card.withRisk {floats : FloatFormat} (card : Card floats) (risk : Str) : Card floats :=
  card.assign "risk_level" (.str risk) (by simp [WellFormed]) (by decide +kernel)

/-- The floor of the latest assessment of the proposal. -/
def Card.withSeverityFloor (card : Card env.floats) (db : Db) : Option (Card env.floats) :=
  let assessment := Db.lastBySequence ((db.cardsOf (strField card.dump "proposal_id")).filter
    fun r => r.cardType == CardType.assessment.column)
  match assessment with
  | none => some card
  | some row => (severityFloor env row).map fun floor =>
    let risk := match strField card.dump "risk_level" with
      | [] => js "low"
      | s => env.stripLower s
    card.withRisk (if riskRank floor > riskRank risk then floor else risk)

/-- The floor of the runbook. -/
def Card.withPlaybookFloor (card : Card env.floats) : Card env.floats :=
  if isAmong highRiskPlaybooks (env.strip (strField card.dump "runbook")) &&
      riskRank (strField card.dump "risk_level") < 2 then card.withRisk (js "high") else card

/-- `requires_human_approval` of a plan, from its risk and its envelopes. -/
def Card.withApproval (card : Card env.floats) : Card env.floats :=
  if card.cardType == .responsePlan then
    let needed := requiresHumanApproval env (strField card.dump "risk_level")
      (dictsOf (card.dump.get "envelopes"))
    card.assign "requires_human_approval" (.bool needed) (by simp [WellFormed]) (by decide +kernel)
  else card

/-- `_apply_risk_floor`: which models have a `risk_level` is known from their type. -/
def applyRiskFloor (card : Card env.floats) (db : Db) : Option (Card env.floats) :=
  if !(card.cardType == .responsePlan || card.cardType == .policyAuthorization) ||
      (strField card.dump "proposal_id").isEmpty then some card
  else (card.withSeverityFloor env db).map fun card => (card.withPlaybookFloor env).withApproval env

end RiskFloor

section Prepare

structure PrepareResponse where
  submissionId : Str
  sealedCard : Dict
  cardHash : Str
  sequenceNumber : Int
  proposalId : Str
  agentRole : Role
  roomId : Option Str

/-- What `prepare_card` hands to `seal_card`. -/
structure SealRequest (floats : FloatFormat) where
  card : Card floats
  proposalId : Str
  idempotencyKey : Str
  preparedByRole : Role
  requestFp : Str

/-- `legacy_room_id` of the proposal, the destination of the card. -/
def destination (proposalId : Str) (db : Db) : Option Str :=
  (db.proposal proposalId).bind fun r => truthy r.legacyRoomId

/-- `getattr(card, "proposal_id", None)`, and `signal_id` for a ProposalCard. -/
def cardProposalId {floats : FloatFormat} (card : Card floats) : Str :=
  if card.cardType == .proposalCard then strField card.dump "signal_id"
  else strField card.dump "proposal_id"

def cardSeverity {floats : FloatFormat} (card : Card floats) : Option Str :=
  match card.dump.get "severity", card.dump.get "preliminary_severity" with
  | .str s, _ => some s
  | _, .str s => some s
  | _, _ => none

/-- `INSERT INTO proposals`, under its primary key. -/
def insertProposal (row : ProposalRow) (db : Db) : Option Db :=
  if (db.proposal row.proposalId).isSome then none
  else some { db with proposals := db.proposals ++ [row] }

/-- `_upsert_proposal`. -/
def upsertProposal (proposalId : Str) (severity : Option Str) : Sql Unit := do
  match ← select fun db => db.proposal proposalId with
  | some _ => return ()
  | none => execute (insertProposal ⟨proposalId, .detected, severity, none, none⟩)

def invalidPayload (idempotencyKey : Str) (cardType : CardType) : PyException :=
  .http 409 (js "Idempotency key " ++ env.repr idempotencyKey ++
    js s!" already used with a different payload for {cardType.name}")

/-- `prepare_card`, up to the call of `seal_card`. -/
def prepareChecks (cardTypeName xAgentKey : Str) (xIdempotencyKey : Option Str) (body : Dict)
    (uuid : Str) : Sql (PrepareResponse ⊕ SealRequest env.floats) := do
  match CardType.ofColumn cardTypeName with
  | none => raise (.http 400 (js "Unknown card_type: " ++ cardTypeName ++ js ". Valid types: [" ++
      (js ", ").intercalate (CardType.all.map fun t => js s!"'{t.name}'") ++ js "]"))
  | some cardType =>
    match authenticateAgent env xAgentKey cardType with
    | .error e => raise e
    | .ok role =>
      match env.modelValidate cardType (body.set (js "card_type") (.str cardTypeName)) with
      | none => raise (.http 422 (js s!"Validation error for {cardType.name}."))
      | some card =>
        let proposalId := cardProposalId card
        if proposalId = [] then raise (.http 400 (js "Missing proposal_id"))
        else
          let idempotencyKey := (truthy xIdempotencyKey).getD uuid
          let rawFp := requestFingerprint env card.dump
          match ← select (sealedBefore env card proposalId (some idempotencyKey)) with
          | some existing =>
            match storedFingerprint env existing, rowData env existing with
            | some stored, some data =>
              if stored ≠ rawFp then raise (invalidPayload env idempotencyKey cardType)
              else
                let room ← select (destination proposalId)
                return .inl ⟨idempotencyKey, data, existing.cardHash, existing.sequenceNumber,
                  proposalId, role, room⟩
            | some stored, none =>
              if stored ≠ rawFp then raise (invalidPayload env idempotencyKey cardType)
              else raise .other
            | none, _ => raise .other
          | none =>
            let state ← select fun db => db.proposalState proposalId
            match statePrerequisites cardType, state with
            | some _, none => raise (.http 409 (js s!"Cannot submit {cardType.name}: proposal " ++
                env.repr proposalId ++ js " does not exist yet."))
            | some allowed, some current =>
              if !allowed.contains current then
                raise (.http 409 (js s!"Cannot submit {cardType.name} when proposal is in state '{current.name}'. Required: " ++
                  sortedStates allowed))
              else continueWith card proposalId idempotencyKey role rawFp
            | none, _ => continueWith card proposalId idempotencyKey role rawFp
where
  /-- The upsert and the risk floor. -/
  continueWith (card : Card env.floats) (proposalId idempotencyKey : Str)
      (role : Role) (rawFp : Str) : Sql (PrepareResponse ⊕ SealRequest env.floats) := do
    upsertProposal proposalId (cardSeverity card)
    match ← select (applyRiskFloor env card) with
    | none => raise .other
    | some card => return .inr ⟨card, proposalId, idempotencyKey, role, rawFp⟩

/-- `prepare_card`, from the call of `seal_card`. -/
def prepareSeal (request : SealRequest env.floats) : Sql PrepareResponse := do
  let result ← attempt (sealCard env request.card request.proposalId (some request.idempotencyKey)
      (some request.preparedByRole) (some request.requestFp))
    fun e => match e with
      | .idempotencyConflict message => raise (.http 409 message)
      | e => raise e
  let room ← select (destination request.proposalId)
  return {
    submissionId := request.idempotencyKey
    sealedCard := result.card.dump.set (js "card_hash") (.str result.cardHash)
    cardHash := result.cardHash
    sequenceNumber := match result.card.dump.get "sequence_number" with | .int n => n | _ => 0
    proposalId := request.proposalId
    agentRole := request.preparedByRole
    roomId := room }

end Prepare
end Concordia.Gateway
