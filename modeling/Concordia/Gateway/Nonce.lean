import Concordia.Gateway.Confirmation

/-! Human approval: nonces are created, challenged, and consumed into authorizations. -/
namespace Concordia.Gateway
open Concordia.Python Concordia.Lib.Transactions Concordia.Lib.Transactions.Program
open Concordia.Js hiding Value

variable (env : Env)

def inconsistentLifecycle (what : Str) : PyException :=
  .http 409 (js "inconsistent_lifecycle" ++ what)

section Publish

/-- What `_publish_and_advance` needs, for both kinds of authorization. -/
structure PublishRequest where
  proposalId : Str
  cardHash : Str
  authorizationId : Str
  target : ProposalState
  deriving DecidableEq

/-- What `advance_authorization_lifecycle` is called with. -/
structure AdvanceRequest extends PublishRequest where
  roomMessageId : Str
  deriving DecidableEq

/-- The room message that carries a sealed card, posted as the recorder. -/
def postSealedCard (request : PublishRequest) (roomId uuid : Str)
    (failed : PyException → PyException) : Sql AdvanceRequest := do
  match ← select fun db => (db.cards.find? (isCard request.proposalId request.cardHash)).bind
      (rowData env) with
  | none => raise .other
  | some data =>
    let content := env.formatCardMessage (data.set (js "card_hash") (.str request.cardHash))
    let messageId ← attempt (do
      storeRoomParticipant roomId
      storeRoomMessage roomId content (js "recorder") (publisherMetadata request.cardHash) uuid)
      fun e => raise (failed e)
    return { request with roomMessageId := messageId }

/-- The room message of `_publish_and_advance`. -/
def publishApproval (request : PublishRequest) (uuid : Str) : Sql AdvanceRequest := do
  if env.operatorAgentId = [] then raise (.http 502 (js "OPERATOR_AGENT_ID not configured"))
  else
    match ← select fun db => (db.proposal request.proposalId).bind roomOf with
    | none => raise (.http 502 (js "Cannot publish StructuredApproval: no Council Chamber. Authorization is PENDING — retry is safe."))
    | some roomId => postSealedCard env request roomId uuid fun e => match e with
      | .http status detail => .http status detail
      | _ => .http 502 (js "Proposal-room publication failed. Authorization remains PENDING.")

/-- The lifecycle advance of a published authorization. -/
def advance (request : AdvanceRequest) (now : Time) : Sql Bool :=
  advanceAuthorizationLifecycle request.proposalId request.cardHash request.authorizationId
    request.roomMessageId request.target now

end Publish

section Consume

/-- The body of `consume_nonce`, and the channel it came through. -/
structure ConsumeRequest where
  proposalId : Str
  nonce : Str
  planHash : Str
  actionHash : Str
  consumedBy : Str
  roomMessageId : Str
  approvalChannel : Str

structure ConsumeResponse where
  reason : String
  authorizationId : Str
  planHash : Option Str
  actionHash : Option Str
  envelopes : Value

/-- The human authorization of a nonce. -/
def humanAuthorization (proposalId nonce : Str) (db : Db) : Option AuthorizationRow :=
  db.authorizations.find? fun r => r.proposalId == proposalId && r.nonce == some nonce &&
    r.authorizationType == .humanApproval

/-- A pending authorization, as `_publish_and_advance` gets it. -/
structure Consumption extends PublishRequest where
  planHash : Str
  actionHash : Str
  envelopes : Value

def Consumption.response (c : Consumption) : ConsumeResponse :=
  ⟨"Nonce valid and consumed", c.authorizationId, some c.planHash, some c.actionHash, c.envelopes⟩

/-- What `_do_consume_nonce` goes on with. -/
inductive ConsumeNext where
  | done (response : ConsumeResponse)
  | fresh (request : ConsumeRequest)
  | resume (consumption : Consumption)

/-- `_resume_pending`, up to the publication. -/
def resumePending (proposalId : Str) (auth : AuthorizationRow) : Sql Consumption := do
  match ← select fun db => db.proposalState proposalId with
  | some .planned =>
    let sealedCards ← select fun db => db.cards.countP fun r =>
      r.cardHash == auth.cardHash && r.cardType == CardType.structuredApproval.column &&
        r.publishedAt.isNone
    if sealedCards ≠ 1 then raise (inconsistentLifecycle (js ": card missing or published"))
    else
      let consumed ← select fun db =>
        (auth.nonce.bind (db.nonce proposalId)).any fun r => r.consumed
      if !consumed then raise (inconsistentLifecycle (js ": nonce not consumed"))
      else
        match ← select fun db => db.confirmedPlan proposalId with
        | none => raise (inconsistentLifecycle (js ": no confirmed ResponsePlan"))
        | some plan =>
          match rowData env plan with
          | none => raise .other
          | some data =>
            if auth.planHash ≠ storedPlanHash env data ∨ auth.actionHash ≠ storedActionHash env data then
              raise (inconsistentLifecycle (js ": plan has been superseded since authorization"))
            else
              match loads env.floats auth.envelopesJson with
              | none => raise .other
              | some envelopes =>
                return ⟨⟨proposalId, auth.cardHash, auth.authorizationId, .approved⟩, auth.planHash,
                  auth.actionHash, envelopes⟩
  | state => raise (inconsistentLifecycle (js ": state=" ++
      js ((state.map ProposalState.name).getD "MISSING")))

/-- `_do_consume_nonce`, up to the transaction or the publication. -/
def doConsumeNonce (request : ConsumeRequest) : Sql ConsumeNext := do
  if env.humanApproverIds.isEmpty then raise (.http 401 (js "Approver allowlist not configured"))
  else if !env.humanApproverIds.contains request.consumedBy then
    raise (.http 401 (js "Sender " ++ env.repr request.consumedBy ++ js " not in approver allowlist"))
  else
    match ← select (humanAuthorization request.proposalId request.nonce) with
    | none => return .fresh request
    | some auth =>
      if auth.consumedBy ≠ some request.consumedBy then raise (.http 403 (js "Approver mismatch"))
      else
        match auth.status with
        | .published =>
          let state ← select fun db => db.proposalState request.proposalId
          if state = some .approved ∨ state = some .executed then
            match loads env.floats auth.envelopesJson with
            | some envelopes =>
              return .done ⟨"Idempotent success — already published", auth.authorizationId, none, none,
                envelopes⟩
            | none => raise .other
          else raise (inconsistentLifecycle [])
        | .pending =>
          let next ← resumePending env request.proposalId auth
          return .resume next
        | .consumed => raise (.http 409 (js "already_consumed"))

/-- `derive_idempotency_key`. -/
def deriveIdempotencyKey (agentRole : String) (roomMessageId cardHash : Str) : Str :=
  (hexdigest env (js agentRole ++ js ":" ++ roomMessageId ++ js ":" ++ cardHash)).take 32

/-- The fields of a StructuredApproval, in the model's order. -/
def structuredApprovalDump (request : ConsumeRequest) (actionId : Str) (decision : String)
    (legacyRoomId : Str) (expiry : Time) (reason : Option Str) (planRevision : Value) : Dict :=
  [(js "sequence_number", .none), (js "previous_card_hash", .none),
    (js "card_type", .str (js "StructuredApproval")), (js "proposal_id", .str request.proposalId),
    (js "action_id", .str actionId), (js "action_hash", .str request.actionHash),
    (js "decision", .str (js decision)), (js "approver_id", .str request.consumedBy),
    (js "room_message_id", .str request.roomMessageId),
    (js "legacy_room_id", .str legacyRoomId), (js "plan_hash", .str request.planHash),
    (js "nonce", .str request.nonce), (js "expiry", .str (env.strTime expiry)),
    (js "reason", optStr reason), (js "approval_channel", .str request.approvalChannel),
    (js "runbook_version", .str (js "1.0")), (js "plan_revision", planRevision)]

theorem structuredApproval_keys (request : ConsumeRequest) (actionId : Str) (decision : String)
    (legacyRoomId : Str) (expiry : Time) (reason : Option Str) (planRevision : Value) :
    ((structuredApprovalDump env request actionId decision legacyRoomId expiry reason
      planRevision).map Prod.fst).Nodup := by
  simp only [structuredApprovalDump, List.map_cons, List.map_nil]
  decide +kernel

/-- `plan_revision: int`: other values are a `ValidationError`. -/
def intField (v : Value) : Option Int :=
  match v with
  | .int n => some n
  | _ => none

/-- `StructuredApproval(...)`. -/
def structuredApproval (request : ConsumeRequest) (actionId : Str) (decision : String)
    (legacyRoomId : Str) (expiry : Time) (reason : Option Str) (planRevision : Int) :
    Card env.floats where
  cardType := .structuredApproval
  dump := structuredApprovalDump env request actionId decision legacyRoomId expiry reason
    (.int planRevision)
  wellFormed := ⟨structuredApproval_keys env request actionId decision legacyRoomId expiry reason _,
    by cases reason <;> simp [structuredApprovalDump, WellFormedItems, WellFormed, optStr]⟩
  typed := by
    simp only [structuredApprovalDump, Dict.get]
    rfl

/-- `INSERT OR IGNORE INTO authorizations`. -/
def insertAuthorization (row : AuthorizationRow) (db : Db) : Db :=
  if (db.authorization row.authorizationId).isSome then db
  else { db with authorizations := db.authorizations ++ [row] }

/-- `json.dumps(plan_data.get("envelopes", []))` of the confirmed plan; no plan and no JSON give
an empty list, another exception is `none`. -/
def planEnvelopesJson (proposalId : Str) (db : Db) : Option Str :=
  match (db.confirmedPlan proposalId).map fun plan => loads env.floats plan.cardJson with
  | some (some (.dict data)) => some (dumps (envelopesOf data))
  | some (some _) => none
  | _ => some (js "[]")

/-- The authorization that a consumed nonce yields. -/
def humanAuthorizationRow (request : ConsumeRequest) (authorizationId envelopesJson : Str)
    (expiry : Time) (cardHash : Str) : AuthorizationRow where
  authorizationId := authorizationId
  proposalId := request.proposalId
  authorizationType := .humanApproval
  planHash := request.planHash
  actionHash := request.actionHash
  envelopesJson := envelopesJson
  expiry := expiry
  consumed := false
  consumedAt := none
  consumedBy := some request.consumedBy
  status := .pending
  roomMessageId := none
  nonce := some request.nonce
  cardHash := cardHash

/-- `_fresh_consume`, up to the publication; `authorizationId` is the `uuid4` it draws. -/
def freshConsume (request : ConsumeRequest) (authorizationId : Str) (now : Time) :
    Sql Consumption := do
  begin
  attempt (do
    let proposalId := request.proposalId
    let inc ← select fun db => db.proposal proposalId
    if (inc.map (·.state)) ≠ some .planned then
      rollback
      let state := (inc.map fun r => r.state.name).getD "NOT_FOUND"
      raise (.http 409 (js s!"Proposal state is {state}, expected PLANNED"))
    else
      match inc.bind roomOf with
      | none =>
        rollback
        raise (.http 502 (js "No Council Chamber for this proposal — cannot seal"))
      | some roomId =>
        match ← select fun db => validateNonceOnly env db proposalId request.nonce request.planHash
            request.actionHash true now with
        | .error reason =>
          rollback
          raise (.http (if isIn (js "replay") (js reason) then 409 else 400) (js reason))
        | .ok row =>
          match ← select (planEnvelopesJson env proposalId), intField row.planRevision with
          | some envelopesJson, some planRevision =>
            match loads env.floats envelopesJson with
            | none => raise .other
            | some envelopes =>
              let card := structuredApproval env request authorizationId "APPROVED" roomId row.expiry
                none planRevision
              let approval ← sealCardInTransaction env card proposalId
                (some (deriveIdempotencyKey env "gateway_approval" proposalId request.nonce))
                (some .gateway) none
              execute fun db => some (insertAuthorization
                (humanAuthorizationRow request authorizationId envelopesJson row.expiry
                  approval.cardHash) db)
              execute fun db => some
                (consumeNonceOnly proposalId request.nonce request.consumedBy now db)
              commit
              return ⟨⟨proposalId, approval.cardHash, authorizationId, .approved⟩, request.planHash,
                request.actionHash, envelopes⟩
          | _, _ => raise .other)
    fun e => match e with
      | .http status detail => raise (.http status detail)
      | _ => do
        rollback
        raise (.http 500 (js "Nonce consumption failed atomically; nothing was consumed."))

/-- `_authenticate_operator` of the nonce routes. -/
def authenticateConsumer (key : Str) : Except PyException Role :=
  authenticateRole env [.operator, .gateway] "No agent keys configured — all requests rejected"
    (fun role => js s!"Role '{role.name}' is not authorized to consume nonces") key

/-- `consume_nonce`, up to the transaction or the publication. -/
def consumeNonce (xAgentKey : Str) (request : ConsumeRequest) : Sql ConsumeNext := do
  match authenticateConsumer env xAgentKey with
  | .error e => raise e
  | .ok _ =>
    if env.strip request.roomMessageId = [] then
      raise (.http 400 (js "room_message_id required and must not be whitespace"))
    else doConsumeNonce env { request with approvalChannel := js "room" }

end Consume

section Create

/-- `_authenticate_commander` of the nonce routes. -/
def authenticateCreator (key : Str) : Except PyException Role :=
  authenticateRole env [.commander, .gateway] "No agent keys configured — all requests rejected"
    (fun role => js s!"Role '{role.name}' is not authorized to create nonces") key

/-- What a nonce of this plan is created as. -/
def newNonce (proposalId nonce : Str) (data : Dict) (now : Time) : NonceRow where
  proposalId := proposalId
  nonce := nonce
  planHash := storedPlanHash env data
  actionHash := storedActionHash env data
  planRevision := revisionOf data
  expiry := now + 15 * 60 * 1000000
  consumed := false
  invalidated := false
  consumedBy := none
  consumedAt := none
  challengeMessageId := none

/-- `create_nonce_endpoint`, up to its transaction; `nonce` is what `generate_nonce` draws. -/
def createNonceChecks (xAgentKey proposalId nonce : Str) (now : Time) : Sql NonceRow := do
  match authenticateCreator env xAgentKey with
  | .error e => raise e
  | .ok _ =>
    match ← select fun db => db.confirmedPlan proposalId with
    | none => raise (.http 400 (js "No confirmed ResponsePlan for proposal " ++ proposalId ++
        js ". Submit and publish a ResponsePlan first."))
    | some plan =>
      match loads env.floats plan.cardJson with
      | none => raise (.http 500 (js "Stored ResponsePlan could not be parsed."))
      | some (.dict data) => return newNonce env proposalId nonce data now
      | some _ => raise .other

/-- The transaction of `create_nonce_endpoint`. -/
def createNonce (row : NonceRow) : Sql NonceRow := do
  attempt (do
    begin
    attempt (do
      execute (insertNonce row)
      commit)
      fun e => do
        rollback
        raise e
    return row)
    fun _ => raise (.http 500 (js "Nonce creation failed due to an internal error."))

end Create

section Challenge

/-- What `confirm_challenge_posted` posts. -/
structure ChallengeRequest where
  proposalId : Str
  nonce : Str
  challengeText : Str
  roomId : Str

/-- The update behind the post. -/
structure ChallengeRecord where
  proposalId : Str
  nonce : Str
  messageId : Str

/-- `confirm_challenge_posted`, up to the post; an answer is the message id it has already. -/
def challengeChecks (xAgentKey proposalId nonce challengeText : Str) (now : Time) :
    Sql (Str ⊕ ChallengeRequest) := do
  match authenticateCreator env xAgentKey with
  | .error e => raise e
  | .ok _ =>
    match ← select fun db => db.nonce proposalId nonce with
    | none => raise (.http 404 (js "No active nonce found for proposal=" ++ proposalId))
    | some row =>
      if row.consumed then raise (.http 409 (js "Nonce already consumed for proposal=" ++ proposalId))
      else if row.invalidated then
        raise (.http 409 (js "Nonce invalidated for proposal=" ++ proposalId))
      else if now > row.expiry then raise (.http 409 (js "Nonce expired for proposal=" ++ proposalId))
      else
        match env.strip (row.challengeMessageId.getD []) with
        | u :: existing => return .inl (u :: existing)
        | [] =>
          match ← select fun db => (db.proposal proposalId).bind roomOf with
          | none => raise (.http 502 (js "No Council Chamber for proposal " ++ proposalId))
          | some roomId =>
            if env.operatorAgentId = [] then
              raise (.http 500 (js "OPERATOR_AGENT_ID not configured — cannot post challenge with required mention"))
            else return .inr ⟨proposalId, nonce, challengeText, roomId⟩

/-- The post of the challenge. -/
def postChallenge (request : ChallengeRequest) (uuid : Str) : Sql ChallengeRecord := do
  let messageId ← attempt (do
    storeRoomParticipant request.roomId
    storeRoomMessage request.roomId request.challengeText (js "recorder")
      [(js "publisher", .str (js "gateway")), (js "nonce", .str request.nonce),
        (js "challenge", .bool true)] uuid)
    fun _ => raise (.http 502 (js "Challenge could not be published to the Council Chamber. Approval remains unavailable until the challenge is visible."))
  return ⟨request.proposalId, request.nonce, messageId⟩

/-- `UPDATE nonces SET challenge_message_id=?`, on a nonce that is still open. -/
def recordChallenge (record : ChallengeRecord) : Sql Str := do
  let isOpen (r : NonceRow) : Bool := r.proposalId == record.proposalId && r.nonce == record.nonce &&
    !r.consumed && !r.invalidated
  let changed ← update fun db => (db.nonces.countP isOpen,
    { db with nonces := db.nonces.map fun r =>
        if isOpen r then { r with challengeMessageId := some record.messageId } else r })
  if changed = 0 then
    raise (.http 409 (js "Nonce was consumed during challenge publication (race condition)"))
  else return record.messageId

end Challenge
end Concordia.Gateway
