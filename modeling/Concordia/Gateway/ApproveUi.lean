import Concordia.Gateway.Authorization

/-! The human decision that comes through the web form: approve, revise, or false alarm. -/
namespace Concordia.Gateway
open Concordia.Python Concordia.Lib.Transactions Concordia.Lib.Transactions.Program
open Concordia.Js hiding Value

variable (env : Env)

section Plan

/-- What `_load_response_plan` returns. -/
structure PlanInfo where
  planData : Dict
  planHash : Str
  actionHash : Str

/-- `_load_response_plan`. -/
def loadResponsePlan (proposalId : Str) : Sql (Option PlanInfo) := do
  match ← select fun db => db.confirmedPlan proposalId with
  | none => return none
  | some plan =>
    match rowData env plan with
    | none => raise .other
    | some data => return some ⟨data, storedPlanHash env data, storedActionHash env data⟩

end Plan

section Close

/-- What a refusal of the plan is called with. -/
structure CloseRequest where
  proposalId : Str
  nonce : Str
  plan : PlanInfo
  approverId : Str

/-- A page of the form: the refusal, or the card that was sealed and its room. -/
inductive CloseOutcome where
  | refused (status : Nat) (message : Str)
  | applied (cardHash roomId : Str)

/-- What `_handle_revise` and `_handle_false_alarm` do not share. -/
structure Closure where
  verb : String
  decision : String
  actionId : String
  keyPrefix : String
  reason : Str
  failure : String

def CloseRequest.card (request : CloseRequest) : ConsumeRequest where
  proposalId := request.proposalId
  nonce := request.nonce
  planHash := request.plan.planHash
  actionHash := request.plan.actionHash
  consumedBy := request.approverId
  roomMessageId := []
  approvalChannel := js "gateway_ui"

/-- `UPDATE nonces SET invalidated=1`, on a nonce that is not consumed. -/
def invalidateNonce (proposalId nonce : Str) : Db → Db :=
  updateNonces proposalId nonce fun r => if r.consumed then r else { r with invalidated := true }

/-- The transaction of both handlers: the card is sealed, the nonce is invalidated and the state
moves, with `more` before the commit. -/
def closePlan (closure : Closure) (more : Db → Db) (request : CloseRequest) (now : Time) :
    Sql CloseOutcome :=
  attempt (do
    begin
    let proposalId := request.proposalId
    let inc ← select fun db => db.proposal proposalId
    if (inc.map (·.state)) ≠ some .planned then
      rollback
      let state := (inc.map fun r => r.state.name).getD "NOT_FOUND"
      return .refused 409
        (js s!"Cannot {closure.verb}: proposal state is '{state}', expected 'PLANNED'")
    else
      match ← select fun db => validateNonceOnly env db proposalId request.nonce
          request.plan.planHash request.plan.actionHash true now with
      | .error reason =>
        rollback
        return .refused 409 (js s!"Nonce validation failed: {reason}")
      | .ok row =>
        match intField (revisionOf request.plan.planData) with
        | none => raise .other
        | some planRevision =>
          let roomId := (inc.bind roomOf).getD []
          let card := structuredApproval env request.card (js closure.actionId) closure.decision
            roomId row.expiry (some closure.reason) planRevision
          let approval ← sealCardInTransaction env card proposalId
            (some (deriveIdempotencyKey env closure.keyPrefix proposalId request.nonce))
            (some .gateway) none
          execute fun db => some (invalidateNonce proposalId request.nonce db)
          match resolveStateOf .structuredApproval approval.card.dump with
          | some newState =>
            let _ ← update (updateProposals (fun r => r.proposalId == proposalId)
              fun r => { r with state := newState })
            execute fun db => some (more db)
            commit
          | none =>
            execute fun db => some (more db)
            commit
          return .applied approval.cardHash roomId)
    fun e => match e with
      | .http status detail => raise (.http status detail)
      | _ => do
        rollback
        return .refused 500 (js closure.failure)

def revision (instructions : Str) : Closure where
  verb := "revise"
  decision := "REJECTED"
  actionId := "plan_revision_request"
  keyPrefix := "gateway_rejection"
  reason := instructions
  failure := "Failed to seal rejection due to an internal error."

def falseAlarm : Closure where
  verb := "close"
  decision := "FALSE_ALARM"
  actionId := "false_alarm_closure"
  keyPrefix := "gateway_false_alarm"
  reason := js "Human determined this is a false alarm"
  failure := "Failed to seal false alarm due to an internal error."

/-- `_handle_revise`, up to the notification. -/
def handleRevise (instructions : Str) : CloseRequest → Time → Sql CloseOutcome :=
  closePlan env (revision instructions) id

/-- The suppression rule for the fingerprint of the proposal's first ProposalCard. -/
def addSuppressionRule (proposalId : Str) (db : Db) : Db :=
  let signal := ((db.chainOf proposalId).filterMap (rowData env)).find? fun data =>
    isOptStr (data.get "card_type") (some CardType.proposalCard.column)
  match signal.bind fun data => truthy (some (strField data "fingerprint")) with
  | none => db
  | some fingerprint =>
    if db.suppressionRules.any fun r => r.fingerprint == fingerprint && r.active then db
    else { db with suppressionRules := db.suppressionRules ++ [⟨fingerprint, proposalId, true⟩] }

/-- `_handle_false_alarm`, up to the notification. -/
def handleFalseAlarm (request : CloseRequest) : Time → Sql CloseOutcome :=
  closePlan env falseAlarm (addSuppressionRule env request.proposalId) request

end Close

section Notify

/-- What `_publish_rejection_to_room` is called with. -/
structure Notification where
  proposalId : Str
  cardHash : Str
  roomId : Str
  deriving DecidableEq

/-- The message of `_publish_rejection_to_room`; `none` where nothing is posted. -/
def notifyRoom (notification : Notification) (uuid : Str) : Sql (Option Str) := do
  if notification.roomId = [] then return none
  else
    match ← select fun db =>
        db.cards.find? (isCard notification.proposalId notification.cardHash) with
    | none => return none
    | some row =>
      match rowData env row with
      | none => raise .other
      | some data =>
        if env.commanderAgentId ≠ [] then storeRoomParticipant notification.roomId
        let content := env.formatCardMessage
          (data.set (js "card_hash") (.str notification.cardHash))
        attempt (do
          let messageId ← storeRoomMessage notification.roomId content (js "recorder")
            (publisherMetadata notification.cardHash) uuid
          return some messageId)
          fun _ => return none

/-- The update behind the message; a card that is published keeps its message. -/
def recordNotification (notification : Notification) (messageId : Str) (now : Time) : Sql Unit := do
  let _ ← update (publishCards
    (fun r => isCard notification.proposalId notification.cardHash r && r.publishedAt.isNone)
    messageId now)

end Notify

section Decide

inductive Decision where
  | approve
  | revise (instructions : Str)
  | falseAlarm

/-- What `approve_proposal` goes on with. -/
inductive DecisionNext where
  | consume (next : ConsumeNext)
  | revise (instructions : Str) (request : CloseRequest)
  | falseAlarm (request : CloseRequest)

/-- `approve_proposal`, behind the authentication of the form, up to a transaction. -/
def approveProposal (approverId proposalId nonce : Str) (decision : Decision) :
    Sql DecisionNext := do
  match decision with
  | .revise instructions =>
    if env.strip instructions = [] then raise (.http 400 (js "Revision instructions are required."))
    else if (codePoints (env.strip instructions)).length > 1000 then
      raise (.http 400 (js "Revision instructions too long (max 1000 characters)."))
    else
      match ← loadResponsePlan env proposalId with
      | none => raise (.http 500 (js "No confirmed ResponsePlan found"))
      | some plan => return .revise (env.strip instructions) ⟨proposalId, nonce, plan, approverId⟩
  | .falseAlarm =>
    match ← loadResponsePlan env proposalId with
    | none => raise (.http 500 (js "No confirmed ResponsePlan found"))
    | some plan => return .falseAlarm ⟨proposalId, nonce, plan, approverId⟩
  | .approve =>
    match ← loadResponsePlan env proposalId with
    | none => raise (.http 500 (js "No confirmed ResponsePlan found"))
    | some plan =>
      let next ← doConsumeNonce env {
        proposalId := proposalId
        nonce := nonce
        planHash := plan.planHash
        actionHash := plan.actionHash
        consumedBy := approverId
        roomMessageId := []
        approvalChannel := js "gateway_ui" }
      return .consume next

end Decide
end Concordia.Gateway
