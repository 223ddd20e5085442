import Concordia.Lib.Transition
import Concordia.Gateway.ApproveUi

/-! The gateway as a whole: requests arrive, and what is left of them behind a transaction or a
post is resumed in any order, or never. -/
namespace Concordia.Gateway
open Concordia.Python Concordia.Lib.Transactions Concordia.Lib.Transactions.Program
open Concordia.Js hiding Value

variable (env : Env)

/-- The HTTP requests. -/
inductive Request where
  | prepare (cardType xAgentKey : Str) (xIdempotencyKey : Option Str) (body : Dict)
  | confirm (xAgentKey : Str) (body : ConfirmBody)
  | createNonce (xAgentKey proposalId : Str)
  | challenge (xAgentKey proposalId nonce challengeText : Str)
  | consumeNonce (xAgentKey : Str) (body : ConsumeRequest)
  | policyAuthorization (xAgentKey : Str) (body : PolicyRequest)
  | consumeAuthorization (xAgentKey authorizationId proposalId : Str)
  | decide (approverId proposalId nonce : Str) (decision : Decision)
  | createRoom (xAgentKey : Str) (proposalId : Option Str)
  | postMessage (xAgentKey roomId content : Str) (senderRole : Option Str) (metadata : Dict)

/-- What is left of a request that other requests may overtake. -/
inductive Job where
  | sealCard (request : SealRequest env.floats)
  | confirm (request : ConfirmRequest)
  | createNonce (row : NonceRow)
  | postChallenge (request : ChallengeRequest)
  | recordChallenge (record : ChallengeRecord)
  | consumeNonce (request : ConsumeRequest)
  | publishApproval (request : PublishRequest)
  | sealPolicy (request : PolicySeal env)
  | publishPolicy (request : PublishRequest)
  | advance (request : AdvanceRequest)
  | consumeAuthorization (request : UseRequest)
  | revise (instructions : Str) (request : CloseRequest)
  | falseAlarm (request : CloseRequest)
  | notify (notification : Notification) (attempts : Nat)
  | recordNotification (notification : Notification) (messageId : Str)

/-- What a step draws: the clock, a `uuid4` and a `generate_nonce`. -/
structure Draws where
  now : Time
  uuid : Str
  nonce : Str

section Next
variable {env}

def ConsumeNext.jobs : ConsumeNext → List (Job env)
  | .done _ => []
  | .fresh request => [.consumeNonce request]
  | .resume consumption => [.publishApproval consumption.toPublishRequest]

def PolicyNext.jobs : PolicyNext env → List (Job env)
  | .done _ => []
  | .sealing request => [.sealPolicy request]
  | .publish request => [.publishPolicy request]

def DecisionNext.jobs : DecisionNext → List (Job env)
  | .consume next => next.jobs
  | .revise instructions request => [.revise instructions request]
  | .falseAlarm request => [.falseAlarm request]

/-- `ROOM_RETRY_DELAYS` has three entries; a false alarm is posted once. -/
def CloseOutcome.jobs (proposalId : Str) (attempts : Nat) : CloseOutcome → List (Job env)
  | .refused _ _ => []
  | .applied cardHash roomId => [.notify ⟨proposalId, cardHash, roomId⟩ attempts]

/-- A post that went through is recorded; another one is tried again while attempts are left. -/
def notifyJobs (notification : Notification) (attempts : Nat) : Option Str → List (Job env)
  | some messageId => [.recordNotification notification messageId]
  | none => if attempts ≤ 1 then [] else [.notify notification (attempts - 1)]

end Next

/-- A request, up to where another one may come between. -/
def startRequest (draws : Draws) : Request → Sql (List (Job env))
  | .prepare cardType xAgentKey xIdempotencyKey body => do
    match ← prepareChecks env cardType xAgentKey xIdempotencyKey body draws.uuid with
    | .inl _ => return []
    | .inr request => return [.sealCard request]
  | .confirm xAgentKey body => do
    match ← confirmChecks env xAgentKey body with
    | .inl _ => return []
    | .inr request => return [.confirm request]
  | .createNonce xAgentKey proposalId => do
    let row ← createNonceChecks env xAgentKey proposalId draws.nonce draws.now
    return [.createNonce row]
  | .challenge xAgentKey proposalId nonce challengeText => do
    match ← challengeChecks env xAgentKey proposalId nonce challengeText draws.now with
    | .inl _ => return []
    | .inr request => return [.postChallenge request]
  | .consumeNonce xAgentKey body => do
    let next ← consumeNonce env xAgentKey body
    return next.jobs
  | .policyAuthorization xAgentKey body => do
    let next ← requestPolicy env xAgentKey body draws.now
    return next.jobs
  | .consumeAuthorization xAgentKey authorizationId proposalId => do
    let request ← consumeAuthorizationChecks env xAgentKey authorizationId proposalId draws.now
    return [.consumeAuthorization request]
  | .decide approverId proposalId nonce decision => do
    let next ← approveProposal env approverId proposalId nonce decision
    return next.jobs
  | .createRoom xAgentKey proposalId => do
    let _ ← createRoom env xAgentKey proposalId draws.uuid
    return []
  | .postMessage xAgentKey roomId content senderRole metadata => do
    let _ ← postMessage env xAgentKey roomId content senderRole metadata draws.uuid
    return []

/-- The next part of a request. -/
def resumeJob (draws : Draws) : Job env → Sql (List (Job env))
  | .sealCard request => do
    let _ ← prepareSeal env request
    return []
  | .confirm request => do
    let _ ← confirmTransaction env request draws.now
    return []
  | .createNonce row => do
    let _ ← createNonce row
    return []
  | .postChallenge request => do
    let record ← postChallenge request draws.uuid
    return [.recordChallenge record]
  | .recordChallenge record => do
    let _ ← recordChallenge record
    return []
  | .consumeNonce request => do
    let consumption ← freshConsume env request draws.uuid draws.now
    return [.publishApproval consumption.toPublishRequest]
  | .publishApproval request => do
    let next ← publishApproval env request draws.uuid
    return [.advance next]
  | .sealPolicy request => do
    let next ← sealPolicy env request draws.uuid
    return [.publishPolicy next]
  | .publishPolicy request => do
    let next ← publishPolicy env request draws.uuid
    return [.advance next]
  | .advance request => do
    let _ ← advance request draws.now
    return []
  | .consumeAuthorization request => do
    let _ ← consumeAuthorization env request draws.now
    return []
  | .revise instructions request => do
    let outcome ← handleRevise env instructions request draws.now
    return outcome.jobs request.proposalId 3
  | .falseAlarm request => do
    let outcome ← handleFalseAlarm env request draws.now
    return outcome.jobs request.proposalId 1
  | .notify notification attempts => do
    let posted ← attempt (notifyRoom env notification draws.uuid) fun _ => return none
    return notifyJobs notification attempts posted
  | .recordNotification notification messageId => do
    recordNotification notification messageId draws.now
    return []

/-- The connection, and what is left of the requests. -/
structure Sys where
  connection : Connection Db
  jobs : List (Job env)

def Sys.db {env : Env} (sys : Sys env) : Db := sys.connection.data

def Sys.initial : Sys env := ⟨idle Db.empty, []⟩

inductive Action where
  | request (request : Request) (draws : Draws)
  | resume (index : Nat) (draws : Draws)

def Action.draws : Action → Draws
  | .request _ draws => draws
  | .resume _ draws => draws

/-- A program runs on the connection; what it leaves is put to the other jobs. -/
def Sys.settle {env : Env} (sys : Sys env) (jobs : List (Job env)) (p : Sql (List (Job env))) :
    Sys env :=
  match p sys.connection with
  | (.ok next, connection) => ⟨connection, jobs ++ next⟩
  | (.error _, connection) => ⟨connection, jobs⟩

/-- One step; a `uuid4` does not repeat an authorization id. -/
def step (sys : Sys env) (action : Action) : Option (Sys env) :=
  if (sys.db.authorization action.draws.uuid).isSome then none
  else
    match action with
    | .request request draws => some (sys.settle sys.jobs (startRequest env draws request))
    | .resume index draws =>
      sys.jobs[index]?.map fun job => sys.settle (sys.jobs.eraseIdx index) (resumeJob env draws job)

end Concordia.Gateway
