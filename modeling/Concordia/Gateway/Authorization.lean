import Concordia.Gateway.Nonce

/-! Policy authorizations for low-risk plans, and the consumption of published authorizations. -/
namespace Concordia.Gateway
open Concordia.Python Concordia.Lib.Transactions Concordia.Lib.Transactions.Program
open Concordia.Js hiding Value

variable (env : Env)

section Request

/-- The body of `request_policy_authorization`. -/
structure PolicyRequest where
  proposalId : Str
  planHash : Str
  expiryMinutes : Int

structure PolicyResponse where
  authorizationId : Str
  proposalId : Str
  cardHash : Str

/-- What the checks of the request derive from the confirmed plan. -/
structure PolicySeal where
  proposalId : Str
  planHash : Str
  actionHash : Str
  riskLevel : Str
  envelopes : List Dict
  envelopesFormed : ∀ d ∈ envelopes, WellFormed env.floats (.dict d)
  expiry : Time

/-- What `request_policy_authorization` goes on with. -/
inductive PolicyNext where
  | done (response : PolicyResponse)
  | sealing (request : PolicySeal env)
  | publish (request : PublishRequest)

/-- `_authenticate_commander` of the authorization routes. -/
def authenticateRequester (key : Str) : Except PyException Role :=
  authenticateRole env [.commander, .gateway] "No agent keys configured"
    (fun role => js s!"Role '{role.name}' cannot request authorization") key

/-- The envelopes, where every one is a dictionary. -/
def envelopeDicts : Value → Option (List Dict)
  | .list elements => elements.mapM fun v => match v with
    | .dict d => some d
    | _ => none
  | _ => none

theorem envelopeDicts_eq {v : Value} {envelopes : List Dict} (h : envelopeDicts v = some envelopes) :
    v = .list (envelopes.map .dict) := by
  cases v with
  | list elements =>
    rw [envelopeDicts] at h
    congr 1
    induction elements generalizing envelopes with
    | nil =>
      obtain rfl : [] = envelopes := by simpa using h
      rfl
    | cons v elements ih =>
      rw [List.mapM_cons] at h
      cases v with
      | dict d =>
        simp only [Option.pure_def, Option.bind_eq_bind, Option.bind_some, Option.bind_eq_some_iff,
          Option.some.injEq] at h
        obtain ⟨rest, hrest, rfl⟩ := h
        rw [ih hrest, List.map_cons]
      | _ => simp at h
  | _ => simp [envelopeDicts] at h

theorem wellFormed_dicts_iff {floats : FloatFormat} {envelopes : List Dict} :
    WellFormed floats (.list (envelopes.map .dict)) ↔
      ∀ d ∈ envelopes, WellFormed floats (.dict d) := by
  rw [WellFormed, wellFormedElements_iff]
  simp

/-- `str(plan_data.get("risk_level", "high") or "high").strip().lower()`. -/
def riskOf (planData : Dict) : Str :=
  match truthy (some (strField planData "risk_level")) with
  | some risk => env.stripLower risk
  | none => js "high"

def policyKey (proposalId planHash : Str) : Str :=
  deriveIdempotencyKey env "gateway_policy_auth" proposalId planHash

/-- The card that an earlier request sealed. -/
def policyCard (proposalId planHash : Str) (db : Db) : Option CardRow :=
  db.cards.find? fun r => r.idempotencyKey == some (policyKey env proposalId planHash) &&
    r.proposalId == proposalId && r.cardType == CardType.policyAuthorization.column

def blocked : PyException :=
  .http 403 (js "Casper execution receipts require multisig approval under the DAO Constitution.")

/-- The branch of an earlier card: an answer, or the publication that is still to be made. -/
def resumePolicy (proposalId : Str) (existing : CardRow) :
    Sql (PolicyResponse ⊕ PublishRequest) := do
  match rowData env existing with
  | none => raise (.http 500 (js "Corrupted existing PolicyAuthorization card."))
  | some data =>
    match envelopeDicts (envelopesOf data) with
    | none => raise .other
    | some envelopes =>
      if (constitutionBoundExecutionReason env envelopes).isSome then raise blocked
      else
        match truthy (some (strField data "authorization_id")) with
        | none => raise (.http 500 (js "Missing authorization_id in existing card."))
        | some authorizationId =>
          let auth ← select fun db => db.authorizations.find? fun r =>
            r.authorizationId == authorizationId && r.cardHash == existing.cardHash
          match auth with
          | none => raise (.http 500 (js "Authorization record missing for existing card."))
          | some auth =>
            match auth.status with
            | .published =>
              if (← select fun db => db.proposalState proposalId) = some .authorized then
                return .inl ⟨authorizationId, proposalId, existing.cardHash⟩
              else raise (.http 409 (js "inconsistent_lifecycle"))
            | .consumed => raise (.http 409 (js "already_consumed"))
            | .pending => return .inr ⟨proposalId, existing.cardHash, authorizationId, .authorized⟩

/-- What a request without an earlier card seals: the checks on the state and the plan. -/
def policyChecks (request : PolicyRequest) (now : Time) : Sql (PolicySeal env) := do
  match ← select fun db => db.proposalState request.proposalId with
  | none => raise (.http 404 (js "Proposal " ++ request.proposalId ++ js " not found"))
  | some state =>
    if state ≠ .planned then
      raise (.http 409 (js s!"Proposal state is '{state.name}', expected 'PLANNED'. ResponsePlan must be confirmed before requesting authorization."))
    else
      match ← select fun db => db.confirmedPlan request.proposalId with
      | none => raise (.http 409 (js "No confirmed ResponsePlan found for this proposal."))
      | some plan =>
        match hload : loads env.floats plan.cardJson with
        | none => raise (.http 500 (js "Confirmed ResponsePlan is corrupted (invalid JSON). Cannot authorize."))
        | some (.dict data) =>
          if storedPlanHash env data ≠ request.planHash then
            raise (.http 400 (js "plan_hash mismatch: request does not match confirmed ResponsePlan."))
          else
            match henv : envelopeDicts (envelopesOf data) with
            | none => raise .other
            | some envelopes =>
              if envelopes.isEmpty then
                raise (.http 500 (js "Confirmed ResponsePlan has no envelopes. Cannot authorize."))
              else if (constitutionBoundExecutionReason env envelopes).isSome then raise blocked
              else if !isAmong ["low", "medium"] (riskOf env data) then
                raise (.http 403 (js "ResponsePlan risk_level is " ++ env.repr (riskOf env data) ++
                  js ". PolicyAuthorization is only for low/medium risk. High-risk plans require human approval via nonce."))
              else if isTrue ((data.lookup (js "requires_human_approval")).getD (.bool true)) then
                raise (.http 403 (js "ResponsePlan requires human approval (requires_human_approval=True). Cannot auto-authorize. Use nonce/human approval path."))
              else
                return {
                  proposalId := request.proposalId
                  planHash := request.planHash
                  actionHash := storedActionHash env data
                  riskLevel := riskOf env data
                  envelopes := envelopes
                  envelopesFormed := by
                    have hdata := wellFormed_loads hload
                    rw [← wellFormed_dicts_iff, ← envelopeDicts_eq henv, envelopesOf]
                    cases hl : data.lookup (js "envelopes") with
                    | none => simp [WellFormed, WellFormedElements]
                    | some v => exact wellFormed_lookup hdata hl
                  expiry := now + request.expiryMinutes * (60 * 1000000) }
        | some _ => raise .other

/-- `request_policy_authorization`, up to the transaction or the publication. -/
def requestPolicy (xAgentKey : Str) (request : PolicyRequest) (now : Time) :
    Sql (PolicyNext env) := do
  match authenticateRequester env xAgentKey with
  | .error e => raise e
  | .ok _ =>
    match ← select (policyCard env request.proposalId request.planHash) with
    | none =>
      let sealing ← policyChecks env request now
      return .sealing sealing
    | some existing =>
      match ← resumePolicy env request.proposalId existing with
      | .inl response => return .done response
      | .inr publication =>
        -- the state and the plan are validated again
        let _ ← policyChecks env request now
        return .publish publication

end Request

section Seal

/-- The fields of a PolicyAuthorization, in the model's order. -/
def policyAuthorizationDump (request : PolicySeal env) (authorizationId : Str) : Dict :=
  [(js "sequence_number", .none), (js "previous_card_hash", .none),
    (js "card_type", .str (js "PolicyAuthorization")), (js "proposal_id", .str request.proposalId),
    (js "authorization_id", .str authorizationId), (js "plan_hash", .str request.planHash),
    (js "action_hash", .str request.actionHash), (js "risk_level", .str request.riskLevel),
    (js "policy_rule", .str (js "auto_approve_low_risk")),
    (js "expiry", .str (env.strTime request.expiry)),
    (js "envelopes", .list (request.envelopes.map .dict)),
    (js "runbook_version", .str (js "1.0"))]

theorem policyAuthorization_keys (request : PolicySeal env) (authorizationId : Str) :
    ((policyAuthorizationDump env request authorizationId).map Prod.fst).Nodup := by
  simp only [policyAuthorizationDump, List.map_cons, List.map_nil]
  decide +kernel

/-- `PolicyAuthorization(...)`. -/
def policyAuthorization (request : PolicySeal env) (authorizationId : Str) : Card env.floats where
  cardType := .policyAuthorization
  dump := policyAuthorizationDump env request authorizationId
  wellFormed := by
    have hdicts := wellFormed_dicts_iff.mpr request.envelopesFormed
    rw [WellFormed] at hdicts
    exact ⟨policyAuthorization_keys env request authorizationId,
      by simp [policyAuthorizationDump, WellFormedItems, hdicts, WellFormed]⟩
  typed := by
    simp only [policyAuthorizationDump, Dict.get]
    rfl

/-- The authorization of a policy card. -/
def policyAuthorizationRow (request : PolicySeal env) (authorizationId cardHash : Str) :
    AuthorizationRow where
  authorizationId := authorizationId
  proposalId := request.proposalId
  authorizationType := .policy
  planHash := request.planHash
  actionHash := request.actionHash
  envelopesJson := dumps (.list (request.envelopes.map .dict))
  expiry := request.expiry
  consumed := false
  consumedAt := none
  consumedBy := none
  status := .pending
  roomMessageId := none
  nonce := none
  cardHash := cardHash

/-- The transaction of `request_policy_authorization`; `authorizationId` is a `uuid4`. -/
def sealPolicy (request : PolicySeal env) (authorizationId : Str) : Sql PublishRequest := do
  begin
  attempt (do
    let approval ← sealCardInTransaction env (policyAuthorization env request authorizationId)
      request.proposalId (some (policyKey env request.proposalId request.planHash))
      (some .gateway) none
    execute fun db => some (insertAuthorization
      (policyAuthorizationRow env request authorizationId approval.cardHash) db)
    commit
    return ⟨request.proposalId, approval.cardHash, authorizationId, .authorized⟩)
    fun e => do
      rollback
      raise e

/-- The room message of a PolicyAuthorization. -/
def publishPolicy (request : PublishRequest) (uuid : Str) : Sql AdvanceRequest := do
  match ← select fun db => (db.proposal request.proposalId).bind roomOf with
  | none => raise (.http 502 (js "Cannot publish PolicyAuthorization: no Council Chamber for this proposal. Authorization is PENDING — retry is safe."))
  | some roomId =>
    if env.operatorAgentId = [] then
      raise (.http 502 (js "Cannot publish PolicyAuthorization: OPERATOR_AGENT_ID not configured. Authorization is PENDING — retry is safe."))
    else postSealedCard env request roomId uuid fun _ =>
      .http 502 (js "PolicyAuthorization was sealed but proposal-room publication failed. Authorization remains PENDING; retry is safe.")

end Seal

section Consume

structure ConsumedAuthorization where
  authorizationId : Str
  proposalId : Str
  planHash : Str
  actionHash : Str
  envelopes : Value

/-- What the checks of `consume_authorization` take into its transaction. -/
structure UseRequest where
  authorization : AuthorizationRow
  role : Role

/-- `_authenticate_operator` of the authorization routes. -/
def authenticateExecutor (key : Str) : Except PyException Role :=
  authenticateRole env [.operator, .gateway] "No agent keys configured"
    (fun role => js s!"Role '{role.name}' is not authorized to consume authorizations") key

/-- `consume_authorization`, up to its transaction. -/
def consumeAuthorizationChecks (xAgentKey authorizationId proposalId : Str) (now : Time) :
    Sql UseRequest := do
  match authenticateExecutor env xAgentKey with
  | .error e => raise e
  | .ok role =>
    match ← select fun db => db.authorization authorizationId with
    | none => raise (.http 404 (js "Unknown authorization_id"))
    | some auth =>
      match auth.status with
      | .pending => raise (.http 409 (js "authorization_pending"))
      | .consumed => raise (.http 409 (js "already_consumed"))
      | .published =>
        if auth.proposalId ≠ proposalId then
          raise (.http 400 (js "Proposal mismatch — authorization is for " ++ env.repr auth.proposalId ++
            js ", not " ++ env.repr proposalId))
        else if now > auth.expiry then raise (.http 410 (js "Authorization expired"))
        else
          match ← select fun db => db.confirmedPlan proposalId with
          | none => raise (.http 409 (js "No confirmed ResponsePlan found for this proposal."))
          | some plan =>
            match loads env.floats plan.cardJson with
            | none => raise (.http 500 (js "Confirmed ResponsePlan is corrupted (invalid JSON)."))
            | some (.dict data) =>
              if storedPlanHash env data ≠ auth.planHash then
                raise (.http 409 (js "plan_hash mismatch: stored plan has changed since authorization."))
              else if storedActionHash env data ≠ auth.actionHash then
                raise (.http 409 (js "action_hash mismatch: envelopes have changed since authorization."))
              else return ⟨auth, role⟩
            | some _ => raise .other

/-- `UPDATE authorizations SET status='CONSUMED'`. -/
def markConsumed (authorizationId : Str) (role : Role) (now : Time) : Db → Nat × Db :=
  updateAuthorizations (fun r => r.authorizationId == authorizationId && r.status == .published)
    fun r => { r with
      status := .consumed
      consumed := true
      consumedBy := some (js role.name)
      consumedAt := some now }

/-- The transaction of `consume_authorization`. -/
def consumeAuthorization (request : UseRequest) (now : Time) : Sql ConsumedAuthorization := do
  begin
  let auth := request.authorization
  match ← select fun db => db.authorization auth.authorizationId with
  | none =>
    rollback
    raise .other
  | some locked =>
    if locked.status ≠ .published then
      rollback
      raise (.http 409 (js "Authorization status changed (race)"))
    else
      let _ ← update (markConsumed auth.authorizationId request.role now)
      commit
      if auth.envelopesJson = [] then
        return ⟨auth.authorizationId, auth.proposalId, auth.planHash, auth.actionHash, .list []⟩
      else
        match loads env.floats auth.envelopesJson with
        | none => raise .other
        | some envelopes =>
          return ⟨auth.authorizationId, auth.proposalId, auth.planHash, auth.actionHash, envelopes⟩

end Consume
end Concordia.Gateway
