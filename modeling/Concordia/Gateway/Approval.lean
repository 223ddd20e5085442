import Concordia.Gateway.Integrity

/-! Plan and action hashes, nonces, and the lifecycle of an authorization. -/
namespace Concordia.Gateway
open Concordia.Python Concordia.Lib.Transactions Concordia.Lib.Transactions.Program
open Concordia.Js hiding Value

variable (env : Env)

section Hashes

def computePlanHash (plan : Dict) : Str := hashValue env (.dict plan)

/-- The fields that sealing adds, back at what they are before it. -/
def normalizePlanForHash (planData : Dict) : Dict :=
  ((planData.set (js "card_hash") .none).set (js "previous_card_hash") .none).set
    (js "sequence_number") .none

def computeActionHash (envelopes : Value) : Str := hashValue env envelopes

/-- `plan_data.get("envelopes", [])`. -/
def envelopesOf (planData : Dict) : Value := (planData.lookup (js "envelopes")).getD (.list [])

/-- `plan_data.get("revision", 1)`. -/
def revisionOf (planData : Dict) : Value := (planData.lookup (js "revision")).getD (.int 1)

/-- `compute_plan_hash(normalize_plan_for_hash(plan_data))`. -/
def storedPlanHash (planData : Dict) : Str := computePlanHash env (normalizePlanForHash planData)

def storedActionHash (planData : Dict) : Str := computeActionHash env (envelopesOf planData)

/-- `json.loads(row["card_json"])`; `none` is an exception. -/
def rowData (row : CardRow) : Option Dict :=
  match loads env.floats row.cardJson with
  | some (.dict data) => some data
  | _ => none

end Hashes

section Policy

def daoMutatingActions : List String :=
  ["execute_casper_governance_receipt", "execute_casper_rejection_receipt",
    "execute_casper_dissent_receipt", "execute_casper_x402_settlement",
    "execute_casper_wallet_signed_receipt", "rebalance_liquidity_allocation",
    "authorize_rwa_escrow"]

def legacyMutatingActions : List String :=
  ["scale_down", "terminate_instance", "modify_security_group", "delete_resource",
    "modify_database", "revoke_credentials"]

def mutatingActions : List String := daoMutatingActions ++ legacyMutatingActions

def isAmong (names : List String) (text : Str) : Bool := names.any fun name => js name == text

/-- `str(envelope.get("action_id") or "").strip().lower()`; an envelope's `action_id` is a string. -/
def actionOf (envelope : Dict) : Str :=
  match envelope.get "action_id" with
  | .str s => env.stripLower s
  | _ => []

def isConstitutionBoundExecutionAction (envelope : Dict) : Bool :=
  (js "execute_casper_").isPrefixOf (actionOf env envelope) ||
    isAmong daoMutatingActions (actionOf env envelope)

def containsConstitutionBoundExecution (envelopes : List Dict) : Bool :=
  envelopes.any (isConstitutionBoundExecutionAction env)

def constitutionBoundExecutionReason (envelopes : List Dict) : Option Str :=
  if env.requiresMultisig && containsConstitutionBoundExecution env envelopes then
    some (js "Casper execution receipts require multisig approval under the DAO Constitution.")
  else none

/-- `requires_human_approval`. -/
def requiresHumanApproval (riskLevel : Str) (envelopes : List Dict) : Bool :=
  (constitutionBoundExecutionReason env envelopes).isSome ||
    isAmong ["high", "critical"] (env.stripLower riskLevel) ||
    envelopes.any fun envelope => isAmong mutatingActions (actionOf env envelope)

end Policy

section Nonces

/-- `validate_nonce_only`; an error is the reason. -/
def validateNonceOnly (db : Db) (proposalId nonce planHash actionHash : Str)
    (requireChallengeVisibility : Bool) (now : Time) : Except String NonceRow :=
  match db.nonce proposalId nonce with
  | none => .error "Unknown nonce"
  | some row =>
    if row.invalidated then .error "Nonce invalidated by plan revision"
    else if row.consumed then .error "Nonce already consumed (replay attempt)"
    else if requireChallengeVisibility && (env.strip (row.challengeMessageId.getD [])).isEmpty then
      .error "Approval challenge is not yet visible in Council Chamber"
    else if row.planHash ≠ planHash then
      .error "Plan hash mismatch — approved plan differs from current"
    else if row.actionHash ≠ actionHash then
      .error "Action hash mismatch — envelopes may have been tampered"
    else if now > row.expiry then .error "Nonce expired"
    else .ok row

def updateNonces (proposalId nonce : Str) (change : NonceRow → NonceRow) (db : Db) : Db :=
  { db with nonces := db.nonces.map fun r =>
      if r.proposalId == proposalId && r.nonce == nonce then change r else r }

/-- `consume_nonce_only`. -/
def consumeNonceOnly (proposalId nonce consumedBy : Str) (now : Time) : Db → Db :=
  updateNonces proposalId nonce fun r =>
    { r with consumed := true, consumedBy := some consumedBy, consumedAt := some now }

/-- The two statements of nonce creation: every open nonce of the proposal is invalidated, and the
new one is inserted under the unique constraint. -/
def insertNonce (row : NonceRow) (db : Db) : Option Db :=
  let nonces := db.nonces.map fun r =>
    if r.proposalId == row.proposalId && !r.consumed then { r with invalidated := true } else r
  if nonces.any fun r => r.proposalId == row.proposalId && r.nonce == row.nonce then none
  else some { db with nonces := nonces ++ [row] }

end Nonces

section Lifecycle

/-- `UPDATE cards SET published_at=?, room_message_id=?` where `hits`, behind the row count. -/
def publishCards (hits : CardRow → Bool) (roomMessageId : Str) (now : Time) (db : Db) : Nat × Db :=
  let published := db.cards.map fun r =>
    if hits r then { r with publishedAt := some now, roomMessageId := some roomMessageId } else r
  (db.cards.countP hits, { db with cards := published })

def updateProposals (hits : ProposalRow → Bool) (change : ProposalRow → ProposalRow) (db : Db) :
    Nat × Db :=
  let changed := db.proposals.map fun r => if hits r then change r else r
  (db.proposals.countP hits, { db with proposals := changed })

def updateAuthorizations (hits : AuthorizationRow → Bool)
    (change : AuthorizationRow → AuthorizationRow) (db : Db) : Nat × Db :=
  let changed := db.authorizations.map fun r => if hits r then change r else r
  (db.authorizations.countP hits, { db with authorizations := changed })

/-- `card_hash=? AND proposal_id=?`. -/
def isCard (proposalId cardHash : Str) (r : CardRow) : Bool :=
  r.cardHash == cardHash && r.proposalId == proposalId

/-- `advance_authorization_lifecycle`. -/
def advanceAuthorizationLifecycle (proposalId cardHash authorizationId roomMessageId : Str)
    (targetProposalState : ProposalState) (now : Time) : Sql Bool := do
  begin
  attempt (do
    let card ← select fun db => db.cards.find? (isCard proposalId cardHash)
    let auth ← select fun db => db.authorization authorizationId
    let inc ← select fun db => db.proposal proposalId
    match card, auth, inc with
    | some card, some auth, some inc =>
      let isSource := card.publishedAt.isNone && auth.status == .pending && inc.state == .planned
      let isTarget := card.publishedAt.isSome && auth.status == .published &&
        inc.state == targetProposalState
      if isSource then do
        let c1 ← update (publishCards
          (fun r => isCard proposalId cardHash r && r.publishedAt.isNone) roomMessageId now)
        let c2 ← update (updateProposals (fun r => r.proposalId == proposalId && r.state == .planned)
          fun r => { r with state := targetProposalState })
        let c3 ← update (updateAuthorizations
          (fun r => r.authorizationId == authorizationId && r.status == .pending)
          fun r => { r with status := .published, roomMessageId := some roomMessageId })
        if c1 ≠ 1 ∨ c2 ≠ 1 ∨ c3 ≠ 1 then do
          rollback
          raise (.http 500 (js "Concurrent modification during state advance."))
        else do
          commit
          return true
      else if isTarget then do
        rollback
        return true
      else do
        rollback
        raise (.http 409 (js "inconsistent_lifecycle"))
    | _, _, _ => do
      rollback
      raise (.http 500 (js "Missing records for state transition.")))
    fun e => do
      if ← inTransaction then rollback
      raise e

end Lifecycle
end Concordia.Gateway
