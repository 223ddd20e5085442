import Concordia.Gateway.Submission

/-! Confirming that a sealed card was published to its Council Chamber. -/
namespace Concordia.Gateway
open Concordia.Python Concordia.Lib.Transactions Concordia.Lib.Transactions.Program
open Concordia.Js hiding Value

variable (env : Env)

section MessageIds

def isLowerHex (u : UInt16) : Bool := (48 ≤ u && u ≤ 57) || (97 ≤ u && u ≤ 102)

def isAlphanumeric (u : UInt16) : Bool :=
  (48 ≤ u && u ≤ 57) || (65 ≤ u && u ≤ 90) || (97 ≤ u && u ≤ 122)

/-- `[0-9a-f]{8}-[0-9a-f]{4}-[0-9a-f]{4}-[0-9a-f]{4}-[0-9a-f]{12}`. -/
def isUuid (s : Str) : Bool :=
  match s.splitOn 45 with
  | [a, b, c, d, e] => [a, b, c, d, e].all (·.all isLowerHex) &&
      [a, b, c, d, e].map List.length == [8, 4, 4, 4, 12]
  | _ => false

/-- What `$` allows behind the match. -/
def withoutNewline (s : Str) : Str := if s.getLast? = some 10 then s.dropLast else s

def afterPrefix (start : String) (s : Str) : Option Str :=
  if (js start).isPrefixOf s then some (s.drop (js start).length) else none

def isBounded (low high : Nat) (allowed : UInt16 → Bool) (s : Str) : Bool :=
  s.all allowed && low ≤ s.length && s.length ≤ high

/-- `_REAL_MESSAGE_ID_PATTERN`. -/
def isRealMessageId (messageId : Str) : Bool :=
  let s := withoutNewline messageId
  isUuid s || (afterPrefix "msg-" s).any isUuid ||
    (afterPrefix "bm" s).any (isBounded 6 64 isAlphanumeric)

/-- `_TEST_MESSAGE_ID_PATTERN`. -/
def isTestMessageId (messageId : Str) : Bool :=
  let s := withoutNewline messageId
  let allowed (u : UInt16) : Bool := isAlphanumeric u || u == 95 || u == 45
  (afterPrefix "mock-msg-" s).any (isBounded 4 64 allowed) ||
    (afterPrefix "synthetic-" s).any (isBounded 8 64 allowed)

end MessageIds

section Publication

/-- The truth value of a JSON value. -/
def isTrue : Value → Bool
  | .none => false
  | .bool b => b
  | .int n => n != 0
  | .float text => text != js "0.0" && text != js "-0.0"
  | .str s => !s.isEmpty
  | .list elements => !elements.isEmpty
  | .dict items => !items.isEmpty

/-- `needle in text`. -/
def isIn (needle text : Str) : Bool := text.tails.any needle.isPrefixOf

/-- `_verify_room_publication`: the refusal, if any. -/
def roomPublicationRefusal (db : Db) (roomId messageId cardHash : Str) (agentRole : Role) :
    Option String :=
  match db.messages.find? fun r => r.roomId == roomId && r.messageId == messageId with
  | none => some "Claimed room message was not found in the Council Chamber."
  | some row =>
    if !row.senderRole.isEmpty && agentRole != .gateway && row.senderRole != js agentRole.name then
      some "Room message sender does not match the confirming agent role."
    else
      let metadataHash := match loads env.floats row.metadataJson with
        | some (.dict metadata) => Dict.get metadata "card_hash"
        | _ => .none
      if isTrue metadataHash then
        if isOptStr metadataHash (some cardHash) then none
        else some "Room message metadata points at a different sealed card."
      else if isIn cardHash row.content then none
      else some "Room message does not contain the sealed card hash."

end Publication

section Confirm

/-- The body of the request, aliases resolved. -/
structure ConfirmBody where
  submissionId : Str
  messageId : Str
  proposalId : Str
  cardHash : Str
  roomId : Option Str
  deriving DecidableEq

/-- What `confirm_publication` takes into its transaction. -/
structure ConfirmRequest extends ConfirmBody where
  confirmingRole : Role
  deriving DecidableEq

inductive ConfirmStatus where
  | confirmed | alreadyConfirmed
  deriving DecidableEq

structure ConfirmResponse where
  status : ConfirmStatus
  proposalId : Str
  cardHash : Str
  roomMessageId : Str
  newState : Option ProposalState

def isPrepared (body : ConfirmBody) (r : CardRow) : Bool :=
  r.proposalId == body.proposalId && r.cardHash == body.cardHash &&
    r.idempotencyKey == some body.submissionId

def cardNotFound : PyException :=
  .http 404 (js "Card not found — submission_id/card_hash/proposal_id mismatch. Was it prepared first?")

/-- The two role checks; `noRole` is the detail for a card without a preparing role. -/
def roleRefusal (confirmingRole : Role) (preparedBy : Option Role) (noRole : String) :
    Option PyException :=
  match preparedBy with
  | none => if confirmingRole ≠ .gateway then some (.http 403 (js noRole)) else none
  | some preparedBy =>
    if confirmingRole ≠ .gateway ∧ confirmingRole ≠ preparedBy then
      some (.http 403 (js s!"Agent role '{confirmingRole.name}' cannot confirm a card prepared by '{preparedBy.name}'"))
    else none

/-- The answer to a card that is published already. -/
def alreadyConfirmed (body : ConfirmBody) (row : CardRow) : Except PyException ConfirmResponse :=
  if row.roomMessageId ≠ some body.messageId then
    .error (.http 409 (js "Card was already confirmed with a different message ID."))
  else .ok ⟨.alreadyConfirmed, body.proposalId, body.cardHash, body.messageId, none⟩

/-- A published card that carries this message. -/
def messageHolder (messageId : Str) (db : Db) : Option CardRow :=
  db.cards.find? fun r => r.roomMessageId == some messageId && r.publishedAt.isSome

/-- The refusal of a card whose room message cannot be found; test mode does not look. -/
def publicationRefusal (body : ConfirmBody) (stored : Option Str) (agentRole : Role) (db : Db) :
    Option String :=
  if env.testMode then none
  else
    match stored.orElse fun _ => truthy body.roomId with
    | none => some "Cannot verify publication because the proposal has no room."
    | some room => roomPublicationRefusal env db room body.messageId body.cardHash agentRole

/-- `confirm_publication`, up to its transaction. -/
def confirmChecks (xAgentKey : Str) (body : ConfirmBody) :
    Sql (ConfirmResponse ⊕ ConfirmRequest) := do
  match env.agentKeys.lookup xAgentKey with
  | none => raise (.http 401 (js "Invalid agent key"))
  | some confirmingRole =>
    if body.submissionId = [] ∨ body.messageId = [] ∨ body.proposalId = [] ∨ body.cardHash = [] then
      raise (.http 400 (js "Missing submission_id, message_id, proposal_id, or card_hash"))
    else if body.messageId.length < 8 ∨ !(isRealMessageId body.messageId ||
        (env.testMode && isTestMessageId body.messageId)) then
      raise (.http 400 (js "Invalid message_id format: '" ++ body.messageId.take 40 ++
        js "'. Expected a real proposal-room message ID. Synthetic/fabricated IDs are not accepted in DAO treasury mode."))
    else
      match ← select fun db => db.cards.find? (isPrepared body) with
      | none => raise cardNotFound
      | some prepared =>
        match roleRefusal confirmingRole prepared.preparedByRole
            "Card has no recorded preparing role. Only gateway can confirm it." with
        | some e => raise e
        | none =>
          if prepared.publishedAt.isSome then
            match alreadyConfirmed body prepared with
            | .ok response => return .inl response
            | .error e => raise e
          else
            let stored ← select fun db => (db.proposal body.proposalId).bind roomOf
            if stored.isSome ∧ (truthy body.roomId).isSome ∧ stored ≠ truthy body.roomId then
              raise (.http 400 (js "room_id does not match the proposal's registered room."))
            else
              match ← select (publicationRefusal env body stored
                  (prepared.preparedByRole.getD confirmingRole)) with
              | some detail => raise (.http 409 (js detail))
              | none =>
                match ← select (messageHolder body.messageId) with
                | some holder =>
                  if holder.cardHash ≠ body.cardHash then
                    raise (.http 409 (js "message_id '" ++ body.messageId.take 20 ++
                      js "...' already used for a different card " ++ holder.cardHash.take 12 ++
                      js ". Each card requires a unique room message ID."))
                  else return .inr { body with confirmingRole := confirmingRole }
                | none => return .inr { body with confirmingRole := confirmingRole }

/-- The published card of the lowest sequence number above `sequenceNumber`. -/
def newerConfirmed (proposalId : Str) (sequenceNumber : Int) (db : Db) : Option CardRow :=
  ((db.chainOf proposalId).filter fun r =>
    sequenceNumber < r.sequenceNumber && r.publishedAt.isSome).head?

/-- The state that confirming the card leads to, and the severity that it brings; `none` is an
unreadable card. -/
def confirmedState (row : CardRow) (current : Option ProposalState) :
    Option (Option ProposalState × Option Str) :=
  match rowData env row with
  | none => none
  | some data =>
    match CardType.ofColumn row.cardType with
    | none => some (none, none)
    | some cardType =>
      let late := cardType == .proposalCard && current.any fun s => s != .detected
      let severity := if cardType == .assessment then truthy (some (strField data "severity")) else none
      some (if late then none else resolveStateOf cardType data, severity)

/-- Whether the state of the proposal allows the card; `none` where nothing is required. -/
def staleState (row : CardRow) (current : Option ProposalState) : Option PyException :=
  match (CardType.ofColumn row.cardType).bind fun t => (statePrerequisites t).map fun a => (t, a),
      current with
  | some (cardType, allowed), some current =>
    if allowed.contains current then none
    else some (.http 409 (js s!"Cannot confirm {cardType.name}: proposal state is now '{current.name}' (expected " ++
      sortedStates allowed ++ js "). This card is stale."))
  | _, _ => none

/-- `UPDATE proposals` of `confirm_publication`. -/
def confirmProposal (body : ConfirmBody) (newState : Option ProposalState) (severity : Option Str)
    (r : ProposalRow) : ProposalRow :=
  { r with
    state := newState.getD r.state
    roomId := (truthy body.roomId).orElse fun _ => r.roomId
    legacyRoomId := (truthy body.roomId).orElse fun _ => r.legacyRoomId
    severity := severity.orElse fun _ => r.severity }

/-- The transaction of `confirm_publication`: every check again, then the update. -/
def confirmTransaction (request : ConfirmRequest) (now : Time) : Sql ConfirmResponse := do
  begin
  let body := request.toConfirmBody
  match ← select fun db => db.cards.find? (isPrepared body) with
  | none =>
    rollback
    raise cardNotFound
  | some row =>
    match roleRefusal request.confirmingRole row.preparedByRole
        "Card has no recorded preparing role (possible crash). Only gateway can confirm it." with
    | some e =>
      rollback
      raise e
    | none =>
      if row.publishedAt.isSome then
        rollback
        match alreadyConfirmed body row with
        | .ok response => return response
        | .error e => raise e
      else
        let holder ← select (messageHolder body.messageId)
        if holder.any fun r => r.cardHash != body.cardHash then
          rollback
          raise (.http 409 (js "Room message ID is already bound to a different sealed card."))
        else
          let current ← select fun db => db.proposalState body.proposalId
          match confirmedState env row current with
          | none =>
            rollback
            raise .other
          | some (newState, severity) =>
            match staleState row current with
            | some e =>
              rollback
              raise e
            | none =>
              match ← select (newerConfirmed body.proposalId row.sequenceNumber) with
              | some newer =>
                rollback
                raise (.http 409 (js "Stale card rejected: a newer card (seq " ++
                  intText newer.sequenceNumber ++ js ", type " ++ newer.cardType ++
                  js ") was already confirmed. This card (seq " ++ intText row.sequenceNumber ++
                  js ") is outdated."))
              | none =>
                let _ ← update (publishCards (isPrepared body) body.messageId now)
                let _ ← update (updateProposals (fun r => r.proposalId == body.proposalId)
                  (confirmProposal body newState severity))
                commit
                return ⟨.confirmed, body.proposalId, body.cardHash, body.messageId, newState⟩

end Confirm
end Concordia.Gateway
