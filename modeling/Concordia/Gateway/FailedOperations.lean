import Concordia.Gateway.Steps

/-! Operations that end in an error: sealing a card, consuming a nonce and advancing an
authorization leave the tables as they found them. -/
namespace Concordia.Gateway
open Concordia.Python Concordia.Lib.Transactions Concordia.Lib.Transactions.Program
open Concordia.Js hiding Value

variable (env : Env)

/-- `validate_and_consume_nonce`: the checks of `validate_nonce_only` without the challenge, and
the consumption, in one transaction. -/
def validateAndConsumeNonce (proposalId nonce planHash actionHash consumedBy : Str) (now : Time) :
    Sql (Bool × Str) := do
  begin
  attempt (do
    match ← select fun db =>
        validateNonceOnly env db proposalId nonce planHash actionHash false now with
    | .error reason =>
      rollback
      return (false, js reason)
    | .ok _ =>
      execute fun db => some (consumeNonceOnly proposalId nonce consumedBy now db)
      commit
      return (true, js "Nonce valid and consumed"))
    fun e => do
      rollback
      raise e

/-- `_publish_and_advance`, with nothing in between. -/
def publishAndAdvance (consumption : Consumption) (uuid : Str) (now : Time) :
    Sql ConsumeResponse := do
  let publication ← publishApproval env consumption.toPublishRequest uuid
  let _ ← advance publication now
  return consumption.response

/-- `consume_nonce` to its end, with nothing in between. -/
def consumeNonceRequest (xAgentKey : Str) (request : ConsumeRequest) (authorizationId uuid : Str)
    (now : Time) : Sql ConsumeResponse := do
  match ← consumeNonce env xAgentKey request with
  | .done response => return response
  | .resume consumption => publishAndAdvance env consumption uuid now
  | .fresh fresh => do
    let consumption ← freshConsume env fresh authorizationId now
    publishAndAdvance env consumption uuid now

/-- `prepare_card` to its end, with nothing in between. -/
def prepareCard (cardTypeName xAgentKey : Str) (xIdempotencyKey : Option Str) (body : Dict)
    (uuid : Str) : Sql PrepareResponse := do
  match ← prepareChecks env cardTypeName xAgentKey xIdempotencyKey body uuid with
  | .inl response => return response
  | .inr request => prepareSeal env request

structure SameTables (db db' : Db) : Prop where
  cards : db'.cards = db.cards
  nonces : db'.nonces = db.nonces
  authorizations : db'.authorizations = db.authorizations
  proposals : db'.proposals = db.proposals

section Frames
variable {α β : Type} {db db' db'' : Db}

theorem SameTables.refl (db : Db) : SameTables db db := ⟨rfl, rfl, rfl, rfl⟩

theorem SameTables.trans (h : SameTables db db') (h' : SameTables db' db'') : SameTables db db'' :=
  ⟨h'.cards.trans h.cards, h'.nonces.trans h.nonces, h'.authorizations.trans h.authorizations,
    h'.proposals.trans h.proposals⟩

/-- An error leaves the connection idle, and the tables as they were. -/
def IntactOnError (p : Sql α) (db : Db) : Prop :=
  Settles p db fun r db' => ∀ e, r = .error e → SameTables db db'

theorem IntactOnError.of_atomic {p : Sql α} {Q : α → Db → Prop} (h : Atomic p db Q) : IntactOnError p db := by
  apply Settles.mono h
  intro r db' hr e he
  subst he
  obtain rfl : db' = db := hr
  exact SameTables.refl db'

theorem insertMessage_tables {row : MessageRow} (h : insertMessage row db = some db') :
    SameTables db db' := by
  unfold insertMessage at h
  split at h
  · cases h
  · obtain rfl := Option.some.inj h
    exact ⟨rfl, rfl, rfl, rfl⟩

theorem storeRoomMessage_tables (roomId content senderRole : Str) (metadata : Dict) (uuid : Str)
    (db : Db) : Settles (storeRoomMessage roomId content senderRole metadata uuid) db
      fun _ db' => SameTables db db' := by
  unfold Settles storeRoomMessage
  rw [ends_select_bind]
  split
  · simp [SameTables.refl]
  · rw [ends_execute_bind]
    refine ⟨fun db' hdb' => ⟨rfl, insertMessage_tables hdb'⟩, fun _ => ?_⟩
    simp [SameTables.refl]

theorem postSealedCard_tables (request : PublishRequest) (roomId uuid : Str)
    (failed : PyException → PyException) (db : Db) :
    Settles (postSealedCard env request roomId uuid failed) db fun _ db' => SameTables db db' := by
  unfold Settles postSealedCard
  rw [ends_select_bind]
  split
  · simp [SameTables.refl]
  · rw [ends_attempt_bind, ends_bind]
    apply (storeRoomParticipant_ends roomId _).mono
    intro r c hc
    obtain rfl := hc
    cases r with
    | error e => simp [SameTables.refl]
    | ok u =>
      apply Ends.mono (storeRoomMessage_tables ..)
      intro r c hc
      cases r with
      | error e => exact ⟨hc.1, hc.2⟩
      | ok messageId => exact ⟨hc.1, hc.2⟩

/-- The publication writes no more than a room message. -/
theorem publishApproval_tables (request : PublishRequest) (uuid : Str) (db : Db) :
    Settles (publishApproval env request uuid) db fun _ db' => SameTables db db' := by
  unfold Settles publishApproval
  split
  · simp [SameTables.refl]
  · rw [ends_select_bind]
    split
    · simp [SameTables.refl]
    · exact postSealedCard_tables ..

end Frames

section Operations
variable (db : Db)

theorem validateAndConsumeNonce_settles (proposalId nonce planHash actionHash consumedBy : Str)
    (now : Time) :
    Settles (validateAndConsumeNonce env proposalId nonce planHash actionHash consumedBy now) db
      fun r db' => (∀ reason, r ≠ .ok (true, reason)) → db' = db := by
  unfold Settles validateAndConsumeNonce
  rw [ends_begin_bind, ends_attempt, ends_select_bind]
  split
  · simp
  · simp only [ends_execute_bind]
    simp

theorem publishAndAdvance_intact (consumption : Consumption) (uuid : Str) (now : Time) :
    IntactOnError (publishAndAdvance env consumption uuid now) db := by
  apply Settles.bind (publishApproval_tables env ..)
  · intro publication db' hposted
    apply Settles.bind (advance_atomic publication now db')
    · intro moved db'' _
      simp
    · intro e db'' hsame e' _
      obtain rfl : db'' = db' := hsame
      exact hposted
  · intro e db' hposted e' _
    exact hposted

/-- A request whose consumption was committed and whose publication failed: the tables are those
that the consumption left, with the authorization pending. -/
def LeftPending (request : ConsumeRequest) (authorizationId : Str) (now : Time) (db' : Db) : Prop :=
  ∃ consumption committed, ConsumeStep env { request with approvalChannel := js "room" }
    authorizationId now db consumption committed ∧ SameTables committed db'

theorem consumeNonceRequest_settles (xAgentKey : Str) (request : ConsumeRequest)
    (authorizationId uuid : Str) (now : Time) :
    Settles (consumeNonceRequest env xAgentKey request authorizationId uuid now) db fun r db' =>
      ∀ e, r = .error e → SameTables db db' ∨ LeftPending env db request authorizationId now db' := by
  apply Settles.bind (@consumeNonce_atomic env db xAgentKey request)
  · intro next db' hnext
    obtain ⟨rfl, hnext⟩ := hnext
    cases next with
    | done response => simp
    | resume consumption =>
      apply Settles.mono (publishAndAdvance_intact env db' consumption uuid now)
      intro r db'' hr e he
      exact .inl (hr e he)
    | fresh fresh =>
      obtain ⟨rfl, -⟩ := hnext
      apply Settles.bind (freshConsume_atomic env ..)
      · intro consumption committed hconsumed
        apply Settles.mono (publishAndAdvance_intact env committed consumption uuid now)
        intro r db'' hr e he
        exact .inr ⟨consumption, committed, hconsumed, hr e he⟩
      · intro e db'' hsame e' _
        obtain rfl : db'' = db' := hsame
        exact .inl (SameTables.refl db'')
  · intro e db' hsame e' _
    obtain rfl : db' = db := hsame
    exact .inl (SameTables.refl db')

theorem prepareCard_settles (cardTypeName xAgentKey : Str) (xIdempotencyKey : Option Str)
    (body : Dict) (uuid : Str) :
    Settles (prepareCard env cardTypeName xAgentKey xIdempotencyKey body uuid) db fun r db' =>
      ∀ e, r = .error e → Upserted db db' := by
  apply Settles.bind (prepareChecks_settles env ..)
  · intro next db' hnext
    cases next with
    | inl response => simp
    | inr request =>
      apply Settles.mono (prepareSeal_atomic env request db')
      intro r db'' hr e he
      subst he
      obtain rfl : db'' = db' := hr
      exact hnext.1
  · intro e db' hnext e' _
    exact hnext.1

/-- What an operation leaves that ends in an error: the tables as they were, apart from the row
that a submission upserts for a new proposal, and from the authorization that stays pending when
only the publication behind a consumption fails. -/
structure FailuresIntact : Prop where
  sealing : ∀ card proposalId key role requestFp,
    IntactOnError (sealCard env card proposalId key role requestFp) db
  prepare : ∀ cardTypeName xAgentKey xIdempotencyKey body uuid,
    Settles (prepareCard env cardTypeName xAgentKey xIdempotencyKey body uuid) db fun r db' =>
      ∀ e, r = .error e → Upserted db db'
  validateAndConsume : ∀ proposalId nonce planHash actionHash consumedBy now,
    Settles (validateAndConsumeNonce env proposalId nonce planHash actionHash consumedBy now) db
      fun r db' => (∀ reason, r ≠ .ok (true, reason)) → db' = db
  checks : ∀ xAgentKey request, IntactOnError (consumeNonce env xAgentKey request) db
  approve : ∀ approverId proposalId nonce decision,
    IntactOnError (approveProposal env approverId proposalId nonce decision) db
  fresh : ∀ request authorizationId now, IntactOnError (freshConsume env request authorizationId now) db
  consume : ∀ xAgentKey request authorizationId uuid now,
    Settles (consumeNonceRequest env xAgentKey request authorizationId uuid now) db fun r db' =>
      ∀ e, r = .error e → SameTables db db' ∨ LeftPending env db request authorizationId now db'
  advance : ∀ request now, IntactOnError (advance request now) db

/-- Failed operations leave the state intact, whatever the state and the request are. -/
theorem failed_operations_intact : FailuresIntact env db where
  sealing card proposalId key role requestFp :=
    .of_atomic (sealCard_atomic env card proposalId key role requestFp db)
  prepare := prepareCard_settles env db
  validateAndConsume := validateAndConsumeNonce_settles env db
  checks xAgentKey request := .of_atomic (consumeNonce_atomic env xAgentKey request)
  approve approverId proposalId nonce decision :=
    .of_atomic (approveProposal_atomic env approverId proposalId nonce decision)
  fresh request authorizationId now :=
    .of_atomic (freshConsume_atomic env request authorizationId now db)
  consume := consumeNonceRequest_settles env db
  advance request now := .of_atomic (advance_atomic request now db)

end Operations
end Concordia.Gateway
