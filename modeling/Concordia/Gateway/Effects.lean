import Concordia.Gateway.Operations

/-! What the programs of the routes do to the tables: one lemma for each of them, from the
database that it finds to the one that it leaves. -/
namespace Concordia.Gateway
open Concordia.Python Concordia.Lib.Transactions Concordia.Lib.Transactions.Program
open Concordia.Js hiding Value

variable (env : Env)

section Seal
variable (card : Card env.floats) (proposalId : Str) (key : Option Str) (role : Option Role)
  (requestFp : Option Str)

/-- Sealing appends a card behind the last one, or finds the card of an earlier call. -/
inductive SealStep (db : Db) : Sealed env.floats → Db → Prop
  | appended (db' : Db) (fresh : sealedBefore env card proposalId key db = none)
      (inserted : db.insertCard (nextRow env card proposalId key role requestFp db) = some db') :
      SealStep db (nextSealed env card proposalId db) db'
  | replayed (existing : CardRow) (result : Sealed env.floats)
      (found : sealedBefore env card proposalId key db = some existing)
      (parsed : parseCard env existing.cardJson = some result.card)
      (hash : result.cardHash = existing.cardHash) : SealStep db result db

theorem replaySealed_ends (existing : CardRow) (c : Connection Db) :
    Ends (replaySealed env card key requestFp existing) c fun r c' => c' = c ∧
      match r with
      | .ok result => parseCard env existing.cardJson = some result.card ∧
          result.cardHash = existing.cardHash
      | .error e => ∀ status detail, e ≠ .http status detail := by
  unfold replaySealed
  cases storedFingerprint env existing with
  | none => simp
  | some stored =>
    simp only
    split
    · simp [keyConflict]
    · cases parseCard env existing.cardJson <;> simp

/-- `seal_card_in_transaction`, within a transaction that started on `start`. -/
theorem sealCardInTransaction_ends (db start : Db) :
    Ends (sealCardInTransaction env card proposalId key role requestFp) ⟨db, some start⟩ fun r c =>
      c.saved = some start ∧
        match r with
        | .ok result => SealStep env card proposalId key role requestFp db result c.data
        | .error e => ∀ status detail, e ≠ .http status detail := by
  unfold sealCardInTransaction
  rw [ends_select_bind]
  cases hfound : sealedBefore env card proposalId key db with
  | some existing =>
    refine (replaySealed_ends env card key requestFp existing _).mono fun r c hr => ?_
    obtain ⟨rfl, hr⟩ := hr
    cases r with
    | ok result => exact ⟨rfl, .replayed existing result hfound hr.1 hr.2⟩
    | error e => exact ⟨rfl, hr⟩
  | none =>
    simp only [ends_select_bind, ends_attempt_bind, ends_execute]
    refine ⟨fun db' hdb' => ?_, fun _ => ?_⟩
    · simpa using SealStep.appended db' hfound hdb'
    · simp [DriverError.integrity, otherCardType]

theorem sealCard_atomic (db : Db) :
    Atomic (sealCard env card proposalId key role requestFp) db
      (SealStep env card proposalId key role requestFp db) := by
  unfold Atomic Settles sealCard
  rw [ends_begin_bind, ends_attempt, ends_select_bind]
  cases hfound : sealedBefore env card proposalId key db with
  | some existing =>
    rw [ends_rollback_bind]
    refine (replaySealed_ends env card key requestFp existing _).mono fun r c hr => ?_
    obtain ⟨rfl, hr⟩ := hr
    cases r with
    | ok result => exact ⟨rfl, .replayed existing result hfound hr.1 hr.2⟩
    | error e => cases e <;> simp_all
  | none =>
    simp only [ends_select_bind, ends_execute_bind]
    refine ⟨fun db' hdb' => ?_, fun _ => ?_⟩
    · simpa using SealStep.appended db' hfound hdb'
    · simp [DriverError.integrity]

theorem prepareSeal_atomic (request : SealRequest env.floats) (db : Db) :
    Atomic (prepareSeal env request) db fun _ db' => ∃ result,
      SealStep env request.card request.proposalId (some request.idempotencyKey)
        (some request.preparedByRole) (some request.requestFp) db result db' := by
  unfold Atomic Settles prepareSeal
  rw [ends_attempt_bind]
  refine Ends.mono (sealCard_atomic env ..).ends fun r c hc => ?_
  cases r with
  | ok result => simpa using ⟨hc.1, result, hc.2⟩
  | error e => cases e <;> simpa using hc

end Seal

section Confirm

/-- What confirming a card leaves: the card is published, the proposal moves. -/
def confirmed (request : ConfirmRequest) (newState : Option ProposalState) (severity : Option Str)
    (now : Time) (db : Db) : Db :=
  (updateProposals (fun r => r.proposalId == request.proposalId)
    (confirmProposal request.toConfirmBody newState severity)
    (publishCards (isPrepared request.toConfirmBody) request.messageId now db).2).2

/-- The conditions under which a card is confirmed. -/
structure Confirmable (request : ConfirmRequest) (db : Db) (row : CardRow)
    (newState : Option ProposalState) (severity : Option Str) : Prop where
  found : db.cards.find? (isPrepared request.toConfirmBody) = some row
  role : request.confirmingRole = .gateway ∨ row.preparedByRole = some request.confirmingRole
  unpublished : row.publishedAt = none
  outcome : confirmedState env row (db.proposalState request.proposalId) = some (newState, severity)
  fits : staleState row (db.proposalState request.proposalId) = none
  latest : newerConfirmed request.proposalId row.sequenceNumber db = none
  unheld : ∀ holder, messageHolder request.messageId db = some holder →
    holder.cardHash = request.cardHash

theorem role_of_not_refused {confirmingRole : Role} {preparedBy : Option Role} {noRole : String}
    (h : roleRefusal confirmingRole preparedBy noRole = none) :
    confirmingRole = .gateway ∨ preparedBy = some confirmingRole := by
  unfold roleRefusal at h
  cases preparedBy with
  | none => by_cases hg : confirmingRole = .gateway <;> simp_all
  | some role =>
    by_cases hg : confirmingRole = .gateway
    · exact .inl hg
    · simp only [hg, ne_eq, not_false_eq_true, true_and, ite_eq_right_iff, reduceCtorEq, imp_false,
        not_not] at h
      exact .inr (congrArg some h.symm)

theorem confirmTransaction_atomic (request : ConfirmRequest) (now : Time) (db : Db) :
    Atomic (confirmTransaction env request now) db fun _ db' => db' = db ∨
      ∃ row newState severity, Confirmable env request db row newState severity ∧
        db' = confirmed request newState severity now db := by
  unfold Atomic Settles confirmTransaction
  rw [ends_begin_bind]
  simp only [ends_select_bind]
  cases hrow : db.cards.find? (isPrepared request.toConfirmBody) with
  | none => simp
  | some row =>
    simp only
    cases hrole : roleRefusal request.confirmingRole row.preparedByRole _ with
    | some e => simp
    | none =>
      simp only
      split
      · cases alreadyConfirmed request.toConfirmBody row <;> simp
      · rename_i hunpublished
        simp only [ends_select_bind]
        split
        · simp
        · rename_i hheld
          simp only [ends_select_bind]
          cases hstate : confirmedState env row (db.proposalState request.proposalId) with
          | none => simp
          | some outcome =>
            obtain ⟨newState, severity⟩ := outcome
            simp only
            cases hfits : staleState row (db.proposalState request.proposalId) with
            | some e => simp
            | none =>
              simp only [ends_select_bind]
              cases hlatest : newerConfirmed request.proposalId row.sequenceNumber db with
              | some newer => simp
              | none =>
                refine ⟨rfl, .inr ⟨row, newState, severity, ?_, rfl⟩⟩
                refine ⟨hrow, role_of_not_refused hrole, by simpa using hunpublished, hstate, hfits,
                  hlatest, fun holder hholder => ?_⟩
                simpa [hholder] using hheld

end Confirm

section Nonces

theorem createNonce_atomic (row : NonceRow) (db : Db) :
    Atomic (createNonce row) db fun _ db' => insertNonce row db = some db' := by
  unfold Atomic Settles createNonce
  rw [ends_attempt, ends_begin_bind, ends_attempt_bind, ends_execute_bind]
  refine ⟨fun db' hdb' => ?_, fun _ => ?_⟩
  · simpa using hdb'
  · simp

/-- The challenge is recorded on a nonce that is still open. -/
def challenged (record : ChallengeRecord) (db : Db) : Db :=
  let isOpen (r : NonceRow) : Bool := r.proposalId == record.proposalId && r.nonce == record.nonce &&
    !r.consumed && !r.invalidated
  { db with nonces := db.nonces.map fun r =>
      if isOpen r then { r with challengeMessageId := some record.messageId } else r }

theorem recordChallenge_settles (record : ChallengeRecord) (db : Db) :
    Settles (recordChallenge record) db fun _ db' => db' = challenged record db := by
  unfold Settles recordChallenge
  rw [ends_update_bind]
  split <;> simp [challenged]

/-- What a consumed nonce leaves, behind the card that was sealed for it. -/
def consumed (request : ConsumeRequest) (authorizationId envelopesJson : Str) (expiry : Time)
    (cardHash : Str) (now : Time) (db : Db) : Db :=
  consumeNonceOnly request.proposalId request.nonce request.consumedBy now
    (insertAuthorization
      (humanAuthorizationRow request authorizationId envelopesJson expiry cardHash) db)

/-- The conditions under which a nonce is consumed. -/
structure Consumable (request : ConsumeRequest) (now : Time) (db : Db) (row : NonceRow)
    (envelopesJson : Str) : Prop where
  planned : db.proposalState request.proposalId = some .planned
  valid : validateNonceOnly env db request.proposalId request.nonce request.planHash
    request.actionHash true now = .ok row
  envelopes : planEnvelopesJson env request.proposalId db = some envelopesJson

/-- The approval card of a proposal. -/
structure IsApproval (card : Card env.floats) (proposalId : Str) : Prop where
  type : card.cardType = .structuredApproval
  about : cardProposalId card = proposalId

/-- A consumption: the approval card is sealed, the authorization is inserted, the nonce is
consumed. -/
inductive ConsumeStep (request : ConsumeRequest) (authorizationId : Str) (now : Time) (db : Db) :
    Consumption → Db → Prop
  | intro (row : NonceRow) (envelopesJson : Str) (card : Card env.floats)
      (approval : Sealed env.floats) (behindSeal : Db) (consumption : Consumption)
      (consumable : Consumable env request now db row envelopesJson)
      (isApproval : IsApproval env card request.proposalId)
      (sealing : SealStep env card request.proposalId
        (some (deriveIdempotencyKey env "gateway_approval" request.proposalId request.nonce))
        (some .gateway) none db approval behindSeal)
      (target : consumption.toPublishRequest =
        ⟨request.proposalId, approval.cardHash, authorizationId, .approved⟩) :
      ConsumeStep request authorizationId now db consumption
        (consumed request authorizationId envelopesJson row.expiry approval.cardHash now behindSeal)

theorem structuredApproval_about (request : ConsumeRequest) (actionId : Str) (decision : String)
    (legacyRoomId : Str) (expiry : Time) (reason : Option Str) (planRevision : Int) :
    IsApproval env (structuredApproval env request actionId decision legacyRoomId expiry reason
      planRevision) request.proposalId := by
  refine ⟨rfl, ?_⟩
  rw [cardProposalId, if_neg (by simp [structuredApproval])]
  simp only [structuredApproval, structuredApprovalDump, strField, Dict.get]
  rfl

theorem freshConsume_atomic (request : ConsumeRequest) (authorizationId : Str) (now : Time)
    (db : Db) :
    Atomic (freshConsume env request authorizationId now) db
      (ConsumeStep env request authorizationId now db) := by
  unfold Atomic Settles freshConsume
  rw [ends_begin_bind, ends_attempt]
  simp only [ends_select_bind]
  split
  · simp
  · rename_i hplanned
    cases (db.proposal request.proposalId).bind roomOf with
    | none => simp
    | some roomId =>
      simp only [ends_select_bind]
      cases hvalid : validateNonceOnly env db request.proposalId request.nonce request.planHash
        request.actionHash true now with
      | error reason => simp
      | ok row =>
        simp only [ends_select_bind]
        cases henvelopes : planEnvelopesJson env request.proposalId db with
        | none => cases intField row.planRevision <;> simp
        | some envelopesJson =>
          cases intField row.planRevision with
          | none => simp
          | some planRevision =>
            simp only
            cases loads env.floats envelopesJson with
            | none => simp
            | some envelopes =>
              rw [ends_bind]
              refine (sealCardInTransaction_ends env _ request.proposalId _ _ _ db db).mono
                fun r c hr => ?_
              obtain ⟨hsaved, hr⟩ := hr
              obtain ⟨behindSeal, saved⟩ := c
              obtain rfl : saved = some db := hsaved
              cases r with
              | error e => cases e <;> simp_all
              | ok approval =>
                have hstate : db.proposalState request.proposalId = some .planned := by
                  simpa [Db.proposalState] using hplanned
                simpa [consumed] using ConsumeStep.intro row envelopesJson _ approval behindSeal
                  ⟨⟨request.proposalId, approval.cardHash, authorizationId, .approved⟩,
                    request.planHash, request.actionHash, envelopes⟩
                  ⟨hstate, hvalid, henvelopes⟩ (structuredApproval_about ..) hr rfl

end Nonces

section Authorizations

/-- What a policy authorization leaves, behind the card that was sealed for it. -/
def policyAuthorized (request : PolicySeal env) (authorizationId cardHash : Str) (db : Db) : Db :=
  insertAuthorization (policyAuthorizationRow env request authorizationId cardHash) db

inductive PolicyStep (request : PolicySeal env) (authorizationId : Str) (db : Db) :
    PublishRequest → Db → Prop
  | intro (approval : Sealed env.floats) (behindSeal : Db)
      (sealing : SealStep env (policyAuthorization env request authorizationId) request.proposalId
        (some (policyKey env request.proposalId request.planHash)) (some .gateway) none db approval
        behindSeal) :
      PolicyStep request authorizationId db
        ⟨request.proposalId, approval.cardHash, authorizationId, .authorized⟩
        (policyAuthorized env request authorizationId approval.cardHash behindSeal)

theorem sealPolicy_atomic (request : PolicySeal env) (authorizationId : Str) (db : Db) :
    Atomic (sealPolicy env request authorizationId) db
      (PolicyStep env request authorizationId db) := by
  unfold Atomic Settles sealPolicy
  rw [ends_begin_bind, ends_attempt, ends_bind]
  refine (sealCardInTransaction_ends env _ request.proposalId _ _ _ db db).mono fun r c hr => ?_
  obtain ⟨hsaved, hr⟩ := hr
  obtain ⟨behindSeal, saved⟩ := c
  obtain rfl : saved = some db := hsaved
  cases r with
  | error e => simp
  | ok approval => simpa [policyAuthorized] using PolicyStep.intro approval behindSeal hr

/-- What the lifecycle advance leaves. -/
def advanced (request : AdvanceRequest) (now : Time) (db : Db) : Db :=
  (updateAuthorizations
    (fun r => r.authorizationId == request.authorizationId && r.status == .pending)
    (fun r => { r with status := .published, roomMessageId := some request.roomMessageId })
    (updateProposals (fun r => r.proposalId == request.proposalId && r.state == .planned)
      (fun r => { r with state := request.target })
      (publishCards (fun r => isCard request.proposalId request.cardHash r && r.publishedAt.isNone)
        request.roomMessageId now db).2).2).2

/-- The source of the advance: one unpublished card, one pending authorization, one proposal that
is planned. -/
structure Advanceable (request : AdvanceRequest) (db : Db) : Prop where
  card : db.cards.countP (fun r =>
    isCard request.proposalId request.cardHash r && r.publishedAt.isNone) = 1
  proposal : db.proposals.countP (fun r =>
    r.proposalId == request.proposalId && r.state == .planned) = 1
  authorization : db.authorizations.countP (fun r =>
    r.authorizationId == request.authorizationId && r.status == .pending) = 1
  planned : db.proposalState request.proposalId = some .planned

theorem advance_atomic (request : AdvanceRequest) (now : Time) (db : Db) :
    Atomic (advance request now) db fun _ db' => db' = db ∨
      Advanceable request db ∧ db' = advanced request now db := by
  unfold Atomic Settles advance advanceAuthorizationLifecycle
  rw [ends_begin_bind, ends_attempt]
  simp only [ends_select_bind]
  cases db.cards.find? (isCard request.proposalId request.cardHash) with
  | none => simp
  | some card =>
    cases db.authorization request.authorizationId with
    | none => simp
    | some auth =>
      cases hproposal : db.proposal request.proposalId with
      | none => simp
      | some inc =>
        simp only
        split
        · rename_i hsource
          simp only [ends_update_bind]
          split
          · simp
          · rename_i hcounts
            simp only [not_or, not_not] at hcounts
            obtain ⟨hcards, hproposals, hauthorizations⟩ := hcounts
            have hplanned : db.proposalState request.proposalId = some .planned := by
              simp_all [Db.proposalState]
            have hadvance : Advanceable request db :=
              ⟨hcards, hproposals, hauthorizations, hplanned⟩
            simpa [advanced] using Or.inr hadvance
        · split <;> simp

theorem consumeAuthorization_settles (request : UseRequest) (now : Time) (db : Db) :
    Settles (consumeAuthorization env request now) db fun _ db' => db' = db ∨
      db' = (markConsumed request.authorization.authorizationId request.role now db).2 := by
  unfold Settles consumeAuthorization
  rw [ends_begin_bind]
  simp only [ends_select_bind]
  cases db.authorization request.authorization.authorizationId with
  | none => simp
  | some locked =>
    simp only
    split
    · simp
    · simp only [ends_update_bind, ends_commit_bind]
      split
      · simp
      · cases loads env.floats request.authorization.envelopesJson <;> simp

end Authorizations

section Close

/-- The states that confirming a card of a type can lead to. -/
def stateOutcomes : List (CardType × ProposalState) :=
  outcomeTransitions.map (fun e => (e.1.1, e.2)) ++
    CardType.all.filterMap fun t => (baseTransition t).map fun s => (t, s)

theorem mem_stateOutcomes {t : CardType} {data : Dict} {s : ProposalState}
    (h : resolveStateOf t data = some s) : (t, s) ∈ stateOutcomes := by
  have hbase : ∀ t s, baseTransition t = some s → (t, s) ∈ stateOutcomes := by
    intro t s h
    refine List.mem_append_right _ (List.mem_filterMap.mpr ⟨t, ?_, by rw [h]; rfl⟩)
    cases t <;> simp [CardType.all]
  unfold resolveStateOf at h
  cases hdecision : data.get "decision" with
  | str decision =>
    simp only [hdecision] at h
    split at h
    · rename_i entry hentry
      obtain rfl : entry.2 = s := by simpa using h
      have htype := List.find?_some hentry
      simp only [Bool.and_eq_true, beq_iff_eq] at htype
      refine List.mem_append_left _ (List.mem_map.mpr ⟨entry, List.mem_of_find?_eq_some hentry, ?_⟩)
      rw [htype.1]
    · exact hbase t s h
  | _ => exact hbase t s (by simpa [hdecision] using h)

theorem resolveStateOf_structuredApproval (data : Dict) :
    resolveStateOf .structuredApproval data ≠ none := by
  unfold resolveStateOf
  simp only
  split <;> simp [baseTransition]

/-- What refusing a plan leaves, behind the card that was sealed for it. -/
def closed (request : CloseRequest) (newState : Option ProposalState) (db : Db) : Db :=
  (updateProposals (fun r => r.proposalId == request.proposalId)
    (fun r => { r with state := newState.getD r.state })
    (invalidateNonce request.proposalId request.nonce db)).2

theorem structuredApproval_decision (request : ConsumeRequest) (actionId : Str) (decision : String)
    (legacyRoomId : Str) (expiry : Time) (reason : Option Str) (planRevision : Int) :
    (structuredApproval env request actionId decision legacyRoomId expiry reason
      planRevision).dump.get "decision" = .str (js decision) := by
  simp only [structuredApproval, structuredApprovalDump, Dict.get]
  rfl

inductive CloseStep (closure : Closure) (more : Db → Db) (request : CloseRequest) (now : Time)
    (db : Db) : Str → Db → Prop
  | intro (row : NonceRow) (card : Card env.floats) (approval : Sealed env.floats) (behindSeal : Db)
      (planned : db.proposalState request.proposalId = some .planned)
      (valid : validateNonceOnly env db request.proposalId request.nonce request.plan.planHash
        request.plan.actionHash true now = .ok row)
      (isApproval : IsApproval env card request.proposalId)
      (decided : card.dump.get "decision" = .str (js closure.decision))
      (sealing : SealStep env card request.proposalId
        (some (deriveIdempotencyKey env closure.keyPrefix request.proposalId request.nonce))
        (some .gateway) none db approval behindSeal) :
      CloseStep closure more request now db approval.cardHash
        (more (closed request (resolveStateOf .structuredApproval approval.card.dump) behindSeal))

theorem closePlan_atomic (closure : Closure) (more : Db → Db) (request : CloseRequest)
    (now : Time) (db : Db) :
    Atomic (closePlan env closure more request now) db fun outcome db' =>
      match outcome with
      | .refused _ _ => db' = db
      | .applied cardHash _ => CloseStep env closure more request now db cardHash db' := by
  unfold Atomic Settles closePlan
  rw [ends_attempt, ends_begin_bind]
  simp only [ends_select_bind]
  split
  · simp
  · rename_i hplanned
    simp only [ends_select_bind]
    cases hvalid : validateNonceOnly env db request.proposalId request.nonce request.plan.planHash
      request.plan.actionHash true now with
    | error reason => simp
    | ok row =>
      simp only
      cases intField (revisionOf request.plan.planData) with
      | none => simp
      | some planRevision =>
        simp only
        rw [ends_bind]
        refine (sealCardInTransaction_ends env _ request.proposalId _ _ _ db db).mono
          fun r c hr => ?_
        obtain ⟨hsaved, hr⟩ := hr
        obtain ⟨behindSeal, saved⟩ := c
        obtain rfl : saved = some db := hsaved
        cases r with
        | error e => cases e <;> simp_all
        | ok approval =>
          have hstate : db.proposalState request.proposalId = some .planned := by
            simpa [Db.proposalState] using hplanned
          have hstep := @CloseStep.intro env closure more request now db row _ approval behindSeal
            hstate hvalid (structuredApproval_about ..) (structuredApproval_decision ..) hr
          rw [closed] at hstep
          cases hresolve : resolveStateOf .structuredApproval approval.card.dump with
          | some newState => simpa [hresolve] using hstep
          | none => exact absurd hresolve (resolveStateOf_structuredApproval _)

end Close

section Rooms

/-- `UNIQUE(message_id)`. -/
def UniqueMessages (db : Db) : Prop :=
  ∀ m ∈ db.messages, ∀ m' ∈ db.messages, m.messageId = m'.messageId → m = m'

/-- Messages stay, and new ones have new identifiers. -/
structure MessagesGrow (db db' : Db) : Prop where
  kept : ∀ m ∈ db.messages, m ∈ db'.messages
  unique : UniqueMessages db → UniqueMessages db'

theorem MessagesGrow.same {db db' : Db} (h : db'.messages = db.messages) : MessagesGrow db db' := by
  constructor
  · rw [h]
    exact fun m hm => hm
  · unfold UniqueMessages
    rw [h]
    exact id

/-- A message that the gateway posted about a card. -/
def GatewayMessage (db : Db) (messageId cardHash : Str) : Prop :=
  ∃ m ∈ db.messages, m.messageId = messageId ∧
    m.metadataJson = dumpsSorted (.dict (publisherMetadata cardHash))

/-- A proposal with a room under the older column has one under the newer. -/
def RoomsNamed (db : Db) : Prop := ∀ p ∈ db.proposals, p.roomId = none → p.legacyRoomId = none

/-- Only the rooms and their messages differ, and the rooms that proposals name. -/
structure OnlyRooms (db db' : Db) : Prop where
  cards : db'.cards = db.cards
  nonces : db'.nonces = db.nonces
  authorizations : db'.authorizations = db.authorizations
  states : ∀ p, db'.proposalState p = db.proposalState p
  named : RoomsNamed db → RoomsNamed db'
  messages : MessagesGrow db db'

theorem OnlyRooms.refl (db : Db) : OnlyRooms db db :=
  ⟨rfl, rfl, rfl, fun _ => rfl, id, .same rfl⟩

theorem proposalState_update {hits : ProposalRow → Bool} {change : ProposalRow → ProposalRow}
    (hid : ∀ r, (change r).proposalId = r.proposalId) (db : Db) (p : Str) :
    (updateProposals hits change db).2.proposalState p =
      (db.proposal p).map fun r => if hits r then (change r).state else r.state := by
  simp only [updateProposals, Db.proposalState, Db.proposal, List.find?_map]
  have hkey : (fun r : ProposalRow => r.proposalId == p) ∘
      (fun r => if hits r then change r else r) = fun r => r.proposalId == p := by
    funext r
    simp only [Function.comp_apply]
    split
    · rw [hid]
    · rfl
  rw [hkey, Option.map_map]
  congr 1
  funext r
  simp only [Function.comp_apply]
  split <;> rfl

theorem RoomsNamed.updated {hits : ProposalRow → Bool} {change : ProposalRow → ProposalRow} {db : Db}
    (h : RoomsNamed db)
    (hchange : ∀ r : ProposalRow, (r.roomId = none → r.legacyRoomId = none) →
      (change r).roomId = none → (change r).legacyRoomId = none) :
    RoomsNamed (updateProposals hits change db).2 := by
  intro p hp
  obtain ⟨r, hr, rfl⟩ := List.mem_map.mp hp
  split
  · exact hchange r (h r hr)
  · exact h r hr

theorem insertMessage_rooms {row : MessageRow} {db db' : Db} (h : insertMessage row db = some db') :
    OnlyRooms db db' := by
  unfold insertMessage at h
  split at h
  · simp at h
  · rename_i hfresh
    obtain rfl := Option.some.inj h
    have hother : ∀ m ∈ db.messages, m.messageId ≠ row.messageId := by simpa using hfresh
    refine ⟨rfl, rfl, rfl, fun _ => rfl, id, fun m hm => List.mem_append_left _ hm, ?_⟩
    intro hunique m hm m' hm' hid
    rcases List.mem_append.mp hm with hold | hnew
    · rcases List.mem_append.mp hm' with hold' | hnew'
      · exact hunique m hold m' hold' hid
      · rw [List.mem_singleton.mp hnew'] at hid
        exact absurd hid (hother m hold)
    · rw [List.mem_singleton.mp hnew] at hid ⊢
      rcases List.mem_append.mp hm' with hold' | hnew'
      · exact absurd hid.symm (hother m' hold')
      · exact (List.mem_singleton.mp hnew').symm

theorem storeRoomParticipant_ends (roomId : Str) (c : Connection Db) :
    Ends (storeRoomParticipant roomId) c fun _ c' => c' = c := by
  unfold storeRoomParticipant
  rw [ends_select_bind]
  split <;> simp

theorem storeRoomMessage_settles (roomId content senderRole : Str) (metadata : Dict) (uuid : Str)
    (db : Db) :
    Settles (storeRoomMessage roomId content senderRole metadata uuid) db fun r db' =>
      OnlyRooms db db' ∧ ∀ messageId, r = .ok messageId → ∃ m ∈ db'.messages,
        m.messageId = messageId ∧ m.metadataJson = dumpsSorted (.dict metadata) := by
  unfold Settles storeRoomMessage
  rw [ends_select_bind]
  split
  · simp [OnlyRooms.refl]
  · rw [ends_execute_bind]
    refine ⟨fun db' hdb' => ?_, fun _ => by simp [OnlyRooms.refl]⟩
    refine ⟨rfl, insertMessage_rooms hdb', fun messageId hid => ?_⟩
    obtain rfl := Except.ok.inj hid
    unfold insertMessage at hdb'
    simp only [Option.ite_none_left_eq_some, Option.some.injEq] at hdb'
    obtain ⟨-, rfl⟩ := hdb'
    exact ⟨_, List.mem_append_right _ (List.mem_singleton_self _), rfl, rfl⟩

theorem postMessage_settles (xAgentKey roomId content : Str) (senderRole : Option Str)
    (metadata : Dict) (uuid : Str) (db : Db) :
    Settles (postMessage env xAgentKey roomId content senderRole metadata uuid) db fun _ db' =>
      OnlyRooms db db' := by
  unfold postMessage
  split
  · simp [Settles, OnlyRooms.refl]
  · exact Ends.mono (storeRoomMessage_settles ..) fun r c hc => ⟨hc.1, hc.2.1⟩

theorem postSealedCard_settles (request : PublishRequest) (roomId uuid : Str)
    (failed : PyException → PyException) (db : Db) :
    Settles (postSealedCard env request roomId uuid failed) db fun r db' => OnlyRooms db db' ∧
      ∀ next, r = .ok next → next.toPublishRequest = request ∧
        GatewayMessage db' next.roomMessageId request.cardHash := by
  unfold Settles postSealedCard
  rw [ends_select_bind]
  split
  · simp [OnlyRooms.refl]
  · rw [ends_attempt_bind, ends_bind]
    refine (storeRoomParticipant_ends roomId _).mono fun r c hc => ?_
    obtain rfl := hc
    cases r with
    | error e => simp [OnlyRooms.refl]
    | ok u =>
      refine Ends.mono (storeRoomMessage_settles ..) fun r c hc => ?_
      cases r with
      | error e => simpa using ⟨hc.1, hc.2.1⟩
      | ok messageId =>
        simp only [ends_pure]
        refine ⟨hc.1, hc.2.1, fun next hnext => ?_⟩
        obtain rfl := Except.ok.inj hnext
        exact ⟨rfl, hc.2.2 messageId rfl⟩

theorem publishApproval_settles (request : PublishRequest) (uuid : Str) (db : Db) :
    Settles (publishApproval env request uuid) db fun r db' => OnlyRooms db db' ∧
      ∀ next, r = .ok next → next.toPublishRequest = request ∧
        GatewayMessage db' next.roomMessageId request.cardHash := by
  unfold Settles publishApproval
  split
  · simp [OnlyRooms.refl]
  · rw [ends_select_bind]
    split
    · simp [OnlyRooms.refl]
    · exact postSealedCard_settles ..

theorem publishPolicy_settles (request : PublishRequest) (uuid : Str) (db : Db) :
    Settles (publishPolicy env request uuid) db fun r db' => OnlyRooms db db' ∧
      ∀ next, r = .ok next → next.toPublishRequest = request ∧
        GatewayMessage db' next.roomMessageId request.cardHash := by
  unfold Settles publishPolicy
  rw [ends_select_bind]
  split
  · simp [OnlyRooms.refl]
  · split
    · simp [OnlyRooms.refl]
    · exact postSealedCard_settles ..

theorem postChallenge_settles (request : ChallengeRequest) (uuid : Str) (db : Db) :
    Settles (postChallenge request uuid) db fun _ db' => OnlyRooms db db' := by
  unfold Settles postChallenge
  rw [ends_attempt_bind, ends_bind]
  refine (storeRoomParticipant_ends _ _).mono fun r c hc => ?_
  obtain rfl := hc
  cases r with
  | error e => simp [OnlyRooms.refl]
  | ok u =>
    refine Ends.mono (storeRoomMessage_settles ..) fun r c hc => ?_
    cases r <;> simp_all

theorem notifyRoom_settles (notification : Notification) (uuid : Str) (db : Db) :
    Settles (notifyRoom env notification uuid) db fun r db' => OnlyRooms db db' ∧
      ∀ messageId, r = .ok (some messageId) →
        GatewayMessage db' messageId notification.cardHash := by
  unfold Settles notifyRoom
  split
  · simp [OnlyRooms.refl]
  · rw [ends_select_bind]
    split
    · simp [OnlyRooms.refl]
    · split
      · simp [OnlyRooms.refl]
      · rename_i data _
        have hpost : ∀ content : Str, Ends (attempt (do
            let messageId ← storeRoomMessage notification.roomId content (js "recorder")
              (publisherMetadata notification.cardHash) uuid
            return some messageId) fun _ => (return none : Sql (Option Str))) (idle db)
              fun r c => c.saved = none ∧ OnlyRooms db c.data ∧ ∀ messageId,
                r = .ok (some messageId) →
                  GatewayMessage c.data messageId notification.cardHash := by
          intro content
          rw [ends_attempt, ends_bind]
          refine Ends.mono (storeRoomMessage_settles ..) fun r c hc => ?_
          cases r with
          | error e => simpa using ⟨hc.1, hc.2.1⟩
          | ok posted =>
            refine ⟨hc.1, hc.2.1, fun messageId hid => ?_⟩
            obtain rfl := Option.some.inj (Except.ok.inj hid)
            exact hc.2.2 posted rfl
        split
        · rw [ends_bind]
          refine (storeRoomParticipant_ends _ _).mono fun r c hc => ?_
          obtain rfl := hc
          cases r with
          | error e => simp [OnlyRooms.refl]
          | ok u => exact hpost _
        · exact hpost _

theorem createRoom_settles (xAgentKey : Str) (proposalId : Option Str) (uuid : Str) (db : Db) :
    Settles (createRoom env xAgentKey proposalId uuid) db fun _ db' => OnlyRooms db db' := by
  unfold Settles createRoom
  split
  · simp [OnlyRooms.refl]
  · rw [ends_select_bind]
    split
    · simp [OnlyRooms.refl]
    · rw [ends_attempt, ends_begin_bind, ends_execute_bind]
      refine ⟨fun inserted hinserted => ?_, fun _ => by simp [OnlyRooms.refl]⟩
      simp only [Option.ite_none_left_eq_some, Option.some.injEq] at hinserted
      obtain ⟨-, rfl⟩ := hinserted
      split
      · rename_i p _
        simp only [ends_update_bind, ends_commit_bind, ends_pure, idle_saved, idle_data, true_and]
        refine ⟨rfl, rfl, rfl, fun q => ?_, fun hnamed => ?_, .same rfl⟩
        · rw [proposalState_update (by simp)]
          simp only [ite_self]
          rfl
        · refine RoomsNamed.updated hnamed fun r hr hnone => ?_
          cases hnone
      · simp only [ends_commit_bind, ends_pure, idle_saved, idle_data, true_and]
        exact ⟨rfl, rfl, rfl, fun _ => rfl, id, .same rfl⟩

/-- What recording a notification leaves. -/
def notified (notification : Notification) (messageId : Str) (now : Time) (db : Db) : Db :=
  (publishCards
    (fun r => isCard notification.proposalId notification.cardHash r && r.publishedAt.isNone)
    messageId now db).2

theorem recordNotification_settles (notification : Notification) (messageId : Str) (now : Time)
    (db : Db) :
    Settles (recordNotification notification messageId now) db fun _ db' =>
      db' = notified notification messageId now db := by
  unfold Settles recordNotification
  rw [ends_update_bind]
  simp [notified]

end Rooms
end Concordia.Gateway
