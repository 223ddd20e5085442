import Concordia.Gateway.States

/-! Runs in which agents prepare and confirm: every authorization is backed by the card that was
sealed for it, and what is left of a request points at its own authorization. -/
namespace Concordia.Gateway
open Concordia.Python Concordia.Lib.Transactions Concordia.Lib.Transition
open Concordia.Js hiding Value

section Growth

/-- Rows of one sealed card: only the publication may differ. -/
structure CardRow.SameSeal (c c' : CardRow) : Prop where
  proposalId : c'.proposalId = c.proposalId
  sequenceNumber : c'.sequenceNumber = c.sequenceNumber
  cardType : c'.cardType = c.cardType
  cardHash : c'.cardHash = c.cardHash
  cardJson : c'.cardJson = c.cardJson
  idempotencyKey : c'.idempotencyKey = c.idempotencyKey
  preparedByRole : c'.preparedByRole = c.preparedByRole

theorem CardRow.SameSeal.refl (c : CardRow) : c.SameSeal c := ⟨rfl, rfl, rfl, rfl, rfl, rfl, rfl⟩

/-- The table of cards grows by these rows; old rows stay as they were sealed. -/
def CardsGrow (db db' : Db) (cards : List CardRow) : Prop :=
  ∃ f : CardRow → CardRow, (∀ c : CardRow, c.SameSeal (f c)) ∧ db'.cards = db.cards.map f ++ cards

/-- The tables of cards and authorizations grow by these rows; old rows only move on. -/
structure Grows (db db' : Db) (cards : List CardRow) (authorizations : List AuthorizationRow) :
    Prop where
  cards : CardsGrow db db' cards
  authorizations : ∃ g : AuthorizationRow → AuthorizationRow, (∀ a, Forward a (g a)) ∧
    db'.authorizations = db.authorizations.map g ++ authorizations

variable {db db' : Db} {cards : List CardRow} {authorizations : List AuthorizationRow}

theorem CardsGrow.same (hcards : db'.cards = db.cards) : CardsGrow db db' [] :=
  ⟨id, CardRow.SameSeal.refl, by simp [hcards]⟩

theorem CardsGrow.appended {newCards : List CardRow} (hcards : db'.cards = db.cards ++ newCards) :
    CardsGrow db db' newCards :=
  ⟨id, CardRow.SameSeal.refl, by simp [hcards]⟩

theorem published_sameSeal (hits : CardRow → Bool) (messageId : Str) (now : Time) (c : CardRow) :
    c.SameSeal (if hits c then
      { c with publishedAt := some now, roomMessageId := some messageId } else c) := by
  split
  · exact ⟨rfl, rfl, rfl, rfl, rfl, rfl, rfl⟩
  · exact .refl c

theorem CardsGrow.published {hits : CardRow → Bool} {messageId : Str} {now : Time}
    (hcards : db'.cards = (publishCards hits messageId now db).2.cards) : CardsGrow db db' [] :=
  ⟨_, published_sameSeal hits messageId now, by rw [hcards, List.append_nil]; rfl⟩

theorem CardsGrow.card (h : CardsGrow db db' cards) {c : CardRow} (hc : c ∈ db.cards) :
    ∃ c' ∈ db'.cards, c.SameSeal c' := by
  obtain ⟨f, hf, hcards⟩ := h
  exact ⟨f c, by rw [hcards]; exact List.mem_append_left _ (List.mem_map_of_mem hc), hf c⟩

theorem CardsGrow.origin (h : CardsGrow db db' cards) {c' : CardRow} (hc : c' ∈ db'.cards) :
    (∃ c ∈ db.cards, c.SameSeal c') ∨ c' ∈ cards := by
  obtain ⟨f, hf, hcards⟩ := h
  rw [hcards] at hc
  rcases List.mem_append.mp hc with hold | hnew
  · obtain ⟨c, hmem, rfl⟩ := List.mem_map.mp hold
    exact .inl ⟨c, hmem, hf c⟩
  · exact .inr hnew

theorem Grows.same (hcards : db'.cards = db.cards) (hauths : db'.authorizations = db.authorizations) :
    Grows db db' [] [] :=
  ⟨.same hcards, ⟨id, fun _ => .same, by simp [hauths]⟩⟩

theorem Grows.appended {newCards : List CardRow} {newAuths : List AuthorizationRow}
    (hcards : db'.cards = db.cards ++ newCards)
    (hauths : db'.authorizations = db.authorizations ++ newAuths) :
    Grows db db' newCards newAuths :=
  ⟨.appended hcards, ⟨id, fun _ => .same, by simp [hauths]⟩⟩

theorem Grows.published {hits : CardRow → Bool} {messageId : Str} {now : Time}
    (hcards : db'.cards = (publishCards hits messageId now db).2.cards)
    (hauths : db'.authorizations = db.authorizations) : Grows db db' [] [] :=
  ⟨.published hcards, ⟨id, fun _ => .same, by simp [hauths]⟩⟩

theorem Grows.authorization (h : Grows db db' cards authorizations) {a : AuthorizationRow}
    (ha : a ∈ db.authorizations) : ∃ a' ∈ db'.authorizations, Forward a a' := by
  obtain ⟨g, hg, hauths⟩ := h.authorizations
  exact ⟨g a, by rw [hauths]; exact List.mem_append_left _ (List.mem_map_of_mem ha), hg a⟩

theorem Grows.authorization_origin (h : Grows db db' cards authorizations) {a' : AuthorizationRow}
    (ha : a' ∈ db'.authorizations) :
    (∃ a ∈ db.authorizations, Forward a a') ∨ a' ∈ authorizations := by
  obtain ⟨g, hg, hauths⟩ := h.authorizations
  rw [hauths] at ha
  rcases List.mem_append.mp ha with hold | hnew
  · obtain ⟨a, hmem, rfl⟩ := List.mem_map.mp hold
    exact .inl ⟨a, hmem, hg a⟩
  · exact .inr hnew

/-- What stays of an authorization that moves on. -/
theorem Forward.same_grant {a a' : AuthorizationRow} (h : Forward a a') :
    a'.authorizationId = a.authorizationId ∧ a'.proposalId = a.proposalId ∧
      a'.authorizationType = a.authorizationType ∧ a'.cardHash = a.cardHash ∧
      a'.planHash = a.planHash ∧ a'.actionHash = a.actionHash ∧ a'.nonce = a.nonce ∧
      a'.envelopesJson = a.envelopesJson := by
  cases h <;> exact ⟨rfl, rfl, rfl, rfl, rfl, rfl, rfl, rfl⟩

end Growth

section Grants

/-- The card type that goes with an authorization type. -/
def AuthorizationType.card : AuthorizationType → CardType
  | .policy => .policyAuthorization
  | .humanApproval => .structuredApproval

/-- The state that goes with an authorization type. -/
def AuthorizationType.target : AuthorizationType → ProposalState
  | .policy => .authorized
  | .humanApproval => .approved

/-- The card that was sealed for an authorization. -/
structure Backs (db : Db) (a : AuthorizationRow) (c : CardRow) : Prop where
  stored : c ∈ db.cards
  proposalId : c.proposalId = a.proposalId
  cardHash : c.cardHash = a.cardHash
  cardType : c.cardType = a.authorizationType.card.column

variable (env : Env)

/-- A sealed PolicyAuthorization names the authorization that was made for it. -/
def Names (db : Db) (c : CardRow) : Prop :=
  ∃ data, rowData env c = some data ∧ ∃ a ∈ db.authorizations, a.authorizationType = .policy ∧
    a.authorizationId = strField data "authorization_id" ∧ a.proposalId = c.proposalId ∧
    a.cardHash = c.cardHash

/-- Who seals which cards, when agents have their own keys only. -/
def PreparedBy (c : CardRow) : Prop :=
  ∃ t role, c.cardType = CardType.column t ∧ c.preparedByRole = some role ∧
    (role ≠ .gateway ∧ roleMaySubmit role t = true ∨
      role = .gateway ∧ (t = .structuredApproval ∨ t = .policyAuthorization))

structure GrantLaws (db : Db) : Prop where
  backed : ∀ a ∈ db.authorizations, ∃ c, Backs db a c
  named : ∀ c ∈ db.cards, c.cardType = CardType.policyAuthorization.column → Names env db c
  prepared : ∀ c ∈ db.cards, PreparedBy c
  listed : ∀ a ∈ db.authorizations, a.authorizationType = .humanApproval → a.status ≠ .consumed →
    ∃ approver ∈ env.humanApproverIds, a.consumedBy = some approver

variable {env} {db db' : Db} {cards : List CardRow} {authorizations : List AuthorizationRow}

theorem Backs.grow (hgrow : Grows db db' cards authorizations) {a a' : AuthorizationRow}
    {c : CardRow} (h : Backs db a c) (ha : Forward a a') : ∃ c', Backs db' a' c' := by
  obtain ⟨c', hstored, hsame⟩ := hgrow.cards.card h.stored
  obtain ⟨-, hproposal, htype, hhash, -⟩ := ha.same_grant
  exact ⟨c', hstored, by rw [hsame.proposalId, h.proposalId, hproposal],
    by rw [hsame.cardHash, h.cardHash, hhash], by rw [hsame.cardType, h.cardType, htype]⟩

theorem Names.grow (hgrow : Grows db db' cards authorizations) {c c' : CardRow}
    (h : Names env db c) (hsame : c.SameSeal c') : Names env db' c' := by
  obtain ⟨data, hdata, a, ha, htype, hid, hproposal, hhash⟩ := h
  obtain ⟨a', ha', hforward⟩ := hgrow.authorization ha
  obtain ⟨hid', hproposal', htype', hhash', -⟩ := hforward.same_grant
  refine ⟨data, by rw [rowData, hsame.cardJson]; exact hdata, a', ha', htype'.trans htype,
    hid'.trans hid, ?_, ?_⟩
  · rw [hproposal', hproposal, hsame.proposalId]
  · rw [hhash', hhash, hsame.cardHash]

theorem Forward.listed {a a' : AuthorizationRow} (h : Forward a a') (hstatus : a'.status ≠ .consumed) :
    a.status ≠ .consumed ∧ a'.consumedBy = a.consumedBy := by
  cases h with
  | same => exact ⟨hstatus, rfl⟩
  | published roomMessageId pending => exact ⟨by rw [pending]; decide, rfl⟩
  | consumed role now published => exact absurd rfl hstatus

/-- The laws grow with the tables, once the new rows satisfy them. -/
theorem GrantLaws.grow (h : GrantLaws env db) (hgrow : Grows db db' cards authorizations)
    (hbacked : ∀ a ∈ authorizations, ∃ c, Backs db' a c)
    (hnamed : ∀ c ∈ cards, c.cardType = CardType.policyAuthorization.column → Names env db' c)
    (hprepared : ∀ c ∈ cards, PreparedBy c)
    (hlisted : ∀ a ∈ authorizations, a.authorizationType = .humanApproval →
      ∃ approver ∈ env.humanApproverIds, a.consumedBy = some approver) : GrantLaws env db' := by
  constructor
  · intro a' ha'
    rcases hgrow.authorization_origin ha' with ⟨a, ha, hforward⟩ | hnew
    · obtain ⟨c, hc⟩ := h.backed a ha
      exact hc.grow hgrow hforward
    · exact hbacked a' hnew
  · intro c' hc' htype
    rcases hgrow.cards.origin hc' with ⟨c, hc, hsame⟩ | hnew
    · exact (h.named c hc (hsame.cardType.symm.trans htype)).grow hgrow hsame
    · exact hnamed c' hnew htype
  · intro c' hc'
    rcases hgrow.cards.origin hc' with ⟨c, hc, hsame⟩ | hnew
    · obtain ⟨t, role, htype, hrole, hrest⟩ := h.prepared c hc
      exact ⟨t, role, hsame.cardType.trans htype, hsame.preparedByRole.trans hrole, hrest⟩
    · exact hprepared c' hnew
  · intro a' ha' htype hstatus
    rcases hgrow.authorization_origin ha' with ⟨a, ha, hforward⟩ | hnew
    · obtain ⟨hold, hby⟩ := hforward.listed hstatus
      rw [hby]
      exact h.listed a ha (hforward.same_grant.2.2.1.symm.trans htype) hold
    · exact hlisted a' hnew htype

theorem GrantLaws.kept (h : GrantLaws env db) (hgrow : Grows db db' [] []) : GrantLaws env db' :=
  h.grow hgrow (by simp) (by simp) (by simp) (by simp)

end Grants

section Jobs
variable {env : Env}

/-- What a publication is made for. -/
def Justified (db : Db) (request : PublishRequest) : Prop :=
  ∃ a ∈ db.authorizations, ∃ c, Backs db a c ∧
    request = ⟨a.proposalId, a.cardHash, a.authorizationId, a.authorizationType.target⟩

/-- What holds of the jobs when prepare and confirm are called with agents' keys; `closing` says
whether plans may be refused. -/
def JobLaw (closing : Prop) (db : Db) : Job env → Prop
  | .sealCard request => request.preparedByRole ≠ .gateway ∧
      roleMaySubmit request.preparedByRole request.card.cardType = true
  | .confirm request => request.confirmingRole ≠ .gateway
  | .consumeNonce request => request.consumedBy ∈ env.humanApproverIds
  | .publishApproval request | .publishPolicy request => Justified db request
  | .advance request => Justified db request.toPublishRequest
  | .revise .. | .falseAlarm .. => closing
  | _ => True

/-- The requests under these laws. -/
def Action.Lawful (env : Env) (closing : Prop) : Action → Prop
  | .request (.prepare _ xAgentKey _ _) _ | .request (.confirm xAgentKey _) _ =>
    env.agentKeys.lookup xAgentKey ≠ some .gateway
  | .request (.decide _ _ _ (.revise _)) _ | .request (.decide _ _ _ .falseAlarm) _ => closing
  | _ => True

structure AgentLaws (closing : Prop) (sys : Sys env) : Prop where
  ledger : LedgerLaws sys.db
  grants : GrantLaws env sys.db
  jobs : ∀ job ∈ sys.jobs, JobLaw closing sys.db job

variable {closing : Prop} {db db' : Db} {cards : List CardRow}
  {authorizations : List AuthorizationRow}

theorem Justified.grow (hgrow : Grows db db' cards authorizations) {request : PublishRequest}
    (h : Justified db request) : Justified db' request := by
  obtain ⟨a, ha, c, hc, rfl⟩ := h
  obtain ⟨a', ha', hforward⟩ := hgrow.authorization ha
  obtain ⟨hid, hproposal, htype, hhash, -⟩ := hforward.same_grant
  obtain ⟨c', hc'⟩ := hc.grow hgrow hforward
  exact ⟨a', ha', c', hc', by rw [hid, hproposal, htype, hhash]⟩

theorem JobLaw.grow (hgrow : Grows db db' cards authorizations) {job : Job env}
    (h : JobLaw closing db job) : JobLaw closing db' job := by
  cases job with
  | publishApproval request => exact Justified.grow hgrow h
  | publishPolicy request => exact Justified.grow hgrow h
  | advance request => exact Justified.grow hgrow h
  | _ => exact h

/-- The rows that sealing adds, and the row that it answers with. -/
theorem SealStep.grown {card : Card env.floats} {proposalId : Str} {key : Option Str}
    {role : Option Role} {requestFp : Option Str} {result : Sealed env.floats}
    (h : SealStep env card proposalId key role requestFp db result db') :
    ∃ cards, db'.cards = db.cards ++ cards ∧
      (∀ c ∈ cards, c = nextRow env card proposalId key role requestFp db ∧
        result = nextSealed env card proposalId db) ∧
      ∃ c ∈ db'.cards, c.proposalId = proposalId ∧ c.cardHash = result.cardHash ∧
        c.cardType = card.cardType.column := by
  cases h with
  | appended db' fresh inserted =>
    have hcards := insertCard_cards inserted
    refine ⟨[nextRow env card proposalId key role requestFp db], hcards, fun c hc => ?_,
      nextRow env card proposalId key role requestFp db, ?_, rfl, rfl, rfl⟩
    · exact ⟨List.mem_singleton.mp hc, rfl⟩
    · rw [hcards]
      exact List.mem_append_right _ (List.mem_singleton.mpr rfl)
  | replayed existing result found parsed hash =>
    refine ⟨[], by simp, by simp, existing, ?_, ?_⟩
    · obtain ⟨key, -, hfound⟩ := Option.bind_eq_some_iff.mp found
      exact List.mem_of_find?_eq_some hfound
    · obtain ⟨key, -, hfound⟩ := Option.bind_eq_some_iff.mp found
      have hkey := List.find?_some hfound
      simp only [Bool.and_eq_true, beq_iff_eq] at hkey
      exact ⟨hkey.1.1, hash.symm, hkey.2⟩

/-- A publication of an authorization that was just inserted behind its card. -/
theorem justified_new {request : PublishRequest} {a : AuthorizationRow}
    (hauth : a ∈ db.authorizations) {c : CardRow} (hc : Backs db a c)
    (h : request = ⟨a.proposalId, a.cardHash, a.authorizationId, a.authorizationType.target⟩) :
    Justified db request :=
  ⟨a, hauth, c, hc, h⟩

theorem AgentLaws.of_grows {sys sys' : Sys env} (h : AgentLaws closing sys)
    (hledger : LedgerLaws sys'.db) {cards : List CardRow} {auths : List AuthorizationRow}
    (hgrow : Grows sys.db sys'.db cards auths) (hgrants : GrantLaws env sys'.db)
    (hjobs : ∀ job ∈ sys'.jobs, job ∈ sys.jobs ∨ JobLaw closing sys'.db job) :
    AgentLaws closing sys' := by
  refine ⟨hledger, hgrants, fun job hjob => ?_⟩
  rcases hjobs job hjob with hold | hnew
  · exact (h.jobs job hold).grow hgrow
  · exact hnew

end Jobs
end Concordia.Gateway
