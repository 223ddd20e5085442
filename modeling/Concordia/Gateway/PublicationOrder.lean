import Concordia.Gateway.PolicyPath

/-! The order of the publications: what a room message certifies, and which card of a proposal is
published behind which. -/
namespace Concordia.Gateway
open Concordia.Python Concordia.Lib.Transactions Concordia.Lib.Transition
open Concordia.Js hiding Value

variable {env : Env}

section Names

/-- Cards are about the proposal that they are stored under. -/
structure NameLaw (sys : Sys env) : Prop where
  rows : ∀ c ∈ sys.db.cards, NamesProposal env c
  jobs : ∀ request, .sealCard request ∈ sys.jobs → cardProposalId request.card = request.proposalId

theorem NamesProposal.congr {c c' : CardRow} (h : NamesProposal env c) (hsame : c.SameSeal c') :
    NamesProposal env c' := by
  obtain ⟨data, hdata, htype, habout⟩ := h
  refine ⟨data, ?_, ?_, ?_⟩
  · rw [rowData, hsame.cardJson]
    exact hdata
  · rw [hsame.cardType]
    exact htype
  · rw [hsame.cardType, hsame.proposalId]
    exact habout

/-- One text is about one proposal. -/
theorem NamesProposal.unique {c c' : CardRow} (h : NamesProposal env c) (h' : NamesProposal env c')
    (hjson : c.cardJson = c'.cardJson) : c.proposalId = c'.proposalId := by
  obtain ⟨data, hdata, htype, habout⟩ := h
  obtain ⟨data', hdata', htype', habout'⟩ := h'
  have hsame : rowData env c = rowData env c' := by rw [rowData, rowData, hjson]
  obtain rfl : data = data' := Option.some.inj (hdata.symm.trans (hsame.trans hdata'))
  have hcolumn : c.cardType = c'.cardType := Value.str.inj (htype.symm.trans htype')
  rw [← habout, ← habout', hcolumn]

theorem applyRiskFloor_about {card card' : Card env.floats} {db : Db}
    (h : applyRiskFloor env card db = some card') : cardProposalId card' = cardProposalId card := by
  have htype := applyRiskFloor_cardType env h
  unfold cardProposalId
  rw [htype]
  split
  · unfold applyRiskFloor at h
    rename_i hproposal
    rw [if_pos (by simp [beq_iff_eq.mp hproposal])] at h
    rw [← Option.some.inj h]
  · unfold applyRiskFloor at h
    split at h
    · rw [← Option.some.inj h]
    · obtain ⟨raised, hraised, rfl⟩ := Option.map_eq_some_iff.mp h
      obtain ⟨hfields, -⟩ := withSeverityFloor_rank hraised
      obtain ⟨hfields', -⟩ := withPlaybookFloor_rank raised
      exact strField_congr (by rw [withApproval_get _ (by decide +kernel),
        hfields' _ (by decide +kernel), hfields _ (by decide +kernel)])

theorem NameLaw.step {sys sys' : Sys env} {action : Action} (h : NameLaw sys)
    (hstep : StepTo env sys action sys') : NameLaw sys' := by
  refine ⟨fun c hc => ?_, fun request hjob => ?_⟩
  · rcases hstep.comesFrom c hc with ⟨d, hd, hsame⟩ | ⟨request, hjob, rfl⟩ | ⟨hnames, -⟩
    · exact (h.rows d hd).congr hsame
    · exact nextRow_names (h.jobs request (Action.mem_jobs (Option.mem_toList.mpr hjob)).2)
    · exact hnames
  · rcases hstep.sealing hjob with hold | ⟨cardType, key, idempotencyKey, body, draws, -, hprepared⟩
    · exact h.jobs request hold
    · cases hprepared with
      | intro t card known validated proposal named floored ready =>
        rw [applyRiskFloor_about floored, proposal]

theorem reachable_nameLaw {log : List Action} {sys : Sys env}
    (h : Accepts (step env) (Sys.initial env) log sys) : sys.Idle ∧ NameLaw sys := by
  refine h.invariant (P := fun sys => sys.Idle ∧ NameLaw sys)
    ⟨rfl, fun _ hc => absurd hc List.not_mem_nil, fun _ hj => absurd hj List.not_mem_nil⟩
    fun v a w hv hstep => ?_
  obtain ⟨hto, hidle⟩ := step_cases env hv.1 hstep
  exact ⟨hidle, hv.2.step hto⟩

/-- The hash of a card names it. -/
theorem NameLaw.eq_of_cardHash {sys : Sys env} (h : NameLaw sys) (hchain : Chained env sys.db)
    (hcollision : NoCollision sys.db) {c c' : CardRow} (hc : c ∈ sys.db.cards)
    (hc' : c' ∈ sys.db.cards) (hhash : c.cardHash = c'.cardHash) : c = c' :=
  hchain.eq_of_cardHash hcollision hc hc'
    ((h.rows c hc).unique (h.rows c' hc') (hcollision c hc c' hc' hhash)) hhash

end Names

section Messages

theorem start_messages {draws : Draws} {db db' : Db} {next : List (Job env)} {request : Request}
    (h : startPost env draws db next db' request) : MessagesGrow db db' := by
  cases request with
  | prepare cardType xAgentKey xIdempotencyKey body =>
    cases h.1 with
    | same => exact .same rfl
    | inserted row fresh detected => exact .same rfl
  | decide approverId proposalId nonce decision =>
    cases decision with
    | approve => exact .same (by rw [h.1])
    | revise instructions => exact .same (by rw [h.1])
    | falseAlarm => exact .same (by rw [h.1])
  | createRoom xAgentKey proposalId => exact h.1.messages
  | postMessage xAgentKey roomId content senderRole metadata => exact h.1.messages
  | _ => exact .same (by rw [h.1])

theorem SealStep.messages {card : Card env.floats} {proposalId : Str} {key : Option Str}
    {role : Option Role} {requestFp : Option Str} {db db' : Db} {result : Sealed env.floats}
    (h : SealStep env card proposalId key role requestFp db result db') :
    db'.messages = db.messages := by
  cases h with
  | appended db' fresh inserted =>
    unfold Db.insertCard at inserted
    simp only [Option.ite_none_left_eq_some, Option.some.injEq] at inserted
    rw [← inserted.2]
  | replayed existing result found parsed hash => rfl

theorem insertAuthorization_messages (row : AuthorizationRow) (db : Db) :
    (insertAuthorization row db).messages = db.messages := by
  unfold insertAuthorization
  split <;> rfl

theorem addSuppressionRule_messages (proposalId : Str) (db : Db) :
    (addSuppressionRule env proposalId db).messages = db.messages := by
  simp only [addSuppressionRule]
  split
  · rfl
  · split <;> rfl

theorem CloseStep.messages {closure : Closure} {more : Db → Db} {request : CloseRequest}
    {now : Time} {db db' : Db} {cardHash : Str} (hmore : ∀ db, (more db).messages = db.messages)
    (h : CloseStep env closure more request now db cardHash db') : db'.messages = db.messages := by
  cases h with
  | intro row card approval behindSeal planned valid isApproval decided sealing =>
    exact (hmore _).trans sealing.messages

theorem resume_messages {draws : Draws} {db db' : Db} {next : List (Job env)} {job : Job env}
    (h : resumePost env draws db next db' job) : MessagesGrow db db' := by
  cases job with
  | sealCard request =>
    rcases h.2 with rfl | ⟨result, hseal⟩
    · exact .same rfl
    · exact .same hseal.messages
  | confirm request =>
    rcases h.2 with rfl | ⟨row, newState, severity, -, rfl⟩
    · exact .same rfl
    · exact .same rfl
  | createNonce row =>
    rcases h.2 with rfl | hinsert
    · exact .same rfl
    · unfold insertNonce at hinsert
      simp only [Option.ite_none_left_eq_some, Option.some.injEq] at hinsert
      obtain ⟨-, rfl⟩ := hinsert
      exact .same rfl
  | postChallenge request => exact h.1.messages
  | recordChallenge record => exact .same (by rw [h.2, challenged])
  | consumeNonce request =>
    rcases h with ⟨rfl, -⟩ | ⟨consumption, hstep, -⟩
    · exact .same rfl
    · cases hstep with
      | intro row envelopesJson card approval behindSeal _ consumable isApproval sealing target =>
        exact .same ((insertAuthorization_messages _ _).trans sealing.messages)
  | publishApproval request => exact h.1.messages
  | sealPolicy request =>
    rcases h with ⟨rfl, -⟩ | ⟨publication, hstep, -⟩
    · exact .same rfl
    · cases hstep with
      | intro approval behindSeal sealing =>
        exact .same ((insertAuthorization_messages _ _).trans sealing.messages)
  | publishPolicy request => exact h.1.messages
  | advance request =>
    rcases h.2 with rfl | ⟨-, rfl⟩
    · exact .same rfl
    · exact .same rfl
  | consumeAuthorization request =>
    rcases h.2 with rfl | rfl
    · exact .same rfl
    · exact .same rfl
  | revise instructions request =>
    rcases h with ⟨rfl, -⟩ | ⟨cardHash, roomId, hstep, -⟩
    · exact .same rfl
    · exact .same (hstep.messages fun _ => rfl)
  | falseAlarm request =>
    rcases h with ⟨rfl, -⟩ | ⟨cardHash, roomId, hstep, -⟩
    · exact .same rfl
    · exact .same (hstep.messages (addSuppressionRule_messages _))
  | notify notification attempts => exact h.1.messages
  | recordNotification notification messageId =>
    rw [h.2]
    exact .same rfl

theorem StepTo.messages {sys sys' : Sys env} {action : Action} (h : StepTo env sys action sys') :
    MessagesGrow sys.db sys'.db := by
  cases h with
  | request request draws next db' fresh post => exact start_messages post
  | resume index draws job next db' fresh pending post => exact resume_messages post

end Messages

section Certificates

/-- What a message says about a card: one that the gateway posted names no other card. -/
def Certifies (m : MessageRow) (cardHash : Str) : Prop :=
  ∀ posted, posted ≠ [] → m.metadataJson = dumpsSorted (.dict (publisherMetadata posted)) →
    posted = cardHash

/-- Where publications are verified, the message exists, and is not about another card. -/
def Certified (env : Env) (db : Db) (messageId cardHash : Str) : Prop :=
  env.testMode = false → ∃ m ∈ db.messages, m.messageId = messageId ∧ Certifies m cardHash

variable {db db' : Db}

theorem Certified.grow (hgrow : MessagesGrow db db') {messageId cardHash : Str}
    (h : Certified env db messageId cardHash) : Certified env db' messageId cardHash := by
  intro htest
  obtain ⟨m, hm, hcertifies⟩ := h htest
  exact ⟨m, hgrow.kept m hm, hcertifies⟩

theorem GatewayMessage.grow (hgrow : MessagesGrow db db') {messageId cardHash : Str}
    (h : GatewayMessage db messageId cardHash) : GatewayMessage db' messageId cardHash := by
  obtain ⟨m, hm, hmessage⟩ := h
  exact ⟨m, hgrow.kept m hm, hmessage⟩

theorem wellFormed_publisherMetadata (floats : FloatFormat) (cardHash : Str) :
    WellFormed floats (.dict (publisherMetadata cardHash)) := by
  refine ⟨?_, by simp [publisherMetadata, WellFormedItems, WellFormed]⟩
  have hkeys : (publisherMetadata cardHash).map Prod.fst = [js "publisher", js "card_hash"] := rfl
  rw [hkeys]
  decide +kernel

theorem lookup_publisherMetadata (cardHash : Str) :
    (publisherMetadata cardHash).lookup (js "card_hash") = some (.str cardHash) := by
  simp only [publisherMetadata]
  rfl

theorem loads_publisherMetadata (cardHash : Str) : ∃ metadata : Dict,
    loads env.floats (dumpsSorted (.dict (publisherMetadata cardHash))) = some (.dict metadata) ∧
      metadata.get "card_hash" = .str cardHash := by
  have hformed := wellFormed_publisherMetadata env.floats cardHash
  refine ⟨_, by rw [loads_dumpsSorted hformed, sortKeys_dict], ?_⟩
  unfold Dict.get
  rw [lookup_sortedItems hformed.1, lookup_publisherMetadata]
  simp [sortKeys]

/-- What `_verify_room_publication` lets pass. -/
theorem certified_of_posted {body : ConfirmBody} (h : Posted env db body) :
    Certified env db body.messageId body.cardHash := by
  intro htest
  obtain ⟨stored, agentRole, hrefusal⟩ := h
  rw [publicationRefusal, htest, if_neg Bool.false_ne_true] at hrefusal
  split at hrefusal
  · cases hrefusal
  · unfold roomPublicationRefusal at hrefusal
    split at hrefusal
    · cases hrefusal
    · rename_i row hrow
      have hmatch := List.find?_some hrow
      simp only [Bool.and_eq_true, beq_iff_eq] at hmatch
      refine ⟨row, List.mem_of_find?_eq_some hrow, hmatch.2, fun posted hposted hmetadata => ?_⟩
      obtain ⟨metadata, hloads, hget⟩ := @loads_publisherMetadata env posted
      rw [hmetadata, hloads] at hrefusal
      split at hrefusal
      · cases hrefusal
      · simp only [hget] at hrefusal
        have htrue : isTrue (.str posted) = true := by simpa [isTrue] using hposted
        rw [htrue, if_pos rfl] at hrefusal
        split at hrefusal
        · rename_i hsame
          exact Value.str.inj (isOptStr_iff.mp hsame)
        · cases hrefusal

theorem GatewayMessage.certified {messageId cardHash : Str}
    (h : GatewayMessage db messageId cardHash) : Certified env db messageId cardHash := by
  intro _
  obtain ⟨m, hm, hid, hmetadata⟩ := h
  refine ⟨m, hm, hid, fun posted _ hposted => ?_⟩
  obtain ⟨metadata, hloads, hget⟩ := @loads_publisherMetadata env posted
  obtain ⟨metadata', hloads', hget'⟩ := @loads_publisherMetadata env cardHash
  rw [← hposted, hmetadata, hloads'] at hloads
  obtain rfl : metadata' = metadata := Value.dict.inj (Option.some.inj hloads)
  exact Value.str.inj (hget.symm.trans hget')

/-- The message that a job takes along. -/
def CertifiedJob (env : Env) (db : Db) : Job env → Prop
  | .confirm request => Certified env db request.messageId request.cardHash
  | .advance request => GatewayMessage db request.roomMessageId request.cardHash
  | .recordNotification notification messageId =>
    GatewayMessage db messageId notification.cardHash
  | _ => True

structure MessageLaw (sys : Sys env) : Prop where
  unique : UniqueMessages sys.db
  cards : ∀ c ∈ sys.db.cards, c.publishedAt.isSome →
    ∃ messageId, c.roomMessageId = some messageId ∧ Certified env sys.db messageId c.cardHash
  jobs : ∀ job ∈ sys.jobs, CertifiedJob env sys.db job

theorem CertifiedJob.grow (hgrow : MessagesGrow db db') {job : Job env}
    (h : CertifiedJob env db job) : CertifiedJob env db' job := by
  cases job with
  | confirm request => exact Certified.grow hgrow h
  | advance request => exact GatewayMessage.grow hgrow h
  | recordNotification notification messageId => exact GatewayMessage.grow hgrow h
  | _ => trivial

/-- What publishes a card, and with which message. -/
inductive PublishedBy (sys : Sys env) (action : Action) (row : CardRow) : Str → Prop
  | confirmed (request : ConfirmRequest) (newState : Option ProposalState) (severity : Option Str)
      (resumed : action.job sys = some (.confirm request))
      (confirmable : Confirmable env request sys.db row newState severity) :
      PublishedBy sys action row request.messageId
  | advanced (request : AdvanceRequest) (resumed : action.job sys = some (.advance request))
      (advanceable : Advanceable request sys.db)
      (named : isCard request.proposalId request.cardHash row = true) :
      PublishedBy sys action row request.roomMessageId
  | notified (notification : Notification) (messageId : Str)
      (resumed : action.job sys = some (.recordNotification notification messageId))
      (named : isCard notification.proposalId notification.cardHash row = true) :
      PublishedBy sys action row messageId

/-- A row, as it is published. -/
def CardRow.publishedAs (row : CardRow) (messageId : Str) (now : Time) : CardRow :=
  { row with publishedAt := some now, roomMessageId := some messageId }

/-- At most one row is published: what is published was so before, or is that row. -/
inductive PublishesOne (sys : Sys env) (action : Action) (db' : Db) : Prop
  | none (kept : ∀ c ∈ db'.cards, c.publishedAt.isSome → c ∈ sys.db.cards)
  | one (row : CardRow) (messageId : Str) (now : Time) (stored : row ∈ sys.db.cards)
      (fresh : row.publishedAt = .none) (publishes : PublishedBy sys action row messageId)
      (kept : ∀ c ∈ db'.cards, c.publishedAt.isSome →
        c ∈ sys.db.cards ∨ c = row.publishedAs messageId now)

theorem mem_publishRow {row c : CardRow} {messageId : Str} {now : Time} {cards : List CardRow}
    (h : c ∈ publishRow row messageId now cards) :
    c ∈ cards ∨ c = row.publishedAs messageId now := by
  obtain ⟨d, hd, rfl⟩ := List.mem_map.mp h
  split
  · rename_i hrow
    rw [hrow]
    exact .inr rfl
  · exact .inl hd

theorem Publication.one {sys sys' : Sys env} {action : Action} (h : Publication sys action sys') :
    PublishesOne sys action sys'.db := by
  cases h with
  | unpublished new unpublished cards =>
    refine .none fun c hc hpublished => ?_
    rw [cards] at hc
    rcases List.mem_append.mp hc with hold | hnew
    · exact hold
    · rw [(unpublished c hnew).1] at hpublished
      cases hpublished
  | confirmed request now row newState severity resumed stored confirmable cards =>
    exact .one row _ now stored confirmable.unpublished (.confirmed _ _ _ resumed confirmable)
      fun c hc _ => mem_publishRow (cards ▸ hc)
  | advanced request now row resumed stored advanceable named fresh approves cards =>
    exact .one row _ now stored fresh (.advanced _ resumed advanceable named)
      fun c hc _ => mem_publishRow (cards ▸ hc)
  | notified notification messageId now row resumed stored named fresh approves cards =>
    exact .one row _ now stored fresh (.notified _ _ resumed named)
      fun c hc _ => mem_publishRow (cards ▸ hc)

theorem cardHash_of_isCard {p cardHash : Str} {row : CardRow} (h : isCard p cardHash row = true) :
    row.proposalId = p ∧ row.cardHash = cardHash := by
  simp only [isCard, Bool.and_eq_true, beq_iff_eq] at h
  exact ⟨h.2, h.1⟩

theorem cardHash_of_confirmable {request : ConfirmRequest} {row : CardRow}
    {newState : Option ProposalState} {severity : Option Str}
    (h : Confirmable env request db row newState severity) :
    row.proposalId = request.proposalId ∧ row.cardHash = request.cardHash := by
  have hfound := List.find?_some h.found
  simp only [isPrepared, Bool.and_eq_true, beq_iff_eq] at hfound
  exact hfound.1

/-- A card is published with a message that is not about another card. -/
theorem PublishedBy.certified {sys : Sys env} {action : Action} {row : CardRow} {messageId : Str}
    (h : PublishedBy sys action row messageId) (hlaw : MessageLaw sys) :
    Certified env sys.db messageId row.cardHash := by
  cases h with
  | confirmed request newState severity resumed confirmable =>
    rw [(cardHash_of_confirmable confirmable).2]
    exact hlaw.jobs _ (Action.mem_jobs (Option.mem_toList.mpr resumed)).2
  | advanced request resumed advanceable named =>
    rw [(cardHash_of_isCard named).2]
    exact (hlaw.jobs _ (Action.mem_jobs (Option.mem_toList.mpr resumed)).2 : GatewayMessage ..).certified
  | notified notification messageId resumed named =>
    rw [(cardHash_of_isCard named).2]
    exact (hlaw.jobs _ (Action.mem_jobs (Option.mem_toList.mpr resumed)).2 : GatewayMessage ..).certified

theorem start_certified {draws : Draws} {next : List (Job env)} {request : Request}
    (h : startPost env draws db next db' request) : ∀ job ∈ next, CertifiedJob env db job := by
  intro job hjob
  cases request with
  | confirm xAgentKey body =>
    obtain ⟨request, rfl, -, hposted⟩ := h.2 job hjob
    exact certified_of_posted hposted
  | prepare cardType xAgentKey xIdempotencyKey body =>
    obtain ⟨request, rfl, -⟩ := h.2 job hjob
    trivial
  | createNonce xAgentKey proposalId =>
    obtain ⟨plan, data, -, -, rfl⟩ := h.2 job hjob
    trivial
  | challenge xAgentKey proposalId nonce challengeText =>
    obtain ⟨request, rfl⟩ := h.2 job hjob
    trivial
  | consumeNonce xAgentKey body =>
    rcases h.2 job hjob with ⟨request, rfl, -⟩ | ⟨request, rfl, -⟩
    · trivial
    · trivial
  | policyAuthorization xAgentKey body =>
    rcases h.2 job hjob with ⟨sealing, rfl, -⟩ | ⟨publication, rfl, -⟩
    · trivial
    · trivial
  | consumeAuthorization xAgentKey authorizationId proposalId =>
    obtain ⟨request, rfl⟩ := h.2 job hjob
    trivial
  | decide approverId proposalId nonce decision =>
    cases decision with
    | approve =>
      rcases h.2 job hjob with ⟨request, rfl, -⟩ | ⟨request, rfl, -⟩
      · trivial
      · trivial
    | revise instructions =>
      obtain ⟨instructions, request, rfl⟩ := h.2 job hjob
      trivial
    | falseAlarm =>
      obtain ⟨request, rfl⟩ := h.2 job hjob
      trivial
  | createRoom xAgentKey proposalId => simp [h.2] at hjob
  | postMessage xAgentKey roomId content senderRole metadata => simp [h.2] at hjob

theorem resume_certified {draws : Draws} {next : List (Job env)} {job : Job env}
    (h : resumePost env draws db next db' job) : ∀ job ∈ next, CertifiedJob env db' job := by
  intro job' hmem
  have hone : ∀ {other : Job env}, next = [other] → CertifiedJob env db' other →
      CertifiedJob env db' job' := by
    intro other hnext hother
    rw [hnext] at hmem
    rw [List.mem_singleton.mp hmem]
    exact hother
  have hnone : next = [] → CertifiedJob env db' job' := fun hnext => by simp [hnext] at hmem
  cases job with
  | consumeNonce request =>
    rcases h with ⟨-, hnext⟩ | ⟨consumption, -, hnext⟩
    · exact hnone hnext
    · exact hone hnext trivial
  | sealPolicy request =>
    rcases h with ⟨-, hnext⟩ | ⟨publication, -, hnext⟩
    · exact hnone hnext
    · exact hone hnext trivial
  | revise instructions request =>
    rcases h with ⟨-, hnext⟩ | ⟨cardHash, roomId, -, hnext⟩
    · exact hnone hnext
    · exact hone hnext trivial
  | falseAlarm request =>
    rcases h with ⟨-, hnext⟩ | ⟨cardHash, roomId, -, hnext⟩
    · exact hnone hnext
    · exact hone hnext trivial
  | postChallenge request =>
    obtain ⟨record, rfl⟩ := h.2 _ hmem
    trivial
  | publishApproval request =>
    obtain ⟨publication, rfl, rfl, hmessage⟩ := h.2 _ hmem
    exact hmessage
  | publishPolicy request =>
    obtain ⟨publication, rfl, rfl, hmessage⟩ := h.2 _ hmem
    exact hmessage
  | notify notification attempts =>
    rcases h.2 _ hmem with ⟨messageId, rfl, hmessage⟩ | ⟨attempts, rfl⟩
    · exact hmessage
    · trivial
  | _ => exact hnone h.1

theorem MessageLaw.step {sys sys' : Sys env} {action : Action} (h : MessageLaw sys)
    (hpublication : Publication sys action sys') (hstep : StepTo env sys action sys') :
    MessageLaw sys' := by
  have hgrow := hstep.messages
  refine ⟨hgrow.unique h.unique, fun c hc hpublished => ?_, ?_⟩
  · have hold : c ∈ sys.db.cards → ∃ messageId, c.roomMessageId = some messageId ∧
        Certified env sys'.db messageId c.cardHash := by
      intro hc
      obtain ⟨messageId, hid, hcertified⟩ := h.cards c hc hpublished
      exact ⟨messageId, hid, hcertified.grow hgrow⟩
    cases hpublication.one with
    | none kept => exact hold (kept c hc hpublished)
    | one row messageId now stored fresh publishes kept =>
      rcases kept c hc hpublished with hc | rfl
      · exact hold hc
      · exact ⟨messageId, rfl, (publishes.certified h).grow hgrow⟩
  · cases hstep with
    | request request draws next db' fresh post =>
      intro job hjob
      rcases List.mem_append.mp hjob with hold | hnew
      · exact (h.jobs job hold).grow hgrow
      · exact (start_certified post job hnew).grow hgrow
    | resume index draws job next db' fresh pending post =>
      intro job' hjob
      rcases List.mem_append.mp hjob with hold | hnew
      · exact (h.jobs job' (List.mem_of_mem_eraseIdx hold)).grow hgrow
      · exact resume_certified post job' hnew

end Certificates

section Order
variable {db db' : Db}

/-- One room message certifies one card. -/
def OneMessageEach (db : Db) : Prop :=
  ∀ c ∈ db.cards, ∀ c' ∈ db.cards, c.publishedAt.isSome → c'.publishedAt.isSome →
    c.roomMessageId = c'.roomMessageId → c = c'

/-- A card of a state is published, and its row of the state before was not. -/
def NewlyPublished (db db' : Db) (c : CardRow) : Prop :=
  c ∈ db'.cards ∧ c.publishedAt.isSome ∧ ∀ d ∈ db.cards, d.SameSeal c → d.publishedAt = none

/-- What a step publishes is behind everything that its proposal has published. -/
def PublishesBehind (db db' : Db) : Prop :=
  ∀ c, NewlyPublished db db' c → ∀ d ∈ db.cards, d.proposalId = c.proposalId →
    d.publishedAt.isSome → d.sequenceNumber < c.sequenceNumber

/-- The check of `confirm_publication` that the other two publications do without: nothing behind
the card is published. -/
def UpToDate (db : Db) (p cardHash : Str) : Prop :=
  ∀ c ∈ db.cards, isCard p cardHash c = true → c.publishedAt = none →
    newerConfirmed p c.sequenceNumber db = none

/-- No published card carries the message. -/
def Unheld (db : Db) (messageId : Str) : Prop := messageHolder messageId db = none

/-- An authorization is advanced, and a refusal is recorded, only while its card is up to date; in
test mode, where nobody looks for the messages, only with a message that is still free. -/
def KeepsOrder (env : Env) (sys : Sys env) (action : Action) : Prop :=
  match action.job sys with
  | some (.advance request) => Advanceable request sys.db →
      UpToDate sys.db request.proposalId request.cardHash ∧
        (env.testMode = true → Unheld sys.db request.roomMessageId)
  | some (.recordNotification notification messageId) =>
      UpToDate sys.db notification.proposalId notification.cardHash ∧
        (env.testMode = true → Unheld sys.db messageId)
  | _ => True

theorem sequence_inj (hchain : Chained env db) {c c' : CardRow} (hc : c ∈ db.cards)
    (hc' : c' ∈ db.cards) (hproposal : c.proposalId = c'.proposalId)
    (hsequence : c.sequenceNumber = c'.sequenceNumber) : c = c' := by
  have hrows := hchain c'.proposalId
  obtain ⟨i, hi⟩ := List.mem_iff_getElem?.mp (mem_cardsOf.mpr ⟨hc, hproposal⟩)
  obtain ⟨j, hj⟩ := List.mem_iff_getElem?.mp (mem_cardsOf.mpr ⟨hc', rfl⟩)
  have hfirst := (hrows.get hi).numbered
  have hsecond := (hrows.get hj).numbered
  obtain rfl : j = i := by
    rw [hfirst, hsecond] at hsequence
    omega
  exact Option.some.inj (hi.symm.trans hj)

theorem not_newer {p : Str} {n : Int} (h : newerConfirmed p n db = none) {d : CardRow}
    (hd : d ∈ db.cards) (hproposal : d.proposalId = p) (hpublished : d.publishedAt.isSome) :
    d.sequenceNumber ≤ n := by
  unfold newerConfirmed at h
  rw [List.head?_eq_none_iff, List.filter_eq_nil_iff] at h
  have hmem : d ∈ db.chainOf p :=
    (List.mem_insertionSort _).mpr (mem_cardsOf.mpr ⟨hd, hproposal⟩)
  have hnewer := h d hmem
  rw [hpublished, Bool.and_true, decide_eq_true_iff] at hnewer
  omega

/-- Under the condition, every publication passes the check of `confirm_publication`. -/
theorem PublishedBy.latest {sys : Sys env} {action : Action} {row : CardRow} {messageId : Str}
    (h : PublishedBy sys action row messageId) (hkeeps : KeepsOrder env sys action)
    (hrow : row ∈ sys.db.cards) (hfresh : row.publishedAt = none) :
    newerConfirmed row.proposalId row.sequenceNumber sys.db = none := by
  cases h with
  | confirmed request newState severity resumed confirmable =>
    rw [(cardHash_of_confirmable confirmable).1]
    exact confirmable.latest
  | advanced request resumed advanceable named =>
    rw [KeepsOrder, resumed] at hkeeps
    rw [(cardHash_of_isCard named).1]
    exact (hkeeps advanceable).1 row hrow named hfresh
  | notified notification messageId resumed named =>
    rw [KeepsOrder, resumed] at hkeeps
    rw [(cardHash_of_isCard named).1]
    exact hkeeps.1 row hrow named hfresh

theorem messageHolder_none {messageId : Str} (h : messageHolder messageId db = none) {c : CardRow}
    (hc : c ∈ db.cards) (hpublished : c.publishedAt.isSome) : c.roomMessageId ≠ some messageId := by
  intro hid
  have := List.find?_eq_none.mp h c hc
  simp [hid, hpublished] at this

theorem cardHash_ne_nil (hchain : Chained env db) {c : CardRow} (hc : c ∈ db.cards) :
    c.cardHash ≠ [] := by
  obtain ⟨i, hi⟩ := List.mem_iff_getElem?.mp (mem_cardsOf.mpr ⟨hc, rfl⟩)
  rw [((hchain c.proposalId).get hi).hashed, hexdigest]
  intro hempty
  have hlength := congrArg List.length hempty
  simp [toHex] at hlength

/-- A card that carries the message of a publication already has the hash that is published. -/
theorem PublishedBy.holder {sys : Sys env} {action : Action} {row c : CardRow} {messageId : Str}
    (h : PublishedBy sys action row messageId) (hkeeps : KeepsOrder env sys action)
    (hchain : Chained env sys.db) (hlaw : MessageLaw sys) (heach : OneMessageEach sys.db)
    (hrow : row ∈ sys.db.cards) (hc : c ∈ sys.db.cards) (hpublished : c.publishedAt.isSome)
    (hid : c.roomMessageId = some messageId) : c.cardHash = row.cardHash := by
  have hposted : GatewayMessage sys.db messageId row.cardHash →
      (env.testMode = true → Unheld sys.db messageId) → c.cardHash = row.cardHash := by
    intro hmessage hunheld
    cases htest : env.testMode with
    | true => exact absurd hid (messageHolder_none (hunheld htest) hc hpublished)
    | false =>
      obtain ⟨messageId', hid', hcertified⟩ := hlaw.cards c hc hpublished
      obtain rfl : messageId' = messageId := Option.some.inj (hid'.symm.trans hid)
      obtain ⟨m, hm, hmid, hcertifies⟩ := hcertified htest
      obtain ⟨m', hm', hmid', hmetadata⟩ := hmessage
      obtain rfl := hlaw.unique m hm m' hm' (hmid.trans hmid'.symm)
      exact (hcertifies row.cardHash (cardHash_ne_nil hchain hrow) hmetadata).symm
  cases h with
  | confirmed request newState severity resumed confirmable =>
    rw [(cardHash_of_confirmable confirmable).2]
    cases hholder : messageHolder request.messageId sys.db with
    | none => exact absurd hid (messageHolder_none hholder hc hpublished)
    | some holder =>
      have hfound := List.find?_some hholder
      simp only [Bool.and_eq_true, beq_iff_eq] at hfound
      obtain rfl := heach c hc holder (List.mem_of_find?_eq_some hholder) hpublished hfound.2
        (hid.trans hfound.1.symm)
      exact confirmable.unheld c hholder
  | advanced request resumed advanceable named =>
    have hmessage := hlaw.jobs _ (Action.mem_jobs (Option.mem_toList.mpr resumed)).2
    rw [KeepsOrder, resumed] at hkeeps
    rw [CertifiedJob, ← (cardHash_of_isCard named).2] at hmessage
    exact hposted hmessage (hkeeps advanceable).2
  | notified notification messageId resumed named =>
    have hmessage := hlaw.jobs _ (Action.mem_jobs (Option.mem_toList.mpr resumed)).2
    rw [KeepsOrder, resumed] at hkeeps
    rw [CertifiedJob, ← (cardHash_of_isCard named).2] at hmessage
    exact hposted hmessage hkeeps.2

theorem StepTo.publishesBehind {sys sys' : Sys env} {action : Action}
    (hchain : Chained env sys.db) (hkeeps : KeepsOrder env sys action)
    (h : Publication sys action sys') : PublishesBehind sys.db sys'.db := by
  intro c ⟨hc, hpublished, hnew⟩ d hd hproposal hdpublished
  have hold : c ∉ sys.db.cards := by
    intro hmem
    rw [hnew c hmem (.refl c)] at hpublished
    cases hpublished
  cases h.one with
  | none kept => exact absurd (kept c hc hpublished) hold
  | one row messageId now stored fresh publishes kept =>
    obtain rfl := (kept c hc hpublished).resolve_left hold
    have hle := not_newer (publishes.latest hkeeps stored fresh) hd hproposal hdpublished
    refine lt_of_le_of_ne hle fun hsame => ?_
    obtain rfl := sequence_inj hchain hd stored hproposal hsame
    rw [fresh] at hdpublished
    cases hdpublished

theorem OneMessageEach.step {sys sys' : Sys env} {action : Action} (heach : OneMessageEach sys.db)
    (hchain : Chained env sys.db) (hcollision : NoCollision sys.db) (hnames : NameLaw sys)
    (hlaw : MessageLaw sys) (hkeeps : KeepsOrder env sys action)
    (h : Publication sys action sys') : OneMessageEach sys'.db := by
  intro c hc c' hc' hpublished hpublished' hid
  cases h.one with
  | none kept => exact heach c (kept c hc hpublished) c' (kept c' hc' hpublished') hpublished hpublished' hid
  | one row messageId now stored fresh publishes kept =>
    have hother : ∀ d ∈ sys.db.cards, d.publishedAt.isSome → d.roomMessageId ≠ some messageId := by
      intro d hd hdpublished hdid
      have hhash := publishes.holder hkeeps hchain hlaw heach stored hd hdpublished hdid
      rw [hnames.eq_of_cardHash hchain hcollision hd stored hhash, fresh] at hdpublished
      cases hdpublished
    rcases kept c hc hpublished with hold | rfl
    · rcases kept c' hc' hpublished' with hold' | rfl
      · exact heach c hold c' hold' hpublished hpublished' hid
      · exact absurd hid (hother c hold hpublished)
    · rcases kept c' hc' hpublished' with hold' | rfl
      · exact absurd hid.symm (hother c' hold' hpublished')
      · rfl

end Order

section Runs

theorem noCollision_before {log later : List Action} {sys v : Sys env}
    (h : Accepts (step env) (Sys.initial env) (log ++ later) sys)
    (hv : Accepts (step env) (Sys.initial env) log v) (hcollision : NoCollision sys.db) :
    NoCollision v.db := by
  refine h.backward (P := fun sys => NoCollision sys.db) hv (fun l x a y hx hstep hy => ?_) hcollision
  obtain ⟨cards, hgrow⟩ := (step_cases env (reachable_laws hx).1 hstep).1.cardsStep.grow
  exact hy.before hgrow

/-- The messages of a run whose publications keep the order. -/
theorem messages_of_steps {log : List Action} {sys : Sys env}
    (h : Accepts (step env) (Sys.initial env) log sys)
    (hok : EveryStep (step env) (Sys.initial env) log (KeepsOrder env))
    (hcollision : NoCollision sys.db) : MessageLaw sys ∧ OneMessageEach sys.db := by
  refine h.guarded (P := fun sys => NoCollision sys.db → MessageLaw sys ∧ OneMessageEach sys.db) hok
    (fun _ => ⟨⟨?_, ?_, ?_⟩, ?_⟩) (fun l v a w hv hlaws hkeeps hstep hnext => ?_) hcollision
  · exact fun _ hm => absurd hm List.not_mem_nil
  · exact fun _ hc => absurd hc List.not_mem_nil
  · exact fun _ hj => absurd hj List.not_mem_nil
  · exact fun _ hc => absurd hc List.not_mem_nil
  · have hto := (step_cases env (reachable_laws hv).1 hstep).1
    obtain ⟨cards, hgrow⟩ := hto.cardsStep.grow
    have hbefore := hnext.before hgrow
    obtain ⟨hlaw, heach⟩ := hlaws hbefore
    have hpublication := reachable_publication hv hbefore hto
    exact ⟨hlaw.step hpublication hto, heach.step (reachable_chained hv).2 hbefore
      (reachable_nameLaw hv).2 hlaw hkeeps hpublication⟩

/-- The sequence numbers of the cards that a step publishes in a proposal. -/
def newlyPublished (p : Str) (db db' : Db) : List Int :=
  ((db'.cardsOf p).filter fun c => c.publishedAt.isSome &&
    !(db.cardsOf p).any fun d => d.sequenceNumber == c.sequenceNumber && d.publishedAt.isSome).map
      (·.sequenceNumber)

/-- The sequence numbers of the cards of a proposal, in the order in which a run publishes them. -/
def publicationTrail (env : Env) (p : Str) (log : List Action) : List Int :=
  trail (step env) (fun sys sys' => newlyPublished p sys.db sys'.db) (Sys.initial env) log

theorem mem_newlyPublished {p : Str} {db db' : Db} {n : Int} (h : n ∈ newlyPublished p db db') :
    ∃ c, NewlyPublished db db' c ∧ c.proposalId = p ∧ c.sequenceNumber = n := by
  obtain ⟨c, hc, rfl⟩ := List.mem_map.mp h
  obtain ⟨hmem, hnew⟩ := List.mem_filter.mp hc
  obtain ⟨hpublished, hfresh⟩ := Bool.and_eq_true_iff.mp hnew
  obtain ⟨hstored, hproposal⟩ := mem_cardsOf.mp hmem
  refine ⟨c, ⟨hstored, hpublished, fun d hd hsame => ?_⟩, hproposal, rfl⟩
  by_contra hsome
  rw [Bool.not_eq_true', List.any_eq_false] at hfresh
  refine hfresh d (mem_cardsOf.mpr ⟨hd, by rw [← hproposal, hsame.proposalId]⟩) ?_
  rw [hsame.sequenceNumber, beq_self_eq_true, Bool.true_and]
  exact Option.isSome_iff_ne_none.mpr hsome

theorem newlyPublished_sorted {p : Str} {db db' : Db} (h : Chained env db') :
    (newlyPublished p db db').Pairwise (· < ·) := by
  refine List.Pairwise.map _ (fun _ _ h => h) (List.Pairwise.filter _ ?_)
  rw [List.pairwise_iff_getElem]
  intro i j hi hj hij
  have hfirst := ((h p).get (List.getElem?_eq_getElem hi)).numbered
  have hsecond := ((h p).get (List.getElem?_eq_getElem hj)).numbered
  rw [hfirst, hsecond]
  omega

/-- What a trail lists is published. -/
def Lists (db : Db) (p : Str) (numbers : List Int) : Prop :=
  ∀ n ∈ numbers, ∃ c ∈ db.cards, c.proposalId = p ∧ c.sequenceNumber = n ∧ c.publishedAt.isSome

theorem published_kept {sys sys' : Sys env} {action : Action} (h : Publication sys action sys')
    {c : CardRow} (hc : c ∈ sys.db.cards) (hpublished : c.publishedAt.isSome) :
    c ∈ sys'.db.cards := by
  have hrow : ∀ {row : CardRow} {messageId : Str} {now : Time}, row.publishedAt = none →
      c ∈ publishRow row messageId now sys.db.cards := by
    intro row messageId now hfresh
    refine List.mem_map.mpr ⟨c, hc, if_neg ?_⟩
    rintro rfl
    rw [hfresh] at hpublished
    cases hpublished
  cases h with
  | unpublished new unpublished cards =>
    rw [cards]
    exact List.mem_append_left _ hc
  | confirmed request now row newState severity resumed stored confirmable cards =>
    rw [cards]
    exact hrow confirmable.unpublished
  | advanced request now row resumed stored advanceable named fresh approves cards =>
    rw [cards]
    exact hrow fresh
  | notified notification messageId now row resumed stored named fresh approves cards =>
    rw [cards]
    exact hrow fresh

theorem trail_sorted {log : List Action} {sys : Sys env}
    (h : Accepts (step env) (Sys.initial env) log sys)
    (hok : EveryStep (step env) (Sys.initial env) log (KeepsOrder env))
    (hcollision : NoCollision sys.db) (p : Str) :
    (publicationTrail env p log).Pairwise (· < ·) ∧ Lists sys.db p (publicationTrail env p log) := by
  induction h with
  | start => exact ⟨.nil, fun n hn => absurd hn List.not_mem_nil⟩
  | @accept log v w a hrun hstep ih =>
    have hto := (step_cases env (reachable_laws hrun).1 hstep).1
    obtain ⟨cards, hgrow⟩ := hto.cardsStep.grow
    have hbefore := hcollision.before hgrow
    obtain ⟨hsorted, hlists⟩ := ih hok.initial hbefore
    have hpublication := reachable_publication hrun hbefore hto
    have hbehind := StepTo.publishesBehind (reachable_chained hrun).2 (hok log a [] v rfl hrun)
      hpublication
    have htrail : publicationTrail env p (log ++ [a]) =
        publicationTrail env p log ++ newlyPublished p v.db w.db := hrun.trail_concat hstep
    rw [htrail]
    refine ⟨List.pairwise_append.mpr ⟨hsorted, newlyPublished_sorted
      (reachable_chained (hrun.accept hstep)).2, fun n hn m hm => ?_⟩, fun n hn => ?_⟩
    · obtain ⟨d, hd, hdproposal, rfl, hdpublished⟩ := hlists n hn
      obtain ⟨c, hnew, hproposal, rfl⟩ := mem_newlyPublished hm
      exact hbehind c hnew d hd (hdproposal.trans hproposal.symm) hdpublished
    · rcases List.mem_append.mp hn with hold | hnew
      · obtain ⟨d, hd, hdproposal, hsequence, hdpublished⟩ := hlists n hold
        exact ⟨d, published_kept hpublication hd hdpublished, hdproposal, hsequence, hdpublished⟩
      · obtain ⟨c, hnew, hproposal, hsequence⟩ := mem_newlyPublished hnew
        exact ⟨c, hnew.1, hproposal, hsequence, hnew.2.1⟩

/-- Each room message certifies one card, and the cards of a proposal are published one behind the
other. -/
theorem publications_ordered {log : List Action} {sys : Sys env}
    (h : Accepts (step env) (Sys.initial env) log sys)
    (hok : EveryStep (step env) (Sys.initial env) log (KeepsOrder env))
    (hcollision : NoCollision sys.db) :
    OneMessageEach sys.db ∧
      EveryStep (step env) (Sys.initial env) log (fun v action =>
        ∀ w, step env v action = some w → PublishesBehind v.db w.db) ∧
      ∀ p, (publicationTrail env p log).Pairwise (· < ·) := by
  refine ⟨(messages_of_steps h hok hcollision).2, ?_, fun p => (trail_sorted h hok hcollision p).1⟩
  intro before action after v heq hv w hstep
  subst heq
  have hbefore := noCollision_before h hv hcollision
  exact StepTo.publishesBehind (reachable_chained hv).2 (hok before action after v rfl hv)
    (reachable_publication hv hbefore (step_cases env (reachable_laws hv).1 hstep).1)

end Runs

section Samples

instance (request : AdvanceRequest) (db : Db) : Decidable (Advanceable request db) :=
  decidable_of_iff (_ ∧ _ ∧ _ ∧ _)
    ⟨fun ⟨card, proposal, authorization, planned⟩ => ⟨card, proposal, authorization, planned⟩,
      fun h => ⟨h.card, h.proposal, h.authorization, h.planned⟩⟩

instance (db : Db) (p cardHash : Str) : Decidable (UpToDate db p cardHash) :=
  inferInstanceAs (Decidable (∀ c ∈ db.cards, _ → _ → _))

instance (db : Db) (messageId : Str) : Decidable (Unheld db messageId) :=
  inferInstanceAs (Decidable (_ = _))

/-- `KeepsOrder`, as a test. -/
def keepsOrder (sys : Sys env) (action : Action) : Bool :=
  let behind (proposalId cardHash messageId : Str) : Bool :=
    decide (UpToDate sys.db proposalId cardHash) &&
      (!env.testMode || decide (Unheld sys.db messageId))
  match action.job sys with
  | some (.advance request) => !decide (Advanceable request sys.db) ||
      behind request.proposalId request.cardHash request.roomMessageId
  | some (.recordNotification notification messageId) =>
    behind notification.proposalId notification.cardHash messageId
  | _ => true

theorem keepsOrder_iff {sys : Sys env} {action : Action} :
    keepsOrder sys action = true ↔ KeepsOrder env sys action := by
  unfold keepsOrder KeepsOrder
  split
  · simp [imp_iff_not_or]
  · simp [imp_iff_not_or]
  · simp

instance (sys : Sys env) (action : Action) : Decidable (KeepsOrder env sys action) :=
  decidable_of_iff _ keepsOrder_iff

/-- A plan is sent back and replaced, before the refusal of the first one is recorded. -/
def lateRun : Sys sampleEnv × List Action :=
  play sampleStart (opening ++ reviewing "low" ++ planning 4 4 "rebalance_a" "low" ++ challenging 5 ++
    revising 6 5 ++ behind 1 (planning 8 6 "rebalance_b" "low") ++ resuming 10)

/-- What the run shows, as a value: the next evaluation waits for it. -/
def lateRunKeeps : PLift (
    everyStep (step sampleEnv) (KeepsOrder sampleEnv) (Sys.initial sampleEnv) lateRun.2 = true ∧
      NoCollision lateRun.1.db ∧
      ((step sampleEnv lateRun.1 (.resume 0 (drawsAt 11))).any fun sys' => sys'.db.cards.any fun c =>
        c.publishedAt.isSome && (lateRun.1.db.cards.all fun d => d.cardHash != c.cardHash ||
          d.publishedAt.isNone) &&
        lateRun.1.db.cards.any fun d => d.proposalId == c.proposalId && d.publishedAt.isSome &&
          decide (c.sequenceNumber < d.sequenceNumber)) = true) where
  down := by decide +kernel

theorem publications_ordered_example : OneMessageEach lateRun.1.db ∧
    EveryStep (step sampleEnv) (Sys.initial sampleEnv) lateRun.2 (fun v action =>
      ∀ w, step sampleEnv v action = some w → PublishesBehind v.db w.db) ∧
    ∀ p, (publicationTrail sampleEnv p lateRun.2).Pairwise (· < ·) := by
  obtain ⟨hkeeps, hcollision, -⟩ := lateRunKeeps.down
  have hrun : Accepts (step sampleEnv) (Sys.initial sampleEnv) lateRun.2 lateRun.1 :=
    play_accepts _ .start
  exact publications_ordered hrun (.of_test hkeeps) hcollision

/-- The card of the refusal is published behind the plan that replaced what it refuses. -/
theorem refusal_published_late :
    Accepts (step sampleEnv) (Sys.initial sampleEnv) lateRun.2 lateRun.1 ∧
      ∃ sys', step sampleEnv lateRun.1 (.resume 0 (drawsAt 11)) = some sys' ∧
        ¬PublishesBehind lateRun.1.db sys'.db := by
  refine ⟨play_accepts _ .start, ?_⟩
  obtain ⟨sys', hstep, hany⟩ := (Option.any_eq_true _ _).mp lateRunKeeps.down.2.2
  refine ⟨sys', hstep, fun hbehind => ?_⟩
  obtain ⟨c, hc, hlate⟩ := List.any_eq_true.mp hany
  simp only [Bool.and_eq_true, List.all_eq_true, List.any_eq_true, beq_iff_eq,
    decide_eq_true_eq] at hlate
  obtain ⟨⟨hpublished, hfresh⟩, d, hd, ⟨hproposal, hdpublished⟩, hless⟩ := hlate
  have hnew : NewlyPublished lateRun.1.db sys'.db c := by
    refine ⟨hc, hpublished, fun e he hsame => ?_⟩
    have := hfresh e he
    rw [hsame.cardHash] at this
    simpa using this
  exact absurd (hbehind c hnew d hd hproposal hdpublished) (by omega)

end Samples
end Concordia.Gateway
