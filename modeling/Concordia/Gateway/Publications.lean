import Concordia.Gateway.Authority

/-! What a step publishes: a card that is confirmed, or the card of an approval, a policy or a
refusal; and nothing else, as long as no two cards have one hash. -/
namespace Concordia.Gateway
open Concordia.Python Concordia.Lib.Transactions Concordia.Lib.Transition Concordia.Lib.HashChain
open Concordia.Js hiding Value

variable {env : Env}

section Approvals

/-- The hash of a card that the gateway seals itself. -/
def Approves (db : Db) (p cardHash : Str) : Prop :=
  ∃ c ∈ db.cards, c.proposalId = p ∧ c.cardHash = cardHash ∧
    (c.cardType = CardType.structuredApproval.column ∨
      c.cardType = CardType.policyAuthorization.column)

/-- A publication of an authorization, to a state that it can lead to. -/
def ApprovesRequest (db : Db) (request : PublishRequest) : Prop :=
  Approves db request.proposalId request.cardHash ∧
    (request.target = .approved ∨ request.target = .authorized)

def ApprovesJob (db : Db) : Job env → Prop
  | .publishApproval request | .publishPolicy request => ApprovesRequest db request
  | .advance request => ApprovesRequest db request.toPublishRequest
  | .notify notification _ | .recordNotification notification _ =>
    Approves db notification.proposalId notification.cardHash
  | _ => True

/-- Authorizations, and the publications that are under way, are about such cards. -/
structure PublicationLaw (sys : Sys env) : Prop where
  authorizations : ∀ a ∈ sys.db.authorizations, Approves sys.db a.proposalId a.cardHash
  jobs : ∀ job ∈ sys.jobs, ApprovesJob sys.db job

variable {db db' : Db} {cards : List CardRow} {next : List (Job env)} {draws : Draws}

theorem Approves.grow (hgrow : CardsGrow db db' cards) {p cardHash : Str} (h : Approves db p cardHash) :
    Approves db' p cardHash := by
  obtain ⟨c, hc, hproposal, hhash, htype⟩ := h
  obtain ⟨c', hc', hsame⟩ := hgrow.card hc
  refine ⟨c', hc', hsame.proposalId.trans hproposal, hsame.cardHash.trans hhash, ?_⟩
  rw [hsame.cardType]
  exact htype

theorem ApprovesJob.grow (hgrow : CardsGrow db db' cards) {job : Job env} (h : ApprovesJob db job) :
    ApprovesJob db' job := by
  cases job with
  | publishApproval request => exact ⟨h.1.grow hgrow, h.2⟩
  | publishPolicy request => exact ⟨h.1.grow hgrow, h.2⟩
  | advance request => exact ⟨h.1.grow hgrow, h.2⟩
  | notify notification attempts => exact Approves.grow hgrow h
  | recordNotification notification messageId => exact Approves.grow hgrow h
  | _ => trivial

theorem CardsStep.grow (h : CardsStep env db db') : ∃ cards, CardsGrow db db' cards := by
  cases h with
  | same cards => exact ⟨[], .same cards⟩
  | published hits messageId now cards => exact ⟨[], .published cards⟩
  | appended card proposalId key role requestFp fresh known cards => exact ⟨_, .appended cards⟩

theorem SealStep.approves {card : Card env.floats} {proposalId : Str} {key : Option Str}
    {role : Option Role} {requestFp : Option Str} {result : Sealed env.floats}
    (h : SealStep env card proposalId key role requestFp db result db')
    (htype : card.cardType = .structuredApproval ∨ card.cardType = .policyAuthorization)
    {db'' : Db} (hcards : db''.cards = db'.cards) : Approves db'' proposalId result.cardHash := by
  obtain ⟨cards, -, -, c, hc, hproposal, hhash, hcolumn⟩ := h.grown
  refine ⟨c, by rw [hcards]; exact hc, hproposal, hhash, ?_⟩
  rw [hcolumn]
  exact htype.imp (congrArg CardType.column) (congrArg CardType.column)

/-- The authorizations of one step come from those before it. -/
theorem approves_kept (h : ∀ a ∈ db.authorizations, Approves db a.proposalId a.cardHash)
    (hgrow : CardsGrow db db' cards) {g : AuthorizationRow → AuthorizationRow}
    (hg : ∀ a, Forward a (g a)) (hauths : db'.authorizations = db.authorizations.map g) :
    ∀ a ∈ db'.authorizations, Approves db' a.proposalId a.cardHash := by
  intro a' ha'
  rw [hauths] at ha'
  obtain ⟨a, ha, rfl⟩ := List.mem_map.mp ha'
  obtain ⟨-, hproposal, -, hhash, -⟩ := (hg a).same_grant
  rw [hproposal, hhash]
  exact (h a ha).grow hgrow

theorem approves_appended (row : AuthorizationRow)
    (h : ∀ a ∈ db.authorizations, Approves db a.proposalId a.cardHash)
    (hgrow : CardsGrow db db' cards)
    (hauths : db'.authorizations = db.authorizations ++ [row])
    (hrow : Approves db' row.proposalId row.cardHash) :
    ∀ a ∈ db'.authorizations, Approves db' a.proposalId a.cardHash := by
  intro a ha
  rw [hauths] at ha
  rcases List.mem_append.mp ha with hold | hnew
  · exact (h a hold).grow hgrow
  · rw [List.mem_singleton.mp hnew]
    exact hrow

theorem CloseStep.approves {closure : Closure} {more : Db → Db} {request : CloseRequest}
    {now : Time} {cardHash : Str} (hmore : ∀ db, (more db).cards = db.cards)
    (hstep : CloseStep env closure more request now db cardHash db') :
    Approves db' request.proposalId cardHash := by
  cases hstep with
  | intro row card approval behindSeal planned valid isApproval decided sealing =>
    exact sealing.approves (.inl isApproval.type) (hmore _)

theorem resume_approves {job : Job env}
    (h : ∀ a ∈ db.authorizations, Approves db a.proposalId a.cardHash)
    (hjob : ApprovesJob db job) (hfresh : db.authorization draws.uuid = none)
    (hpost : resumePost env draws db next db' job) :
    (∀ a ∈ db'.authorizations, Approves db' a.proposalId a.cardHash) ∧
      ∀ job ∈ next, ApprovesJob db' job := by
  obtain ⟨cards, hgrow⟩ := (resume_cardsStep hpost).grow
  have hkept : db'.authorizations = db.authorizations →
      ∀ a ∈ db'.authorizations, Approves db' a.proposalId a.cardHash := fun hauths =>
    approves_kept h hgrow (fun _ => .same) (by rw [hauths, List.map_id'])
  cases job with
  | sealCard request =>
    obtain ⟨rfl, rfl | ⟨result, hseal⟩⟩ := hpost
    · exact ⟨h, by simp⟩
    · exact ⟨hkept hseal.ledger.2.1, by simp⟩
  | confirm request =>
    obtain ⟨rfl, rfl | ⟨row, newState, severity, -, rfl⟩⟩ := hpost
    · exact ⟨h, by simp⟩
    · exact ⟨hkept rfl, by simp⟩
  | createNonce row =>
    obtain ⟨rfl, rfl | hinsert⟩ := hpost
    · exact ⟨h, by simp⟩
    · unfold insertNonce at hinsert
      simp only [Option.ite_none_left_eq_some, Option.some.injEq] at hinsert
      exact ⟨hkept (by rw [← hinsert.2]), by simp⟩
  | postChallenge request =>
    refine ⟨hkept hpost.1.authorizations, fun job hjob => ?_⟩
    obtain ⟨record, rfl⟩ := hpost.2 job hjob
    trivial
  | recordChallenge record =>
    obtain ⟨rfl, rfl⟩ := hpost
    exact ⟨hkept rfl, by simp⟩
  | consumeNonce request =>
    rcases hpost with ⟨rfl, rfl⟩ | ⟨consumption, hstep, rfl⟩
    · exact ⟨h, by simp⟩
    · cases hstep with
      | intro row envelopesJson card approval behindSeal _ consumable isApproval sealing target =>
        have hbehind : behindSeal.authorization draws.uuid = none := by
          simpa only [Db.authorization, sealing.ledger.2.1] using hfresh
        have happroves := sealing.approves (.inl isApproval.type)
          (insertAuthorization_cards (humanAuthorizationRow request draws.uuid envelopesJson row.expiry
            approval.cardHash) behindSeal)
        refine ⟨approves_appended (humanAuthorizationRow request draws.uuid envelopesJson
          row.expiry approval.cardHash) h hgrow ?_ happroves, fun job hmem => ?_⟩
        · rw [consumed, insertAuthorization_fresh hbehind]
          simp only [consumeNonceOnly, updateNonces, sealing.ledger.2.1]
        · obtain rfl := List.mem_singleton.mp hmem
          rw [ApprovesJob, target]
          exact ⟨happroves, .inl rfl⟩
  | sealPolicy request =>
    rcases hpost with ⟨rfl, rfl⟩ | ⟨publication, hstep, rfl⟩
    · exact ⟨h, by simp⟩
    · cases hstep with
      | intro approval behindSeal sealing =>
        have hbehind : behindSeal.authorization draws.uuid = none := by
          simpa only [Db.authorization, sealing.ledger.2.1] using hfresh
        have happroves := sealing.approves (.inr rfl) (insertAuthorization_cards
          (policyAuthorizationRow env request draws.uuid approval.cardHash) behindSeal)
        refine ⟨approves_appended (policyAuthorizationRow env request draws.uuid
          approval.cardHash) h hgrow ?_ happroves, fun job hmem => ?_⟩
        · rw [policyAuthorized, insertAuthorization_fresh hbehind, sealing.ledger.2.1]
        · obtain rfl := List.mem_singleton.mp hmem
          exact ⟨happroves, .inr rfl⟩
  | publishApproval request =>
    refine ⟨hkept hpost.1.authorizations, fun job hmem => ?_⟩
    obtain ⟨publication, rfl, rfl, -⟩ := hpost.2 job hmem
    exact ⟨hjob.1.grow hgrow, hjob.2⟩
  | publishPolicy request =>
    refine ⟨hkept hpost.1.authorizations, fun job hmem => ?_⟩
    obtain ⟨publication, rfl, rfl, -⟩ := hpost.2 job hmem
    exact ⟨hjob.1.grow hgrow, hjob.2⟩
  | advance request =>
    obtain ⟨rfl, rfl | ⟨-, rfl⟩⟩ := hpost
    · exact ⟨h, by simp⟩
    · exact ⟨approves_kept h hgrow (advanceRow_forward request) rfl, by simp⟩
  | consumeAuthorization request =>
    obtain ⟨rfl, rfl | rfl⟩ := hpost
    · exact ⟨h, by simp⟩
    · exact ⟨approves_kept h hgrow (useRow_forward _ _ _) rfl, by simp⟩
  | revise instructions request =>
    rcases hpost with ⟨rfl, rfl⟩ | ⟨cardHash, roomId, hstep, rfl⟩
    · exact ⟨h, by simp⟩
    · have happroves := hstep.approves fun _ => rfl
      cases hstep with
      | intro row card approval behindSeal planned valid isApproval decided sealing =>
        exact ⟨hkept sealing.ledger.2.1, by simpa [ApprovesJob] using happroves⟩
  | falseAlarm request =>
    rcases hpost with ⟨rfl, rfl⟩ | ⟨cardHash, roomId, hstep, rfl⟩
    · exact ⟨h, by simp⟩
    · have happroves := hstep.approves (addSuppressionRule_cards _)
      cases hstep with
      | intro row card approval behindSeal planned valid isApproval decided sealing =>
        exact ⟨hkept ((addSuppressionRule_ledger _ _).2.trans sealing.ledger.2.1),
          by simpa [ApprovesJob] using happroves⟩
  | notify notification attempts =>
    refine ⟨hkept hpost.1.authorizations, fun job hmem => ?_⟩
    rcases hpost.2 job hmem with ⟨messageId, rfl, -⟩ | ⟨attempts, rfl⟩
    · exact Approves.grow hgrow hjob
    · exact Approves.grow hgrow hjob
  | recordNotification notification messageId =>
    obtain ⟨rfl, rfl⟩ := hpost
    exact ⟨hkept rfl, by simp⟩

theorem Resumes.approves (h : ∀ a ∈ db.authorizations, Approves db a.proposalId a.cardHash)
    {proposalId : Str} {request : PublishRequest} (hresumes : Resumes db proposalId request) :
    ApprovesRequest db request := by
  obtain ⟨a, ha, rfl, -, rfl⟩ := hresumes
  exact ⟨h a ha, .inl rfl⟩

theorem ResumesPolicy.approves {proposalId planHash : Str} {request : PublishRequest}
    (hresumes : ResumesPolicy env db proposalId planHash request) : ApprovesRequest db request := by
  obtain ⟨existing, data, a, hcard, -, -, -, -, rfl⟩ := hresumes
  have hfound := List.find?_some hcard
  simp only [Bool.and_eq_true, beq_iff_eq] at hfound
  exact ⟨⟨existing, List.mem_of_find?_eq_some hcard, hfound.1.2, rfl, .inr hfound.2⟩, .inr rfl⟩

theorem ConsumeJob.approves (h : ∀ a ∈ db.authorizations, Approves db a.proposalId a.cardHash)
    {proposalId : Str} {job : Job env} (hjob : ConsumeJob env db proposalId job) :
    ApprovesJob db job := by
  rcases hjob with ⟨request, rfl, -, -⟩ | ⟨request, rfl, hresumes⟩
  · trivial
  · exact hresumes.approves h

theorem start_approves {request : Request}
    (h : ∀ a ∈ db.authorizations, Approves db a.proposalId a.cardHash)
    (hpost : startPost env draws db next db' request) : ∀ job ∈ next, ApprovesJob db job := by
  intro job hjob
  cases request with
  | prepare cardType xAgentKey xIdempotencyKey body =>
    obtain ⟨request, rfl, -⟩ := hpost.2 job hjob
    trivial
  | confirm xAgentKey body =>
    obtain ⟨request, rfl, -⟩ := hpost.2 job hjob
    trivial
  | createNonce xAgentKey proposalId =>
    obtain ⟨plan, data, -, -, rfl⟩ := hpost.2 job hjob
    trivial
  | challenge xAgentKey proposalId nonce challengeText =>
    obtain ⟨request, rfl⟩ := hpost.2 job hjob
    trivial
  | consumeNonce xAgentKey body => exact (hpost.2 job hjob).approves h
  | policyAuthorization xAgentKey body =>
    rcases hpost.2 job hjob with ⟨sealing, rfl, -⟩ | ⟨publication, rfl, hresumes, -⟩
    · trivial
    · exact hresumes.approves
  | consumeAuthorization xAgentKey authorizationId proposalId =>
    obtain ⟨request, rfl⟩ := hpost.2 job hjob
    trivial
  | decide approverId proposalId nonce decision =>
    cases decision with
    | approve => exact (hpost.2 job hjob).approves h
    | revise instructions =>
      obtain ⟨instructions, request, rfl⟩ := hpost.2 job hjob
      trivial
    | falseAlarm =>
      obtain ⟨request, rfl⟩ := hpost.2 job hjob
      trivial
  | createRoom xAgentKey proposalId => simp [hpost.2] at hjob
  | postMessage xAgentKey roomId content senderRole metadata => simp [hpost.2] at hjob

theorem PublicationLaw.step {sys sys' : Sys env} {action : Action} (h : PublicationLaw sys)
    (hstep : StepTo env sys action sys') : PublicationLaw sys' := by
  obtain ⟨cards, hgrow⟩ := hstep.cardsStep.grow
  cases hstep with
  | request request draws next db' fresh post =>
    have hauths := (start_ledger post).2
    refine ⟨approves_kept h.authorizations hgrow (fun _ => .same) (hauths.trans (List.map_id' _).symm),
      fun job hjob => ?_⟩
    rcases List.mem_append.mp hjob with hold | hnew
    · exact (h.jobs job hold).grow hgrow
    · exact (start_approves h.authorizations post job hnew).grow hgrow
  | resume index draws job next db' fresh pending post =>
    obtain ⟨hauths, hnext⟩ :=
      resume_approves h.authorizations (h.jobs job (List.mem_of_getElem? pending)) fresh post
    refine ⟨hauths, fun job hjob => ?_⟩
    rcases List.mem_append.mp hjob with hold | hnew
    · exact (h.jobs job (List.mem_of_mem_eraseIdx hold)).grow hgrow
    · exact hnext job hnew

theorem reachable_publicationLaw {log : List Action} {sys : Sys env}
    (h : Accepts (step env) (Sys.initial env) log sys) : sys.Idle ∧ PublicationLaw sys := by
  refine h.invariant (P := fun sys => sys.Idle ∧ PublicationLaw sys)
    ⟨rfl, fun _ ha => absurd ha List.not_mem_nil, fun _ hj => absurd hj List.not_mem_nil⟩
    fun v a w hv hstep => ?_
  obtain ⟨hto, hidle⟩ := step_cases env hv.1 hstep
  exact ⟨hidle, hv.2.step hto⟩

end Approvals

section Collisions

/-- The digest keeps the sealed texts apart. -/
def NoCollision (db : Db) : Prop :=
  ∀ c ∈ db.cards, ∀ c' ∈ db.cards, c.cardHash = c'.cardHash → c.cardJson = c'.cardJson

instance (db : Db) : Decidable (NoCollision db) :=
  inferInstanceAs (Decidable (∀ c ∈ db.cards, ∀ c' ∈ db.cards, _ → _))

variable {db db' : Db}

theorem NoCollision.before {cards : List CardRow} (hgrow : CardsGrow db db' cards)
    (h : NoCollision db') : NoCollision db := by
  intro c hc c' hc' hhash
  obtain ⟨d, hd, hsame⟩ := hgrow.card hc
  obtain ⟨d', hd', hsame'⟩ := hgrow.card hc'
  have := h d hd d' hd' (by rw [hsame.cardHash, hsame'.cardHash, hhash])
  rw [← hsame.cardJson, ← hsame'.cardJson, this]

theorem mem_cardsOf {c : CardRow} {p : Str} : c ∈ db.cardsOf p ↔ c ∈ db.cards ∧ c.proposalId = p := by
  simp [Db.cardsOf]

theorem sequence_of_canonical {c : CardRow} {card : Card env.floats} {n : Int} {prev : Option Str}
    (h : c.cardJson = (card.linked n prev).canonical) :
    ∃ data, rowData env c = some data ∧ data.get "sequence_number" = .int n := by
  obtain ⟨data, hdata, hget⟩ := rowData_canonical h
  have hsequence : (card.linked n prev).dump.get "sequence_number" = .int n := by
    unfold Card.linked
    rw [get_set_other (by decide +kernel), get_set_self]
  exact ⟨data, hdata, by rw [hget, hsequence]; simp [sortKeys]⟩

/-- The hash of a card names it within its proposal. -/
theorem Chained.eq_of_cardHash (h : Chained env db) (hcollision : NoCollision db) {c c' : CardRow}
    (hc : c ∈ db.cards) (hc' : c' ∈ db.cards) (hproposal : c.proposalId = c'.proposalId)
    (hhash : c.cardHash = c'.cardHash) : c = c' := by
  have hchain := h c'.proposalId
  obtain ⟨i, hi⟩ := List.mem_iff_getElem?.mp (mem_cardsOf.mpr ⟨hc, hproposal⟩)
  obtain ⟨j, hj⟩ := List.mem_iff_getElem?.mp (mem_cardsOf.mpr ⟨hc', rfl⟩)
  obtain ⟨card, hcard⟩ := (hchain.get hi).sealed
  obtain ⟨card', hcard'⟩ := (hchain.get hj).sealed
  obtain ⟨data, hdata, hnumber⟩ := sequence_of_canonical hcard
  obtain ⟨data', hdata', hnumber'⟩ := sequence_of_canonical hcard'
  -- one text, one number, one place in the chain
  have hsame : rowData env c = rowData env c' := by
    rw [rowData, rowData, hcollision c hc c' hc' hhash]
  rw [hdata, hdata', Option.some.injEq] at hsame
  rw [hsame, hnumber'] at hnumber
  obtain rfl : j = i := by
    have := Value.int.inj hnumber
    omega
  exact Option.some.inj (hi.symm.trans hj)

end Collisions

section Publication

/-- One row is published. -/
def publishRow (row : CardRow) (messageId : Str) (now : Time) (cards : List CardRow) : List CardRow :=
  cards.map fun r =>
    if r = row then { r with publishedAt := some now, roomMessageId := some messageId } else r

/-- The job that an action resumes. -/
def Action.job (sys : Sys env) : Action → Option (Job env)
  | .request _ _ => none
  | .resume index _ => sys.jobs[index]?

/-- What a step does to the publications: a new card is unpublished, and only a confirmation, an
advance or a notification publishes one. -/
inductive Publication (sys : Sys env) (action : Action) (sys' : Sys env) : Prop
  | unpublished (new : List CardRow)
      (unpublished : ∀ c ∈ new, c.publishedAt = none ∧ c.roomMessageId = none)
      (cards : sys'.db.cards = sys.db.cards ++ new)
  | confirmed (request : ConfirmRequest) (now : Time) (row : CardRow)
      (newState : Option ProposalState) (severity : Option Str)
      (resumed : action.job sys = some (.confirm request)) (stored : row ∈ sys.db.cards)
      (confirmable : Confirmable env request sys.db row newState severity)
      (cards : sys'.db.cards = publishRow row request.messageId now sys.db.cards)
  | advanced (request : AdvanceRequest) (now : Time) (row : CardRow)
      (resumed : action.job sys = some (.advance request)) (stored : row ∈ sys.db.cards)
      (advanceable : Advanceable request sys.db)
      (named : isCard request.proposalId request.cardHash row = true)
      (fresh : row.publishedAt = none)
      (approves : row.cardType = CardType.structuredApproval.column ∨
        row.cardType = CardType.policyAuthorization.column)
      (cards : sys'.db.cards = publishRow row request.roomMessageId now sys.db.cards)
  | notified (notification : Notification) (messageId : Str) (now : Time) (row : CardRow)
      (resumed : action.job sys = some (.recordNotification notification messageId))
      (stored : row ∈ sys.db.cards)
      (named : isCard notification.proposalId notification.cardHash row = true)
      (fresh : row.publishedAt = none)
      (approves : row.cardType = CardType.structuredApproval.column ∨
        row.cardType = CardType.policyAuthorization.column)
      (cards : sys'.db.cards = publishRow row messageId now sys.db.cards)

variable {db db' : Db}

theorem publishCards_eq {hits : CardRow → Bool} {row : CardRow} {messageId : Str} {now : Time}
    (hrow : hits row = true) (hunique : ∀ c ∈ db.cards, hits c = true → c = row) :
    (publishCards hits messageId now db).2.cards = publishRow row messageId now db.cards := by
  refine List.map_congr_left fun c hc => ?_
  by_cases hhit : hits c = true
  · rw [if_pos hhit, if_pos (hunique c hc hhit)]
  · rw [if_neg hhit, if_neg]
    rintro rfl
    exact hhit hrow

theorem publishCards_none {hits : CardRow → Bool} {messageId : Str} {now : Time}
    (h : ∀ c ∈ db.cards, hits c ≠ true) : (publishCards hits messageId now db).2.cards = db.cards := by
  conv_rhs => rw [← List.map_id db.cards]
  exact List.map_congr_left fun c hc => if_neg (h c hc)

/-- A card that the gateway seals itself is the only one of its hash. -/
theorem approved_row (hchain : Chained env db) (hcollision : NoCollision db) {p cardHash : Str}
    (h : Approves db p cardHash) : ∃ row ∈ db.cards, isCard p cardHash row = true ∧
      (row.cardType = CardType.structuredApproval.column ∨
        row.cardType = CardType.policyAuthorization.column) ∧
      ∀ c ∈ db.cards, isCard p cardHash c = true → c = row := by
  obtain ⟨row, hrow, hproposal, hhash, htype⟩ := h
  refine ⟨row, hrow, by simp [isCard, hproposal, hhash], htype, fun c hc hcard => ?_⟩
  obtain ⟨hchash, hcproposal⟩ : c.cardHash = cardHash ∧ c.proposalId = p := by
    simpa [isCard] using hcard
  exact hchain.eq_of_cardHash hcollision hc hrow (hcproposal.trans hproposal.symm)
    (hchash.trans hhash.symm)

theorem SealStep.unpublished {card : Card env.floats} {proposalId : Str} {key : Option Str}
    {role : Option Role} {requestFp : Option Str} {result : Sealed env.floats}
    (h : SealStep env card proposalId key role requestFp db result db') :
    ∃ new, (∀ c ∈ new, c.publishedAt = none ∧ c.roomMessageId = none) ∧
      db'.cards = db.cards ++ new := by
  obtain ⟨cards, hcards, hrows, -⟩ := h.grown
  refine ⟨cards, fun c hc => ?_, hcards⟩
  rw [(hrows c hc).1]
  exact ⟨rfl, rfl⟩

theorem StepTo.publication {sys sys' : Sys env} {action : Action} (hchain : Chained env sys.db)
    (hunique : UniqueKeys sys.db) (hcollision : NoCollision sys.db) (hlaw : PublicationLaw sys)
    (hstep : StepTo env sys action sys') : Publication sys action sys' := by
  have hnone : sys'.db.cards = sys.db.cards → Publication sys action sys' := fun hcards =>
    .unpublished [] (by simp) (by rw [hcards, List.append_nil])
  have hnew : (∃ new, (∀ c ∈ new, c.publishedAt = none ∧ c.roomMessageId = none) ∧
      sys'.db.cards = sys.db.cards ++ new) → Publication sys action sys' :=
    fun ⟨new, hunpublished, hcards⟩ => .unpublished new hunpublished hcards
  cases hstep with
  | request request draws next db' fresh post => exact hnone (start_cards post)
  | resume index draws job next db' fresh pending post =>
    have hjob := List.mem_of_getElem? pending
    cases job with
    | sealCard request =>
      rcases post.2 with rfl | ⟨result, hseal⟩
      · exact hnone rfl
      · exact hnew hseal.unpublished
    | confirm request =>
      rcases post.2 with rfl | ⟨row, newState, severity, hconfirm, rfl⟩
      · exact hnone rfl
      · have hfound := List.find?_some hconfirm.found
        have hstored := List.mem_of_find?_eq_some hconfirm.found
        refine .confirmed request draws.now row newState severity pending hstored hconfirm
          (publishCards_eq hfound fun c hc hprepared => ?_)
        simp only [isPrepared, Bool.and_eq_true, beq_iff_eq] at hprepared hfound
        exact hunique c hc row hstored (hprepared.1.1.trans hfound.1.1.symm)
          (hprepared.2.trans hfound.2.symm) (by rw [hprepared.2]; rfl)
    | createNonce row =>
      rcases post.2 with rfl | hinsert
      · exact hnone rfl
      · unfold insertNonce at hinsert
        simp only [Option.ite_none_left_eq_some, Option.some.injEq] at hinsert
        obtain ⟨-, rfl⟩ := hinsert
        exact hnone rfl
    | postChallenge request => exact hnone post.1.cards
    | recordChallenge record =>
      obtain ⟨-, rfl⟩ := post
      exact hnone rfl
    | consumeNonce request =>
      rcases post with ⟨rfl, -⟩ | ⟨consumption, happroval, -⟩
      · exact hnone rfl
      · cases happroval with
        | intro row envelopesJson card approval behindSeal _ consumable isApproval sealing target =>
          obtain ⟨new, hunpublished, hcards⟩ := sealing.unpublished
          exact .unpublished new hunpublished ((insertAuthorization_cards _ _).trans hcards)
    | publishApproval request => exact hnone post.1.cards
    | sealPolicy request =>
      rcases post with ⟨rfl, -⟩ | ⟨publication, hpolicy, -⟩
      · exact hnone rfl
      · cases hpolicy with
        | intro approval behindSeal sealing =>
          obtain ⟨new, hunpublished, hcards⟩ := sealing.unpublished
          exact .unpublished new hunpublished ((insertAuthorization_cards _ _).trans hcards)
    | publishPolicy request => exact hnone post.1.cards
    | advance request =>
      rcases post.2 with rfl | ⟨hadvance, rfl⟩
      · exact hnone rfl
      · obtain ⟨row, hrow, hcard, htype, hone⟩ :=
          approved_row hchain hcollision (hlaw.jobs _ hjob).1
        obtain ⟨c, hc, hhit⟩ := List.countP_pos_iff.mp (hadvance.card ▸ Nat.one_pos)
        obtain ⟨hccard, hfresh⟩ := Bool.and_eq_true_iff.mp hhit
        obtain rfl := hone c hc hccard
        exact .advanced request draws.now c pending hc hadvance hcard (by simpa using hfresh) htype
          (publishCards_eq hhit fun d hd hdhit => hone d hd (Bool.and_eq_true_iff.mp hdhit).1)
    | consumeAuthorization request =>
      rcases post.2 with rfl | rfl
      · exact hnone rfl
      · exact hnone rfl
    | revise instructions request =>
      rcases post with ⟨rfl, -⟩ | ⟨cardHash, roomId, hclose, -⟩
      · exact hnone rfl
      · cases hclose with
        | intro row card approval behindSeal planned valid isApproval decided sealing =>
          obtain ⟨new, hunpublished, hcards⟩ := sealing.unpublished
          exact .unpublished new hunpublished hcards
    | falseAlarm request =>
      rcases post with ⟨rfl, -⟩ | ⟨cardHash, roomId, hclose, -⟩
      · exact hnone rfl
      · cases hclose with
        | intro row card approval behindSeal planned valid isApproval decided sealing =>
          obtain ⟨new, hunpublished, hcards⟩ := sealing.unpublished
          exact .unpublished new hunpublished ((addSuppressionRule_cards _ _).trans hcards)
    | notify notification attempts => exact hnone post.1.cards
    | recordNotification notification messageId =>
      obtain ⟨-, rfl⟩ := post
      obtain ⟨row, hrow, hcard, htype, hone⟩ := approved_row hchain hcollision (hlaw.jobs _ hjob)
      by_cases hfresh : row.publishedAt = none
      · refine .notified notification messageId draws.now row pending hrow hcard hfresh htype
          (publishCards_eq ?_ fun d hd hdhit => hone d hd (Bool.and_eq_true_iff.mp hdhit).1)
        rw [hcard, hfresh]
        rfl
      · refine hnone (publishCards_none fun c hc hhit => ?_)
        obtain ⟨hccard, hcfresh⟩ := Bool.and_eq_true_iff.mp hhit
        obtain rfl := hone c hc hccard
        exact hfresh (by simpa using hcfresh)

/-- The facts that every reachable state offers to the laws about publications. -/
theorem reachable_publication {log : List Action} {sys sys' : Sys env} {action : Action}
    (h : Accepts (step env) (Sys.initial env) log sys) (hcollision : NoCollision sys.db)
    (hstep : StepTo env sys action sys') : Publication sys action sys' :=
  hstep.publication (reachable_chained h).2 (reachable_uniqueKeys h).2 hcollision
    (reachable_publicationLaw h).2

end Publication

section Latest
variable {db db' : Db}

/-- The latest published card of a type. -/
def Db.latestPublished (db : Db) (t : CardType) (proposalId : Str) : Option CardRow :=
  lastBySequence ((db.cardsOf proposalId).filter fun r => r.cardType == t.column && r.publishedAt.isSome)

theorem confirmedPlan_eq (p : Str) : db.confirmedPlan p = db.latestPublished .responsePlan p := rfl

theorem filter_publishRow {row : CardRow} {messageId : Str} {now : Time} {q : CardRow → Bool}
    {cards : List CardRow} (hbefore : q row = false)
    (hafter : q { row with publishedAt := some now, roomMessageId := some messageId } = false) :
    (publishRow row messageId now cards).filter q = cards.filter q := by
  induction cards with
  | nil => rfl
  | cons c cards ih =>
    rw [publishRow, List.map_cons, List.filter_cons, List.filter_cons]
    by_cases hc : c = row
    · subst hc
      rw [if_pos rfl, hbefore, hafter]
      exact ih
    · rw [if_neg hc]
      split
      · exact congrArg (c :: ·) ih
      · exact ih

/-- What is published of one type in one proposal. -/
def isPublished (t : CardType) (p : Str) (r : CardRow) : Bool :=
  r.proposalId == p && (r.cardType == t.column && r.publishedAt.isSome)

theorem latestPublished_congr {t : CardType} {p : Str}
    (h : db'.cards.filter (isPublished t p) = db.cards.filter (isPublished t p)) :
    db'.latestPublished t p = db.latestPublished t p := by
  unfold isPublished at h
  unfold Db.latestPublished Db.cardsOf
  rw [List.filter_filter, List.filter_filter]
  simp only [Bool.and_comm] at h ⊢
  rw [h]

theorem latestPublished_publishRow {row : CardRow} {messageId : Str} {now : Time} {t : CardType}
    {p : Str} (hcards : db'.cards = publishRow row messageId now db.cards)
    (hother : row.cardType ≠ t.column ∨ row.proposalId ≠ p) :
    db'.latestPublished t p = db.latestPublished t p := by
  refine latestPublished_congr (hcards ▸ filter_publishRow ?_ ?_)
  · rcases hother with htype | hproposal
    · simp [isPublished, htype]
    · simp [isPublished, hproposal]
  · rcases hother with htype | hproposal
    · simp [isPublished, htype]
    · simp [isPublished, hproposal]

/-- Only confirming a card of the type moves the latest published one. -/
theorem Publication.latest {sys sys' : Sys env} {action : Action}
    (h : Publication sys action sys') {t : CardType} {p : Str}
    (ht : t ≠ .structuredApproval ∧ t ≠ .policyAuthorization) :
    sys'.db.latestPublished t p = sys.db.latestPublished t p ∨
      ∃ request row newState severity, action.job sys = some (.confirm request) ∧
        Confirmable env request sys.db row newState severity ∧ request.proposalId = p ∧
        row.cardType = t.column := by
  have happroval : ∀ {row : CardRow}, row.cardType = CardType.structuredApproval.column ∨
      row.cardType = CardType.policyAuthorization.column → row.cardType ≠ t.column := by
    intro row htype heq
    rcases htype with h | h
    · exact ht.1 (CardType.column_injective (heq.symm.trans h))
    · exact ht.2 (CardType.column_injective (heq.symm.trans h))
  cases h with
  | unpublished new unpublished cards =>
    have hnew : new.filter (isPublished t p) = [] :=
      List.filter_eq_nil_iff.mpr fun c hc => by simp [isPublished, (unpublished c hc).1]
    exact .inl (latestPublished_congr (by rw [cards, List.filter_append, hnew, List.append_nil]))
  | confirmed request now row newState severity resumed stored confirmable cards =>
    have hproposal : row.proposalId = request.proposalId := by
      have hfound := List.find?_some confirmable.found
      simp only [isPrepared, Bool.and_eq_true, beq_iff_eq] at hfound
      exact hfound.1.1
    by_cases hrow : row.cardType ≠ t.column ∨ row.proposalId ≠ p
    · exact .inl (latestPublished_publishRow cards hrow)
    · obtain ⟨htype, hp⟩ := not_or.mp hrow
      exact .inr ⟨request, row, newState, severity, resumed, confirmable,
        hproposal.symm.trans (not_not.mp hp), not_not.mp htype⟩
  | advanced request now row resumed stored advanceable named fresh approves cards =>
    exact .inl (latestPublished_publishRow cards (.inl (happroval approves)))
  | notified notification messageId now row resumed stored named fresh approves cards =>
    exact .inl (latestPublished_publishRow cards (.inl (happroval approves)))

end Latest

section Moves

/-- The moves of a step, with the job that makes them. -/
theorem StepTo.stateStep_job {sys sys' : Sys env} {action : Action} (h : StepTo env sys action sys') :
    StateStep { sys with jobs := (action.job sys).toList } sys' := by
  cases h with
  | request request draws next db' fresh post => exact start_states post
  | resume index draws job next db' fresh pending post =>
    refine resume_stateStep ?_ post
    rw [Action.job, pending]
    exact List.mem_singleton_self job

theorem Action.mem_jobs {sys : Sys env} {action : Action} {job : Job env}
    (h : job ∈ (action.job sys).toList) : action.job sys = some job ∧ job ∈ sys.jobs := by
  have hjob : action.job sys = some job := Option.mem_toList.mp h
  refine ⟨hjob, ?_⟩
  cases action with
  | request request draws => cases hjob
  | resume index draws => exact List.mem_of_getElem? hjob

/-- A step to a state that only confirmations lead to is a confirmation. -/
theorem StepTo.confirms {sys sys' : Sys env} {action : Action} (hlaw : PublicationLaw sys)
    (h : StepTo env sys action sys') {p : Str} {s : ProposalState}
    (hs : s ≠ .detected ∧ s ≠ .approved ∧ s ≠ .authorized)
    (hclose : (CardType.structuredApproval, s) ∉ stateOutcomes)
    (hbefore : sys.db.proposalState p ≠ some s) (hafter : sys'.db.proposalState p = some s) :
    ∃ request row severity, action.job sys = some (.confirm request) ∧
      Confirmable env request sys.db row (some s) severity ∧ request.proposalId = p := by
  have hmoved : ∀ {q : Str} {t : ProposalState}, Moved sys.db sys'.db q t → q = p ∧ t = s := by
    intro q t hmoved
    rw [hmoved p] at hafter
    split at hafter
    · rename_i hq
      exact ⟨hq.symm, Option.some.inj hafter⟩
    · exact absurd hafter hbefore
  cases h.stateStep_job with
  | same states => exact absurd ((states p).symm.trans hafter) hbefore
  | created q fresh states => exact absurd (hmoved states).2.symm hs.1
  | confirmed request now row t s' severity pending confirmable current states =>
    obtain ⟨hp, rfl⟩ := hmoved states
    exact ⟨request, row, severity, (Action.mem_jobs pending).1, confirmable, hp⟩
  | advanced request now pending advanceable result states =>
    obtain ⟨-, htarget⟩ := hmoved states
    rcases (hlaw.jobs _ (Action.mem_jobs pending).2).2 with h | h
    · exact absurd (htarget.symm.trans h) hs.2.1
    · exact absurd (htarget.symm.trans h) hs.2.2
  | closed job closure more request now cardHash s' pending isClosure keeps closing planned outcome
      states =>
    obtain ⟨-, rfl⟩ := hmoved states
    exact absurd outcome hclose

end Moves
end Concordia.Gateway
