import Concordia.Gateway.Effects

/-! What one step of the gateway can do: a postcondition for every request and every job, and the
inversion of `step` that the invariants start from. -/
namespace Concordia.Gateway
open Concordia.Python Concordia.Lib.Transactions Concordia.Lib.Transactions.Program
open Concordia.Js hiding Value

variable (env : Env)

section Prepare

/-- At most a new proposal, as `_upsert_proposal` makes it. -/
inductive Upserted (db : Db) : Db → Prop
  | same : Upserted db db
  | inserted (row : ProposalRow) (fresh : db.proposal row.proposalId = none)
      (detected : row.state = .detected) (roomless : row.legacyRoomId = none) :
      Upserted db { db with proposals := db.proposals ++ [row] }

theorem authenticateAgent_ok {key : Str} {cardType : CardType} {role : Role}
    (h : authenticateAgent env key cardType = .ok role) :
    env.agentKeys.lookup key = some role ∧ roleMaySubmit role cardType = true := by
  unfold authenticateAgent at h
  split at h
  · simp at h
  · split at h
    · simp at h
    · split at h
      · simp at h
      · rename_i r hr
        split at h
        · rename_i hsubmit
          obtain rfl : r = role := by simpa using h
          exact ⟨hr, hsubmit⟩
        · simp at h

theorem withSeverityFloor_cardType {card card' : Card env.floats} {db : Db}
    (h : card.withSeverityFloor env db = some card') : card'.cardType = card.cardType := by
  simp only [Card.withSeverityFloor] at h
  split at h
  · rw [← Option.some.inj h]
  · obtain ⟨floor, -, rfl⟩ := Option.map_eq_some_iff.mp h
    rfl

theorem withPlaybookFloor_cardType (card : Card env.floats) :
    (card.withPlaybookFloor env).cardType = card.cardType := by
  unfold Card.withPlaybookFloor
  split <;> rfl

theorem withApproval_cardType (card : Card env.floats) :
    (card.withApproval env).cardType = card.cardType := by
  unfold Card.withApproval
  split <;> rfl

theorem applyRiskFloor_cardType {card card' : Card env.floats} {db : Db}
    (h : applyRiskFloor env card db = some card') : card'.cardType = card.cardType := by
  unfold applyRiskFloor at h
  split at h
  · rw [← Option.some.inj h]
  · obtain ⟨raised, hraised, rfl⟩ := Option.map_eq_some_iff.mp h
    rw [withApproval_cardType, withPlaybookFloor_cardType, withSeverityFloor_cardType env hraised]

theorem upsertProposal_settles (proposalId : Str) (severity : Option Str) (db : Db) :
    Settles (upsertProposal proposalId severity) db fun _ db' => Upserted db db' := by
  unfold Settles upsertProposal
  rw [ends_select_bind]
  cases hproposal : db.proposal proposalId with
  | some row => simp [hproposal, Upserted.same]
  | none =>
    simp only [ends_execute, hproposal, idle_data, idle_saved]
    refine ⟨fun db' hdb' => ⟨trivial, ?_⟩, fun _ => ⟨trivial, .same⟩⟩
    simp only [insertProposal, hproposal, Option.isSome_none, Bool.false_eq_true, if_false,
      Option.some.injEq] at hdb'
    subst hdb'
    exact .inserted _ hproposal rfl rfl

/-- The card that `prepare_card` hands over: validated and floored, in a state that allows it. -/
inductive Prepared (db : Db) (cardTypeName : Str) (body : Dict) (request : SealRequest env.floats) : Prop
  | intro (t : CardType) (card : Card env.floats) (known : CardType.ofColumn cardTypeName = some t)
      (validated : env.modelValidate t (body.set (js "card_type") (.str cardTypeName)) = some card)
      (proposal : request.proposalId = cardProposalId card) (named : request.proposalId ≠ [])
      (floored : applyRiskFloor env card db = some request.card)
      (ready : ∀ allowed, statePrerequisites t = some allowed →
        ∃ s ∈ allowed, db.proposalState request.proposalId = some s)

theorem Upserted.cards {db db' : Db} (h : Upserted db db') : db'.cards = db.cards := by
  cases h with
  | same => rfl
  | inserted row fresh detected => rfl

theorem applyRiskFloor_congr {db db' : Db} (h : db'.cards = db.cards) (card : Card env.floats) :
    applyRiskFloor env card db' = applyRiskFloor env card db := by
  simp only [applyRiskFloor, Card.withSeverityFloor, Db.cardsOf, h]

theorem prepareChecks_settles (cardTypeName xAgentKey : Str) (xIdempotencyKey : Option Str)
    (body : Dict) (uuid : Str) (db : Db) :
    Settles (prepareChecks env cardTypeName xAgentKey xIdempotencyKey body uuid) db fun r db' =>
      Upserted db db' ∧ ∀ request, r = .ok (.inr request) →
        env.agentKeys.lookup xAgentKey = some request.preparedByRole ∧
          roleMaySubmit request.preparedByRole request.card.cardType = true ∧
          Prepared env db cardTypeName body request := by
  unfold Settles prepareChecks
  split
  · simp [Upserted.same]
  · rename_i cardType hknown
    split
    · simp [Upserted.same]
    · rename_i role hrole
      obtain ⟨hkey, hsubmit⟩ := authenticateAgent_ok env hrole
      split
      · simp [Upserted.same]
      · rename_i card hcard
        have htype := env.validated _ _ _ hcard
        have hcontinue : ∀ idempotencyKey rawFp, cardProposalId card ≠ [] →
            (∀ allowed, statePrerequisites cardType = some allowed →
              ∃ s ∈ allowed, db.proposalState (cardProposalId card) = some s) →
            Ends (prepareChecks.continueWith env card (cardProposalId card) idempotencyKey role rawFp)
              (idle db) fun r c => c.saved = none ∧ Upserted db c.data ∧
                ∀ request, r = .ok (.inr request) →
                  env.agentKeys.lookup xAgentKey = some request.preparedByRole ∧
                    roleMaySubmit request.preparedByRole request.card.cardType = true ∧
                    Prepared env db cardTypeName body request := by
          intro idempotencyKey rawFp hnamed hready
          unfold prepareChecks.continueWith
          rw [ends_bind]
          refine Ends.mono (upsertProposal_settles ..) fun r c hc => ?_
          cases r with
          | error e => simpa using hc
          | ok u =>
            simp only [ends_select_bind]
            cases hfloor : applyRiskFloor env card c.data with
            | none => simpa using hc
            | some floored =>
              have hfloored := applyRiskFloor_cardType env hfloor
              rw [applyRiskFloor_congr env hc.2.cards] at hfloor
              simp only [ends_pure]
              refine ⟨hc.1, hc.2, fun request hrequest => ?_⟩
              obtain rfl : _ = request := by simpa using hrequest
              exact ⟨hkey, by rw [hfloored, htype]; exact hsubmit,
                .intro cardType card hknown hcard rfl hnamed hfloor hready⟩
        simp only
        split
        · simp [Upserted.same]
        · rename_i hnamed
          rw [ends_select_bind]
          split
          · split
            · split
              · simp [Upserted.same]
              · simp [Upserted.same]
            · split <;> simp [Upserted.same]
            · simp [Upserted.same]
          · rw [ends_select_bind]
            split
            · simp [Upserted.same]
            · rename_i allowed current hallowed hcurrent
              split
              · simp [Upserted.same]
              · rename_i hcontains
                refine hcontinue _ _ hnamed fun allowed' hallowed' => ⟨current, ?_, hcurrent⟩
                obtain rfl := Option.some.inj (hallowed.symm.trans hallowed')
                simpa using hcontains
            · rename_i hfree
              exact hcontinue _ _ hnamed fun allowed hallowed => by simp [hfree] at hallowed

end Prepare

section Reads
variable {db : Db}

/-- The room message of a confirmation, as the checks of the request find it. -/
def Posted (db : Db) (body : ConfirmBody) : Prop :=
  ∃ stored agentRole, publicationRefusal env body stored agentRole db = none

theorem confirmChecks_atomic (xAgentKey : Str) (body : ConfirmBody) :
    Atomic (confirmChecks env xAgentKey body) db fun r db' => db' = db ∧
      ∀ request, r = .inr request → request.toConfirmBody = body ∧
        env.agentKeys.lookup xAgentKey = some request.confirmingRole ∧ Posted env db body := by
  unfold confirmChecks
  split
  · simp
  · rename_i confirmingRole hkey
    split
    · simp
    · split
      · simp
      · rw [atomic_select_bind]
        split
        · simp
        · split
          · simp
          · split
            · split <;> simp
            · rw [atomic_select_bind]
              split
              · simp
              · rw [atomic_select_bind]
                split
                · simp
                · rename_i hposted
                  rw [atomic_select_bind]
                  split
                  · split
                    · simp
                    · simpa [hkey] using ⟨_, _, hposted⟩
                  · simpa [hkey] using ⟨_, _, hposted⟩

theorem createNonceChecks_atomic (xAgentKey proposalId nonce : Str) (now : Time) :
    Atomic (createNonceChecks env xAgentKey proposalId nonce now) db fun row db' => db' = db ∧
      ∃ plan data, db.confirmedPlan proposalId = some plan ∧ rowData env plan = some data ∧
        row = newNonce env proposalId nonce data now := by
  unfold createNonceChecks
  split
  · simp
  · rw [atomic_select_bind]
    cases hplan : db.confirmedPlan proposalId with
    | none => simp
    | some plan =>
      simp only
      split
      · simp
      · rename_i data hdata
        simp only [atomic_pure, true_and]
        exact ⟨plan, data, rfl, by simp [rowData, hdata], rfl⟩
      · simp

theorem challengeChecks_atomic (xAgentKey proposalId nonce challengeText : Str) (now : Time) :
    Atomic (challengeChecks env xAgentKey proposalId nonce challengeText now) db
      fun _ db' => db' = db := by
  unfold challengeChecks
  split
  · simp
  · rw [atomic_select_bind]
    split
    · simp
    · split
      · simp
      · split
        · simp
        · split
          · simp
          · split
            · simp
            · rw [atomic_select_bind]
              split
              · simp
              · split <;> simp

/-- What a pending approval is published with. -/
def Resumes (db : Db) (proposalId : Str) (request : PublishRequest) : Prop :=
  ∃ auth ∈ db.authorizations, auth.proposalId = proposalId ∧
    auth.authorizationType = .humanApproval ∧
    request = ⟨proposalId, auth.cardHash, auth.authorizationId, .approved⟩

theorem resumePending_atomic (proposalId : Str) (auth : AuthorizationRow) :
    Atomic (resumePending env proposalId auth) db fun consumption db' => db' = db ∧
      consumption.toPublishRequest =
        ⟨proposalId, auth.cardHash, auth.authorizationId, .approved⟩ := by
  unfold resumePending
  rw [atomic_select_bind]
  split
  · rw [atomic_select_bind]
    split
    · simp
    · rw [atomic_select_bind]
      split
      · simp
      · rw [atomic_select_bind]
        split
        · simp
        · split
          · simp
          · split
            · simp
            · split <;> simp
  · simp

theorem doConsumeNonce_atomic (request : ConsumeRequest) :
    Atomic (doConsumeNonce env request) db fun next db' => db' = db ∧
      match next with
      | .done _ => True
      | .fresh fresh => fresh = request ∧ request.consumedBy ∈ env.humanApproverIds
      | .resume consumption => Resumes db request.proposalId consumption.toPublishRequest := by
  unfold doConsumeNonce
  split
  · simp
  · split
    · simp
    · rename_i hlisted
      rw [atomic_select_bind]
      cases hauth : humanAuthorization request.proposalId request.nonce db with
      | none => simpa using hlisted
      | some auth =>
        simp only
        split
        · simp
        · split
          · rw [atomic_select_bind]
            split
            · split <;> simp
            · simp
          · refine Atomic.map (resumePending_atomic env request.proposalId auth) fun c db' hc => ?_
            refine ⟨hc.1, auth, List.mem_of_find?_eq_some hauth, ?_⟩
            have hfound := List.find?_some hauth
            simp only [Bool.and_eq_true, beq_iff_eq] at hfound
            exact ⟨hfound.1.1, hfound.2, hc.2⟩
          · simp

theorem consumeNonce_atomic (xAgentKey : Str) (request : ConsumeRequest) :
    Atomic (consumeNonce env xAgentKey request) db fun next db' => db' = db ∧
      match next with
      | .done _ => True
      | .fresh fresh => fresh = { request with approvalChannel := js "room" } ∧
          request.consumedBy ∈ env.humanApproverIds
      | .resume consumption => Resumes db request.proposalId consumption.toPublishRequest := by
  unfold consumeNonce
  split
  · simp
  · split
    · simp
    · exact doConsumeNonce_atomic env { request with approvalChannel := js "room" }

theorem loadResponsePlan_atomic (proposalId : Str) :
    Atomic (loadResponsePlan env proposalId) db fun plan db' => db' = db ∧
      ∀ info, plan = some info → ∃ row, db.confirmedPlan proposalId = some row ∧
        rowData env row = some info.planData ∧ info.planHash = storedPlanHash env info.planData ∧
        info.actionHash = storedActionHash env info.planData := by
  unfold loadResponsePlan
  rw [atomic_select_bind]
  cases hplan : db.confirmedPlan proposalId with
  | none => simp
  | some row => cases hdata : rowData env row <;> simp [hdata]

/-- What an earlier policy card is published with. -/
def ResumesPolicy (db : Db) (proposalId planHash : Str) (request : PublishRequest) : Prop :=
  ∃ existing data auth, policyCard env proposalId planHash db = some existing ∧
    rowData env existing = some data ∧ auth ∈ db.authorizations ∧
    auth.authorizationId = strField data "authorization_id" ∧
    auth.cardHash = existing.cardHash ∧
    request = ⟨proposalId, existing.cardHash, auth.authorizationId, .authorized⟩

theorem eq_of_truthy {s t : Str} (h : truthy (some s) = some t) : t = s := by
  cases s with
  | nil => simp [truthy] at h
  | cons u s => simpa [truthy] using h.symm

theorem resumePolicy_atomic {proposalId planHash : Str} {existing : CardRow}
    (hcard : policyCard env proposalId planHash db = some existing) :
    Atomic (resumePolicy env proposalId existing) db fun r db' => db' = db ∧
      ∀ publication, r = .inr publication → ResumesPolicy env db proposalId planHash publication := by
  unfold resumePolicy
  split
  · simp
  · rename_i data hdata
    split
    · simp
    · split
      · simp
      · split
        · simp
        · rename_i authorizationId hid
          rw [atomic_select_bind]
          split
          · simp
          · rename_i auth hauth
            split
            · rw [atomic_select_bind]
              split <;> simp
            · simp
            · simp only [atomic_pure, Sum.inr.injEq, forall_eq', true_and]
              have hfound := List.find?_some hauth
              simp only [Bool.and_eq_true, beq_iff_eq] at hfound
              refine ⟨existing, data, auth, hcard, hdata, List.mem_of_find?_eq_some hauth, ?_,
                hfound.2, ?_⟩
              · rw [hfound.1, eq_of_truthy hid]
              · rw [hfound.1]

/-- What the checks of `request_policy_authorization` find in the plan. -/
structure PolicyChecked (db : Db) (request : PolicyRequest) (sealing : PolicySeal env) : Prop where
  planned : db.proposalState request.proposalId = some .planned
  proposalId : sealing.proposalId = request.proposalId
  planHash : sealing.planHash = request.planHash
  plan : ∃ data, (db.confirmedPlan request.proposalId).bind (rowData env) = some data ∧
    storedPlanHash env data = request.planHash ∧ sealing.actionHash = storedActionHash env data ∧
    sealing.riskLevel = riskOf env data ∧
    envelopeDicts (envelopesOf data) = some sealing.envelopes ∧
    isTrue ((data.lookup (js "requires_human_approval")).getD (.bool true)) = false
  nonempty : sealing.envelopes ≠ []
  unbound : constitutionBoundExecutionReason env sealing.envelopes = none
  risk : isAmong ["low", "medium"] sealing.riskLevel = true

theorem policyChecks_atomic (request : PolicyRequest) (now : Time) :
    Atomic (policyChecks env request now) db fun sealing db' => db' = db ∧
      PolicyChecked env db request sealing := by
  unfold policyChecks
  rw [atomic_select_bind]
  split
  · simp
  · rename_i state hstate
    split
    · simp
    · rename_i hplanned
      rw [atomic_select_bind]
      split
      · simp
      · rename_i plan hplan
        split
        · simp
        · rename_i data hload
          split
          · simp
          · rename_i hhash
            split
            · simp
            · rename_i envelopes henvelopes
              split
              · simp
              · rename_i hnonempty
                split
                · simp
                · rename_i hbound
                  split
                  · simp
                  · rename_i hrisk
                    split
                    · simp
                    · rename_i hhuman
                      simp only [atomic_pure, true_and]
                      refine ⟨by rw [hstate, not_not.mp hplanned], rfl, rfl,
                        ⟨data, ?_, not_not.mp hhash, rfl, rfl, henvelopes, by simpa using hhuman⟩,
                        by simpa using hnonempty, by simpa using hbound, by simpa using hrisk⟩
                      rw [hplan, Option.bind_some, rowData, hload]
        · simp

theorem requestPolicy_atomic (xAgentKey : Str) (request : PolicyRequest) (now : Time) :
    Atomic (requestPolicy env xAgentKey request now) db fun next db' => db' = db ∧
      match next with
      | .done _ => True
      | .sealing sealing => PolicyChecked env db request sealing
      | .publish publication =>
        ResumesPolicy env db request.proposalId request.planHash publication ∧
          ∃ sealing, PolicyChecked env db request sealing := by
  unfold requestPolicy
  split
  · simp
  · rw [atomic_select_bind]
    cases hcard : policyCard env request.proposalId request.planHash db with
    | none =>
      exact Atomic.map (policyChecks_atomic env request now) fun sealing db' h => h
    | some existing =>
      refine Atomic.reads_bind (resumePolicy_atomic env hcard) fun r hr => ?_
      cases r with
      | inl response => simp
      | inr publication =>
        exact Atomic.map (policyChecks_atomic env request now) fun sealing db' h =>
          ⟨h.1, hr publication rfl, sealing, h.2⟩

theorem consumeAuthorizationChecks_atomic (xAgentKey authorizationId proposalId : Str)
    (now : Time) :
    Atomic (consumeAuthorizationChecks env xAgentKey authorizationId proposalId now) db
      fun request db' => db' = db ∧
        db.authorization authorizationId = some request.authorization := by
  unfold consumeAuthorizationChecks
  split
  · simp
  · rw [atomic_select_bind]
    cases hauth : db.authorization authorizationId with
    | none => simp
    | some auth =>
      simp only
      split
      · simp
      · simp
      · split
        · simp
        · split
          · simp
          · rw [atomic_select_bind]
            split
            · simp
            · split
              · simp
              · split
                · simp
                · split <;> simp
              · simp

/-- What a decision goes on with. -/
def decidePost (db : Db) (proposalId : Str) : Decision → DecisionNext → Prop
  | .approve, .consume (.done _) => True
  | .approve, .consume (.fresh fresh) => fresh.proposalId = proposalId ∧
      fresh.consumedBy ∈ env.humanApproverIds
  | .approve, .consume (.resume consumption) =>
    Resumes db proposalId consumption.toPublishRequest
  | .revise _, .revise _ request => request.proposalId = proposalId
  | .falseAlarm, .falseAlarm request => request.proposalId = proposalId
  | _, _ => False

theorem approveProposal_atomic (approverId proposalId nonce : Str) (decision : Decision) :
    Atomic (approveProposal env approverId proposalId nonce decision) db fun next db' => db' = db ∧
      decidePost env db proposalId decision next := by
  have hplan := Atomic.mono (@loadResponsePlan_atomic env db proposalId)
    (Q := fun _ db' => db' = db ∧ True) fun _ _ h => ⟨h.1, trivial⟩
  unfold approveProposal
  cases decision with
  | revise instructions =>
    simp only
    split
    · simp
    · split
      · simp
      · refine Atomic.reads_bind hplan fun info _ => ?_
        cases info <;> simp [decidePost]
  | falseAlarm =>
    refine Atomic.reads_bind hplan fun info _ => ?_
    cases info <;> simp [decidePost]
  | approve =>
    refine Atomic.reads_bind hplan fun info _ => ?_
    cases info with
    | none => simp
    | some info =>
      refine Atomic.map (doConsumeNonce_atomic env _) fun next db' h => ⟨h.1, ?_⟩
      cases next with
      | done response => trivial
      | fresh fresh =>
        obtain ⟨rfl, hlisted⟩ := h.2
        exact ⟨rfl, hlisted⟩
      | resume consumption => exact h.2

end Reads

section Post
variable (draws : Draws) (db : Db) (next : List (Job env)) (db' : Db)

/-- A consumption goes on with the transaction, or with the publication that is still missing. -/
def ConsumeJob (proposalId : Str) (job : Job env) : Prop :=
  (∃ request, job = .consumeNonce request ∧ request.proposalId = proposalId ∧
      request.consumedBy ∈ env.humanApproverIds) ∨
    ∃ request, job = .publishApproval request ∧ Resumes db proposalId request

/-- What a request leaves, and the jobs that are left of it. -/
def startPost : Request → Prop
  | .prepare cardType xAgentKey _ body => Upserted db db' ∧ ∀ job ∈ next, ∃ request,
      job = .sealCard request ∧ env.agentKeys.lookup xAgentKey = some request.preparedByRole ∧
      roleMaySubmit request.preparedByRole request.card.cardType = true ∧
      Prepared env db cardType body request
  | .confirm xAgentKey _ => db' = db ∧ ∀ job ∈ next, ∃ request, job = .confirm request ∧
      env.agentKeys.lookup xAgentKey = some request.confirmingRole ∧
      Posted env db request.toConfirmBody
  | .createNonce _ proposalId => db' = db ∧ ∀ job ∈ next, ∃ plan data,
      db.confirmedPlan proposalId = some plan ∧ rowData env plan = some data ∧
      job = .createNonce (newNonce env proposalId draws.nonce data draws.now)
  | .challenge .. => db' = db ∧ ∀ job ∈ next, ∃ request, job = .postChallenge request
  | .consumeNonce _ body => db' = db ∧ ∀ job ∈ next, ConsumeJob env db body.proposalId job
  | .policyAuthorization _ body => db' = db ∧ ∀ job ∈ next,
      (∃ sealing, job = .sealPolicy sealing ∧ PolicyChecked env db body sealing) ∨
        ∃ publication, job = .publishPolicy publication ∧
          ResumesPolicy env db body.proposalId body.planHash publication ∧
          ∃ sealing, PolicyChecked env db body sealing
  | .consumeAuthorization _ _ _ => db' = db ∧ ∀ job ∈ next, ∃ request,
      job = .consumeAuthorization request
  | .decide _ proposalId _ .approve => db' = db ∧ ∀ job ∈ next, ConsumeJob env db proposalId job
  | .decide _ _ _ (.revise _) => db' = db ∧ ∀ job ∈ next, ∃ instructions request,
      job = .revise instructions request
  | .decide _ _ _ .falseAlarm => db' = db ∧ ∀ job ∈ next, ∃ request, job = .falseAlarm request
  | .createRoom .. | .postMessage .. => OnlyRooms db db' ∧ next = []

/-- What a job leaves, and the jobs behind it. -/
def resumePost : Job env → Prop
  | .sealCard request => next = [] ∧ (db' = db ∨ ∃ result,
      SealStep env request.card request.proposalId (some request.idempotencyKey)
        (some request.preparedByRole) (some request.requestFp) db result db')
  | .confirm request => next = [] ∧ (db' = db ∨ ∃ row newState severity,
      Confirmable env request db row newState severity ∧
        db' = confirmed request newState severity draws.now db)
  | .createNonce row => next = [] ∧ (db' = db ∨ insertNonce row db = some db')
  | .postChallenge _ => OnlyRooms db db' ∧ ∀ job ∈ next, ∃ record, job = .recordChallenge record
  | .recordChallenge record => next = [] ∧ db' = challenged record db
  | .consumeNonce request => (db' = db ∧ next = []) ∨ ∃ consumption,
      ConsumeStep env request draws.uuid draws.now db consumption db' ∧
        next = [.publishApproval consumption.toPublishRequest]
  | .publishApproval request | .publishPolicy request => OnlyRooms db db' ∧ ∀ job ∈ next,
      ∃ publication, job = .advance publication ∧ publication.toPublishRequest = request ∧
        GatewayMessage db' publication.roomMessageId request.cardHash
  | .sealPolicy request => (db' = db ∧ next = []) ∨ ∃ publication,
      PolicyStep env request draws.uuid db publication db' ∧ next = [.publishPolicy publication]
  | .advance request => next = [] ∧ (db' = db ∨
      Advanceable request db ∧ db' = advanced request draws.now db)
  | .consumeAuthorization request => next = [] ∧ (db' = db ∨
      db' = (markConsumed request.authorization.authorizationId request.role draws.now db).2)
  | .revise instructions request => (db' = db ∧ next = []) ∨ ∃ cardHash roomId,
      CloseStep env (revision instructions) id request draws.now db cardHash db' ∧
        next = [.notify ⟨request.proposalId, cardHash, roomId⟩ 3]
  | .falseAlarm request => (db' = db ∧ next = []) ∨ ∃ cardHash roomId,
      CloseStep env falseAlarm (addSuppressionRule env request.proposalId) request draws.now db
        cardHash db' ∧ next = [.notify ⟨request.proposalId, cardHash, roomId⟩ 1]
  | .notify notification _ => OnlyRooms db db' ∧ ∀ job ∈ next,
      (∃ messageId, job = .recordNotification notification messageId ∧
          GatewayMessage db' messageId notification.cardHash) ∨
        ∃ attempts, job = .notify notification attempts
  | .recordNotification notification messageId => next = [] ∧
      db' = notified notification messageId draws.now db

end Post

section Step

/-- The jobs behind a result; an exception ends the request. -/
def jobsOf (r : Except PyException (List (Job env))) : List (Job env) := r.toOption.getD []

@[simp] theorem jobsOf_ok (next : List (Job env)) : jobsOf env (.ok next) = next := rfl

@[simp] theorem jobsOf_error (e : PyException) : jobsOf env (.error e) = [] := rfl

theorem consumeJobs {db : Db} {proposalId : Str} {next : ConsumeNext}
    (h : decidePost env db proposalId .approve (.consume next)) :
    ∀ job ∈ (next.jobs : List (Job env)), ConsumeJob env db proposalId job := by
  rw [decidePost.eq_def] at h
  cases next with
  | done response => simp [ConsumeNext.jobs]
  | fresh fresh => simpa [ConsumeNext.jobs, ConsumeJob] using h
  | resume consumption => simpa [ConsumeNext.jobs, ConsumeJob] using h

theorem startRequest_post (draws : Draws) (request : Request) (db : Db) :
    Settles (startRequest env draws request) db fun r db' =>
      startPost env draws db (jobsOf env r) db' request := by
  cases request with
  | prepare cardType xAgentKey xIdempotencyKey body =>
    refine Settles.bind (prepareChecks_settles env ..) (fun r db' h => ?_) fun e db' h => ?_
    · cases r with
      | inl response => simpa [startPost] using h.1
      | inr sealing => simpa [startPost] using ⟨h.1, h.2 sealing rfl⟩
    · simpa [startPost] using h.1
  | confirm xAgentKey body =>
    refine Atomic.bind (confirmChecks_atomic env ..) (fun r db' h => ?_) fun e => by simp [startPost]
    cases r with
    | inl response => simpa [startPost] using h.1
    | inr confirmation =>
      obtain ⟨hbody, hposted⟩ := h.2 confirmation rfl
      rw [← hbody] at hposted
      simpa [startPost] using ⟨h.1, hposted⟩
  | createNonce xAgentKey proposalId =>
    refine Atomic.bind (createNonceChecks_atomic env ..) (fun row db' h => ?_)
      fun e => by simp [startPost]
    obtain ⟨rfl, plan, data, hplan, hdata, rfl⟩ := h
    simpa [startPost] using ⟨plan, hplan, data, hdata, rfl⟩
  | challenge xAgentKey proposalId nonce challengeText =>
    refine Atomic.bind (challengeChecks_atomic env ..) (fun r db' h => ?_)
      fun e => by simp [startPost]
    cases r <;> simpa [startPost] using h
  | consumeNonce xAgentKey body =>
    refine Atomic.bind (consumeNonce_atomic env ..) (fun next db' h => ?_)
      fun e => by simp [startPost]
    refine (settles_pure _).mpr ⟨h.1, consumeJobs env ?_⟩
    cases next with
    | done response => trivial
    | fresh fresh =>
      obtain ⟨rfl, hlisted⟩ := h.2
      exact ⟨rfl, hlisted⟩
    | resume consumption => exact h.2
  | policyAuthorization xAgentKey body =>
    refine Atomic.bind (requestPolicy_atomic env ..) (fun next db' h => ?_)
      fun e => by simp [startPost]
    cases next with
    | done response => simpa [startPost, PolicyNext.jobs] using h.1
    | sealing sealing => simpa [startPost, PolicyNext.jobs] using h
    | publish publication => simpa [startPost, PolicyNext.jobs] using h
  | consumeAuthorization xAgentKey authorizationId proposalId =>
    refine Atomic.bind (consumeAuthorizationChecks_atomic env ..) (fun request db' h => ?_)
      fun e => by simp [startPost]
    simpa [startPost] using h.1
  | decide approverId proposalId nonce decision =>
    refine Atomic.bind (approveProposal_atomic env ..) (fun next db' h => ?_)
      fun e => by cases decision <;> simp [startPost]
    obtain ⟨rfl, h⟩ := h
    refine (settles_pure _).mpr ?_
    cases decision with
    | approve =>
      cases next with
      | consume next => exact ⟨rfl, consumeJobs env h⟩
      | _ => exact h.elim
    | revise instructions =>
      cases next with
      | revise instructions request => simp [startPost, DecisionNext.jobs]
      | _ => exact h.elim
    | falseAlarm =>
      cases next with
      | falseAlarm request => simp [startPost, DecisionNext.jobs]
      | _ => exact h.elim
  | createRoom xAgentKey proposalId =>
    refine Settles.bind (createRoom_settles env ..) (fun r db' h => ?_) fun e db' h => ?_
    · simpa [startPost] using h
    · simpa [startPost] using h
  | postMessage xAgentKey roomId content senderRole metadata =>
    refine Settles.bind (postMessage_settles env ..) (fun r db' h => ?_) fun e db' h => ?_
    · simpa [startPost] using h
    · simpa [startPost] using h

theorem resumeJob_post (draws : Draws) (job : Job env) (db : Db) :
    Settles (resumeJob env draws job) db fun r db' =>
      resumePost env draws db (jobsOf env r) db' job := by
  cases job with
  | sealCard request =>
    refine Atomic.bind (prepareSeal_atomic env ..) (fun r db' h => ?_) fun e => by simp [resumePost]
    simpa [resumePost] using Or.inr h
  | confirm request =>
    refine Atomic.bind (confirmTransaction_atomic env ..) (fun r db' h => ?_)
      fun e => by simp [resumePost]
    simpa [resumePost] using h
  | createNonce row =>
    refine Atomic.bind (createNonce_atomic row db) (fun r db' h => ?_) fun e => by simp [resumePost]
    simpa [resumePost] using Or.inr h
  | postChallenge request =>
    refine Settles.bind (postChallenge_settles ..) (fun r db' h => ?_) fun e db' h => ?_
    · simpa [resumePost] using h
    · simpa [resumePost] using h
  | recordChallenge record =>
    refine Settles.bind (recordChallenge_settles ..) (fun r db' h => ?_) fun e db' h => ?_
    · simpa [resumePost] using h
    · simpa [resumePost] using h
  | consumeNonce request =>
    refine Atomic.bind (freshConsume_atomic env ..) (fun r db' h => ?_) fun e => by simp [resumePost]
    exact (settles_pure _).mpr (.inr ⟨r, h, rfl⟩)
  | publishApproval request =>
    refine Settles.bind (publishApproval_settles env ..) (fun r db' h => ?_) fun e db' h => ?_
    · simpa [resumePost] using ⟨h.1, h.2 r rfl⟩
    · simpa [resumePost] using h.1
  | sealPolicy request =>
    refine Atomic.bind (sealPolicy_atomic env ..) (fun r db' h => ?_) fun e => by simp [resumePost]
    exact (settles_pure _).mpr (.inr ⟨r, h, rfl⟩)
  | publishPolicy request =>
    refine Settles.bind (publishPolicy_settles env ..) (fun r db' h => ?_) fun e db' h => ?_
    · simpa [resumePost] using ⟨h.1, h.2 r rfl⟩
    · simpa [resumePost] using h.1
  | advance request =>
    refine Atomic.bind (advance_atomic ..) (fun r db' h => ?_) fun e => by simp [resumePost]
    simpa [resumePost] using h
  | consumeAuthorization request =>
    refine Settles.bind (consumeAuthorization_settles env ..) (fun r db' h => ?_) fun e db' h => ?_
    · simpa [resumePost] using h
    · simpa [resumePost] using h
  | revise instructions request =>
    refine Atomic.bind (closePlan_atomic env ..) (fun r db' h => ?_) fun e => by simp [resumePost]
    cases r with
    | refused status message => exact (settles_pure _).mpr (.inl ⟨h, rfl⟩)
    | applied cardHash roomId => exact (settles_pure _).mpr (.inr ⟨cardHash, roomId, h, rfl⟩)
  | falseAlarm request =>
    refine Atomic.bind (closePlan_atomic env ..) (fun r db' h => ?_) fun e => by simp [resumePost]
    cases r with
    | refused status message => exact (settles_pure _).mpr (.inl ⟨h, rfl⟩)
    | applied cardHash roomId => exact (settles_pure _).mpr (.inr ⟨cardHash, roomId, h, rfl⟩)
  | notify notification attempts =>
    have hposted : Settles (attempt (notifyRoom env notification draws.uuid)
        fun _ => (return none : Sql (Option Str))) db fun r db' => OnlyRooms db db' ∧
          ∀ messageId, r = .ok (some messageId) →
            GatewayMessage db' messageId notification.cardHash := by
      unfold Settles
      rw [ends_attempt]
      refine Ends.mono (notifyRoom_settles env ..) fun r c hc => ?_
      cases r with
      | error e => simpa using ⟨hc.1, hc.2.1⟩
      | ok posted => exact hc
    refine Settles.bind hposted (fun posted db' h => ?_) fun e db' h => by simpa [resumePost] using h.1
    refine (settles_pure _).mpr ⟨h.1, ?_⟩
    cases posted with
    | some messageId => simpa [notifyJobs] using h.2 messageId rfl
    | none =>
      rw [jobsOf_ok, notifyJobs]
      split <;> simp
  | recordNotification notification messageId =>
    refine Settles.bind (recordNotification_settles ..) (fun r db' h => ?_) fun e db' h => ?_
    · simpa [resumePost] using h
    · simpa [resumePost] using h

/-- A state between two steps: no transaction is open. -/
def Sys.Idle {env : Env} (sys : Sys env) : Prop := sys.connection.saved = none

/-- What a step can do to an idle system. -/
inductive StepTo (sys : Sys env) : Action → Sys env → Prop
  | request (request : Request) (draws : Draws) (next : List (Job env)) (db' : Db)
      (fresh : sys.db.authorization draws.uuid = none)
      (post : startPost env draws sys.db next db' request) :
      StepTo sys (.request request draws) ⟨idle db', sys.jobs ++ next⟩
  | resume (index : Nat) (draws : Draws) (job : Job env) (next : List (Job env)) (db' : Db)
      (fresh : sys.db.authorization draws.uuid = none)
      (pending : sys.jobs[index]? = some job)
      (post : resumePost env draws sys.db next db' job) :
      StepTo sys (.resume index draws) ⟨idle db', sys.jobs.eraseIdx index ++ next⟩

theorem settle_eq {sys : Sys env} (jobs : List (Job env)) {p : Sql (List (Job env))}
    {Q : Except PyException (List (Job env)) → Db → Prop} (hidle : sys.Idle)
    (h : Settles p sys.db Q) : ∃ r db', Q r db' ∧
      sys.settle jobs p = ⟨idle db', jobs ++ jobsOf env r⟩ := by
  obtain ⟨⟨data, saved⟩, pending⟩ := sys
  obtain rfl : saved = none := hidle
  simp only [Settles, Ends, Sys.db] at h
  unfold Sys.settle
  simp only [idle] at h ⊢
  generalize p ⟨data, none⟩ = x at h
  obtain ⟨r, ⟨data', saved'⟩⟩ := x
  obtain ⟨rfl, hr⟩ : saved' = none ∧ Q r data' := h
  refine ⟨r, data', hr, ?_⟩
  cases r <;> simp

/-- The inversion of `step`. -/
theorem step_cases {sys sys' : Sys env} {action : Action} (hidle : sys.Idle)
    (h : step env sys action = some sys') : StepTo env sys action sys' ∧ sys'.Idle := by
  unfold step at h
  split at h
  · simp at h
  · rename_i hfresh
    simp only [Bool.not_eq_true, Option.isSome_eq_false_iff, Option.isNone_iff_eq_none] at hfresh
    cases action with
    | request request draws =>
      obtain ⟨r, db', hpost, heq⟩ := settle_eq env sys.jobs hidle
        (startRequest_post env draws request sys.db)
      obtain rfl := Option.some.inj h
      rw [heq]
      exact ⟨.request request draws _ db' hfresh hpost, rfl⟩
    | resume index draws =>
      obtain ⟨job, hjob, rfl⟩ := Option.map_eq_some_iff.mp h
      obtain ⟨r, db', hpost, heq⟩ := settle_eq env (sys.jobs.eraseIdx index) hidle
        (resumeJob_post env draws job sys.db)
      rw [heq]
      exact ⟨.resume index draws job _ db' hfresh hjob hpost, rfl⟩

end Step
end Concordia.Gateway
