import Concordia.Gateway.Grants

/-! Every step keeps the laws of the runs in which agents prepare and confirm. -/
namespace Concordia.Gateway
open Concordia.Python Concordia.Lib.Transactions Concordia.Lib.Transition
open Concordia.Js hiding Value

variable {env : Env} {closing : Prop}

section Keep

/-- What a step has to show: the tables grow under the laws, and so do the jobs behind it. -/
structure Keeps (env : Env) (closing : Prop) (db db' : Db) (next : List (Job env)) : Prop where
  grows : ∃ cards authorizations, Grows db db' cards authorizations
  grants : GrantLaws env db'
  jobs : ∀ job ∈ next, JobLaw closing db' job

variable {db db' : Db} {next : List (Job env)}

theorem Keeps.same (h : GrantLaws env db) (hcards : db'.cards = db.cards)
    (hauths : db'.authorizations = db.authorizations) (hjobs : ∀ job ∈ next, JobLaw closing db' job) :
    Keeps env closing db db' next := by
  have hgrow := Grows.same hcards hauths
  exact ⟨⟨_, _, hgrow⟩, h.kept hgrow, hjobs⟩

theorem Keeps.ofRooms (h : GrantLaws env db) (hrooms : OnlyRooms db db')
    (hjobs : ∀ job ∈ next, JobLaw closing db' job) : Keeps env closing db db' next :=
  .same h hrooms.cards hrooms.authorizations hjobs

theorem Keeps.published (h : GrantLaws env db) (hits : CardRow → Bool) {messageId : Str} {now : Time}
    (hcards : db'.cards = (publishCards hits messageId now db).2.cards)
    (hauths : db'.authorizations = db.authorizations) : Keeps env closing db db' [] := by
  have hgrow := Grows.published hcards hauths
  exact ⟨⟨_, _, hgrow⟩, h.kept hgrow, by simp⟩

/-- The authorizations move on, and cards may be published. -/
theorem Keeps.moved (h : GrantLaws env db) {f : CardRow → CardRow}
    {g : AuthorizationRow → AuthorizationRow} (hf : ∀ c : CardRow, c.SameSeal (f c))
    (hg : ∀ a, Forward a (g a)) (hcards : db'.cards = db.cards.map f)
    (hauths : db'.authorizations = db.authorizations.map g) : Keeps env closing db db' [] := by
  have hgrow : Grows db db' [] [] :=
    ⟨⟨f, hf, by rw [hcards, List.append_nil]⟩, ⟨g, hg, by rw [hauths, List.append_nil]⟩⟩
  exact ⟨⟨_, _, hgrow⟩, h.kept hgrow, by simp⟩

/-- A card that the gateway seals for a human decision. -/
theorem preparedBy_approval {c : CardRow} (htype : c.cardType = CardType.structuredApproval.column)
    (hrole : c.preparedByRole = some .gateway) : PreparedBy c :=
  ⟨.structuredApproval, .gateway, htype, hrole, .inr ⟨rfl, .inl rfl⟩⟩

theorem Keeps.sealed (h : GrantLaws env db) {card : Card env.floats} {proposalId : Str}
    {key : Option Str} {role : Role} {requestFp : Option Str} {result : Sealed env.floats}
    (hseal : SealStep env card proposalId key (some role) requestFp db result db')
    (hrole : role ≠ .gateway ∧ roleMaySubmit role card.cardType = true ∨
      role = .gateway ∧ card.cardType = .structuredApproval) : Keeps env closing db db' [] := by
  obtain ⟨cards, hcards, hrows, -⟩ := hseal.grown
  have hgrow : Grows db db' cards [] :=
    .appended hcards (by rw [hseal.ledger.2.1, List.append_nil])
  refine ⟨⟨_, _, hgrow⟩, h.grow hgrow (by simp) (fun c hc htype => ?_) (fun c hc => ?_) (by simp),
    by simp⟩
  · -- no agent may submit a PolicyAuthorization
    rw [(hrows c hc).1] at htype
    have hpolicy : card.cardType = .policyAuthorization := CardType.column_injective htype
    rcases hrole with ⟨hagent, hsubmit⟩ | ⟨-, happroval⟩
    · rw [hpolicy] at hsubmit
      cases role with
      | gateway => exact absurd rfl hagent
      | _ => cases hsubmit
    · rw [hpolicy] at happroval
      cases happroval
  · rw [(hrows c hc).1]
    rcases hrole with ⟨hagent, hsubmit⟩ | ⟨rfl, happroval⟩
    · exact ⟨card.cardType, role, rfl, rfl, .inl ⟨hagent, hsubmit⟩⟩
    · exact preparedBy_approval (by rw [← happroval]; rfl) rfl

theorem Keeps.approved (h : GrantLaws env db) {card : Card env.floats} {key : Option Str}
    {result : Sealed env.floats} {behindSeal : Db} (row : AuthorizationRow)
    (hseal : SealStep env card row.proposalId key (some .gateway) none db result behindSeal)
    (htype : card.cardType = row.authorizationType.card) (hhash : row.cardHash = result.cardHash)
    (hcards : db'.cards = behindSeal.cards)
    (hauths : db'.authorizations = behindSeal.authorizations ++ [row])
    (hnamed : ∀ c ∈ db'.cards, c = nextRow env card row.proposalId key (some .gateway) none db →
      result = nextSealed env card row.proposalId db →
      c.cardType = CardType.policyAuthorization.column → Names env db' c)
    (hlisted : row.authorizationType = .humanApproval →
      ∃ approver ∈ env.humanApproverIds, row.consumedBy = some approver)
    (hjobs : Justified db' ⟨row.proposalId, row.cardHash, row.authorizationId,
      row.authorizationType.target⟩ → ∀ job ∈ next, JobLaw closing db' job) :
    Keeps env closing db db' next := by
  obtain ⟨cards, hnew, hrows, c, hc, hproposal, hcardHash, hcardType⟩ := hseal.grown
  have hgrow : Grows db db' cards [row] :=
    .appended (by rw [hcards, hnew]) (by rw [hauths, hseal.ledger.2.1])
  have hback : Backs db' row c :=
    ⟨by rw [hcards]; exact hc, hproposal, by rw [hcardHash, hhash], by rw [hcardType, htype]⟩
  have hrow : row ∈ db'.authorizations := by
    rw [hauths]
    exact List.mem_append_right _ (List.mem_singleton.mpr rfl)
  refine ⟨⟨_, _, hgrow⟩, h.grow hgrow (fun a ha => ?_) (fun c hc htype => ?_) (fun c hc => ?_)
    (fun a ha hhuman => ?_), hjobs ⟨row, hrow, c, hback, rfl⟩⟩
  · obtain rfl := List.mem_singleton.mp ha
    exact ⟨c, hback⟩
  · refine hnamed c ?_ (hrows c hc).1 (hrows c hc).2 htype
    rw [hcards, hnew]
    exact List.mem_append_right _ hc
  · rw [(hrows c hc).1]
    refine ⟨card.cardType, .gateway, rfl, rfl, .inr ⟨rfl, ?_⟩⟩
    rw [htype]
    cases row.authorizationType with
    | policy => exact .inr rfl
    | humanApproval => exact .inl rfl
  · obtain rfl := List.mem_singleton.mp ha
    exact hlisted hhuman

end Keep

section Jobs
variable {db db' : Db} {next : List (Job env)} {draws : Draws}

theorem jobs_advance {request : PublishRequest} (h : Justified db' request)
    (hjobs : ∀ job ∈ next, ∃ publication : AdvanceRequest, job = .advance publication ∧
      publication.toPublishRequest = request ∧
        GatewayMessage db' publication.roomMessageId request.cardHash) :
    ∀ job ∈ next, JobLaw closing db' job := by
  intro job hjob
  obtain ⟨publication, rfl, hpublication, -⟩ := hjobs job hjob
  rw [JobLaw, hpublication]
  exact h

theorem CloseStep.keeps (h : GrantLaws env db) {closure : Closure} {more : Db → Db}
    {request : CloseRequest} {now : Time} {cardHash : Str}
    (hmore : ∀ db, (more db).cards = db.cards ∧ (more db).authorizations = db.authorizations)
    (hstep : CloseStep env closure more request now db cardHash db') :
    Keeps env closing db db' [] := by
  cases hstep with
  | intro row card approval behindSeal planned valid isApproval decided sealing =>
    have hkeeps : Keeps env closing db behindSeal [] := .sealed h sealing (.inr ⟨rfl, isApproval.type⟩)
    obtain ⟨⟨cards, auths, hgrow⟩, hgrants, -⟩ := hkeeps
    have hcards : (more (closed request (resolveStateOf .structuredApproval approval.card.dump)
        behindSeal)).cards = behindSeal.cards := (hmore _).1
    have hauths : (more (closed request (resolveStateOf .structuredApproval approval.card.dump)
        behindSeal)).authorizations = behindSeal.authorizations := (hmore _).2
    refine ⟨⟨cards, auths, ⟨?_, ?_⟩⟩, hgrants.kept (.same hcards hauths), by simp⟩
    · rw [CardsGrow, hcards]
      exact hgrow.cards
    · rw [hauths]
      exact hgrow.authorizations

theorem policyAuthorization_id (request : PolicySeal env) (authorizationId : Str) :
    (policyAuthorization env request authorizationId).dump.get "authorization_id" =
      .str authorizationId := by
  simp only [policyAuthorization, policyAuthorizationDump, Dict.get]
  rfl

/-- A PolicyAuthorization that was just sealed names its authorization. -/
theorem names_policy {request : PolicySeal env} {authorizationId : Str} {key : Option Str}
    {result : Sealed env.floats}
    (hrow : policyAuthorizationRow env request authorizationId result.cardHash ∈ db'.authorizations)
    (hresult : result =
      nextSealed env (policyAuthorization env request authorizationId) request.proposalId db) :
    Names env db' (nextRow env (policyAuthorization env request authorizationId)
      request.proposalId key (some .gateway) none db) := by
  obtain ⟨data, hdata, hget⟩ := rowData_nextRow (policyAuthorization env request authorizationId)
    request.proposalId key (some .gateway) none db
  have hid : data.get "authorization_id" = .str authorizationId := by
    rw [hget "authorization_id" (by decide +kernel) (by decide +kernel), policyAuthorization_id]
    simp [sortKeys]
  refine ⟨data, hdata, _, hrow, rfl, ?_, rfl, ?_⟩
  · rw [strField, hid]
    rfl
  · rw [hresult]
    rfl

theorem resume_keeps {job : Job env} (h : GrantLaws env db)
    (hjob : JobLaw closing db job) (hfresh : db.authorization draws.uuid = none)
    (hpost : resumePost env draws db next db' job) : Keeps env closing db db' next := by
  cases job with
  | sealCard request =>
    obtain ⟨rfl, rfl | ⟨result, hseal⟩⟩ := hpost
    · exact .same h rfl rfl (by simp)
    · exact .sealed h hseal (.inl hjob)
  | confirm request =>
    obtain ⟨rfl, rfl | ⟨row, newState, severity, -, rfl⟩⟩ := hpost
    · exact .same h rfl rfl (by simp)
    · exact .published h (isPrepared request.toConfirmBody) rfl rfl
  | createNonce row =>
    obtain ⟨rfl, rfl | hinsert⟩ := hpost
    · exact .same h rfl rfl (by simp)
    · unfold insertNonce at hinsert
      simp only [Option.ite_none_left_eq_some, Option.some.injEq] at hinsert
      obtain ⟨-, rfl⟩ := hinsert
      exact .same h rfl rfl (by simp)
  | postChallenge request =>
    refine .ofRooms h hpost.1 fun job hjob => ?_
    obtain ⟨record, rfl⟩ := hpost.2 job hjob
    trivial
  | recordChallenge record =>
    obtain ⟨rfl, rfl⟩ := hpost
    exact .same h rfl rfl (by simp)
  | consumeNonce request =>
    rcases hpost with ⟨rfl, rfl⟩ | ⟨consumption, hstep, rfl⟩
    · exact .same h rfl rfl (by simp)
    · cases hstep with
      | intro row envelopesJson card approval behindSeal _ consumable isApproval sealing target =>
        have hbehind : behindSeal.authorization draws.uuid = none := by
          simpa only [Db.authorization, sealing.ledger.2.1] using hfresh
        refine Keeps.approved h (humanAuthorizationRow request draws.uuid envelopesJson
          row.expiry approval.cardHash) sealing isApproval.type rfl ?_ ?_ ?_ ?_ ?_
        · exact insertAuthorization_cards _ _
        · rw [consumed, insertAuthorization_fresh hbehind]
          rfl
        · intro c _ hc _ htype
          rw [hc] at htype
          have := CardType.column_injective htype
          rw [isApproval.type] at this
          cases this
        · exact fun _ => ⟨request.consumedBy, hjob, rfl⟩
        · intro hjustified job hmem
          obtain rfl := List.mem_singleton.mp hmem
          rw [JobLaw, target]
          exact hjustified
  | publishApproval request =>
    have hgrow := Grows.same hpost.1.cards hpost.1.authorizations
    exact ⟨⟨_, _, hgrow⟩, h.kept hgrow, jobs_advance (Justified.grow hgrow hjob) hpost.2⟩
  | sealPolicy request =>
    rcases hpost with ⟨rfl, rfl⟩ | ⟨publication, hstep, rfl⟩
    · exact .same h rfl rfl (by simp)
    · cases hstep with
      | intro approval behindSeal sealing =>
        have hbehind : behindSeal.authorization draws.uuid = none := by
          simpa only [Db.authorization, sealing.ledger.2.1] using hfresh
        have hauths : (policyAuthorized env request draws.uuid approval.cardHash
            behindSeal).authorizations = behindSeal.authorizations ++
              [policyAuthorizationRow env request draws.uuid approval.cardHash] := by
          rw [policyAuthorized, insertAuthorization_fresh hbehind]
        refine Keeps.approved h (policyAuthorizationRow env request draws.uuid
          approval.cardHash) sealing rfl rfl ?_ hauths ?_ ?_ ?_
        · exact insertAuthorization_cards _ _
        · rintro c - rfl hresult -
          refine names_policy ?_ hresult
          rw [hauths]
          exact List.mem_append_right _ (List.mem_singleton.mpr rfl)
        · intro htype
          cases htype
        · intro hjustified job hmem
          obtain rfl := List.mem_singleton.mp hmem
          exact hjustified
  | publishPolicy request =>
    have hgrow := Grows.same hpost.1.cards hpost.1.authorizations
    exact ⟨⟨_, _, hgrow⟩, h.kept hgrow, jobs_advance (Justified.grow hgrow hjob) hpost.2⟩
  | advance request =>
    obtain ⟨rfl, rfl | ⟨-, rfl⟩⟩ := hpost
    · exact .same h rfl rfl (by simp)
    · exact .moved h (published_sameSeal _ _ _) (advanceRow_forward request) rfl rfl
  | consumeAuthorization request =>
    obtain ⟨rfl, rfl | rfl⟩ := hpost
    · exact .same h rfl rfl (by simp)
    · exact .moved h CardRow.SameSeal.refl (useRow_forward _ _ _) (List.map_id _).symm rfl
  | revise instructions request =>
    rcases hpost with ⟨rfl, rfl⟩ | ⟨cardHash, roomId, hstep, rfl⟩
    · exact .same h rfl rfl (by simp)
    · have hkeeps : Keeps env closing db db' [] := hstep.keeps h fun _ => ⟨rfl, rfl⟩
      exact ⟨hkeeps.grows, hkeeps.grants, by simp [JobLaw]⟩
  | falseAlarm request =>
    rcases hpost with ⟨rfl, rfl⟩ | ⟨cardHash, roomId, hstep, rfl⟩
    · exact .same h rfl rfl (by simp)
    · have hkeeps : Keeps env closing db db' [] := hstep.keeps h fun db =>
        ⟨addSuppressionRule_cards _ db, (addSuppressionRule_ledger _ db).2⟩
      exact ⟨hkeeps.grows, hkeeps.grants, by simp [JobLaw]⟩
  | notify notification attempts =>
    refine .ofRooms h hpost.1 fun job hjob => ?_
    rcases hpost.2 job hjob with ⟨messageId, rfl, -⟩ | ⟨attempts, rfl⟩ <;> trivial
  | recordNotification notification messageId =>
    obtain ⟨rfl, rfl⟩ := hpost
    exact .published h (fun r =>
      isCard notification.proposalId notification.cardHash r && r.publishedAt.isNone) rfl rfl

end Jobs

section Requests
variable {db db' : Db} {next : List (Job env)} {draws : Draws}

theorem Resumes.justified (h : GrantLaws env db) {proposalId : Str} {request : PublishRequest}
    (hresumes : Resumes db proposalId request) : Justified db request := by
  obtain ⟨a, ha, rfl, htype, rfl⟩ := hresumes
  obtain ⟨c, hc⟩ := h.backed a ha
  exact ⟨a, ha, c, hc, by rw [htype]; rfl⟩

theorem ResumesPolicy.justified (h : GrantLaws env db) (hledger : LedgerLaws db)
    {proposalId planHash : Str} {request : PublishRequest}
    (hresumes : ResumesPolicy env db proposalId planHash request) : Justified db request := by
  obtain ⟨existing, data, a, hcard, hdata, ha, hid, hhash, rfl⟩ := hresumes
  have hstored := List.mem_of_find?_eq_some hcard
  have hfound := List.find?_some hcard
  simp only [Bool.and_eq_true, beq_iff_eq] at hfound
  obtain ⟨data', hdata', a', ha', htype, hid', hproposal, -⟩ := h.named existing hstored hfound.2
  obtain rfl := Option.some.inj (hdata.symm.trans hdata')
  obtain rfl : a' = a := List.inj_on_of_nodup_map hledger.ids ha' ha (hid'.trans hid.symm)
  obtain ⟨c, hc⟩ := h.backed a' ha'
  refine ⟨a', ha', c, hc, ?_⟩
  rw [hproposal, hfound.1.2, hhash, htype]
  rfl

theorem ConsumeJob.lawful (h : GrantLaws env db) {proposalId : Str} {job : Job env}
    (hjob : ConsumeJob env db proposalId job) : JobLaw closing db job := by
  rcases hjob with ⟨request, rfl, -, hlisted⟩ | ⟨request, rfl, hresumes⟩
  · exact hlisted
  · exact hresumes.justified h

theorem start_keeps {request : Request} (h : GrantLaws env db) (hledger : LedgerLaws db)
    (hlawful : (Action.request request draws).Lawful env closing)
    (hpost : startPost env draws db next db' request) : Keeps env closing db db' next := by
  have hsame : db' = db → (∀ job ∈ next, JobLaw closing db job) → Keeps env closing db db' next := by
    rintro rfl hjobs
    exact .same h rfl rfl hjobs
  cases request with
  | prepare cardType xAgentKey xIdempotencyKey body =>
    have hledger' := start_ledger hpost
    refine .same h (start_cards hpost) hledger'.2 fun job hjob => ?_
    obtain ⟨request, rfl, hkey, hsubmit, -⟩ := hpost.2 job hjob
    refine ⟨fun hrole => hlawful ?_, hsubmit⟩
    rw [hkey, hrole]
  | confirm xAgentKey body =>
    refine hsame hpost.1 fun job hjob => ?_
    obtain ⟨request, rfl, hkey, -⟩ := hpost.2 job hjob
    intro hrole
    exact hlawful (by rw [hkey, hrole])
  | createNonce xAgentKey proposalId =>
    refine hsame hpost.1 fun job hjob => ?_
    obtain ⟨plan, data, -, -, rfl⟩ := hpost.2 job hjob
    trivial
  | challenge xAgentKey proposalId nonce challengeText =>
    refine hsame hpost.1 fun job hjob => ?_
    obtain ⟨request, rfl⟩ := hpost.2 job hjob
    trivial
  | consumeNonce xAgentKey body =>
    exact hsame hpost.1 fun job hjob => (hpost.2 job hjob).lawful h
  | policyAuthorization xAgentKey body =>
    refine hsame hpost.1 fun job hjob => ?_
    rcases hpost.2 job hjob with ⟨sealing, rfl, -⟩ | ⟨publication, rfl, hresumes, -⟩
    · trivial
    · exact hresumes.justified h hledger
  | consumeAuthorization xAgentKey authorizationId proposalId =>
    refine hsame hpost.1 fun job hjob => ?_
    obtain ⟨request, rfl⟩ := hpost.2 job hjob
    trivial
  | decide approverId proposalId nonce decision =>
    cases decision with
    | approve => exact hsame hpost.1 fun job hjob => (hpost.2 job hjob).lawful h
    | revise instructions =>
      refine hsame hpost.1 fun job hjob => ?_
      obtain ⟨instructions, request, rfl⟩ := hpost.2 job hjob
      exact hlawful
    | falseAlarm =>
      refine hsame hpost.1 fun job hjob => ?_
      obtain ⟨request, rfl⟩ := hpost.2 job hjob
      exact hlawful
  | createRoom xAgentKey proposalId =>
    obtain ⟨hrooms, rfl⟩ := hpost
    exact .ofRooms h hrooms (by simp)
  | postMessage xAgentKey roomId content senderRole metadata =>
    obtain ⟨hrooms, rfl⟩ := hpost
    exact .ofRooms h hrooms (by simp)

end Requests

section Runs

/-- One lawful step keeps the laws. -/
theorem AgentLaws.step {sys sys' : Sys env} {action : Action} (h : AgentLaws closing sys)
    (hlawful : action.Lawful env closing) (hstep : StepTo env sys action sys') :
    AgentLaws closing sys' := by
  have hledger := h.ledger.step hstep.ledgerStep
  cases hstep with
  | request request draws next db' fresh post =>
    obtain ⟨⟨cards, auths, hgrow⟩, hgrants, hjobs⟩ := start_keeps h.grants h.ledger hlawful post
    refine h.of_grows hledger hgrow hgrants fun job hjob => ?_
    exact (List.mem_append.mp hjob).imp_right (hjobs job)
  | resume index draws job next db' fresh pending post =>
    have hmem := List.mem_of_getElem? pending
    obtain ⟨⟨cards, auths, hgrow⟩, hgrants, hjobs⟩ :=
      resume_keeps h.grants (h.jobs job hmem) fresh post
    refine h.of_grows hledger hgrow hgrants fun job hjob => ?_
    exact (List.mem_append.mp hjob).imp (fun hold => List.mem_of_mem_eraseIdx hold) (hjobs job)

theorem initial_agentLaws (env : Env) (closing : Prop) : AgentLaws closing (Sys.initial env) :=
  ⟨initial_laws env,
    ⟨fun _ h => absurd h List.not_mem_nil, fun _ h => absurd h List.not_mem_nil,
      fun _ h => absurd h List.not_mem_nil, fun _ h => absurd h List.not_mem_nil⟩,
    fun _ h => absurd h List.not_mem_nil⟩

/-- The laws hold in every state that a run of lawful actions reaches. -/
theorem reachable_agentLaws {log : List Action} {sys : Sys env}
    (h : Accepts (step env) (Sys.initial env) log sys)
    (hlawful : ∀ action ∈ log, action.Lawful env closing) : sys.Idle ∧ AgentLaws closing sys := by
  revert hlawful
  refine h.history (P := fun log sys => (∀ action ∈ log, action.Lawful env closing) →
    sys.Idle ∧ AgentLaws closing sys) (fun _ => ⟨rfl, initial_agentLaws env closing⟩)
    fun log v a w hv hstep hlawful => ?_
  obtain ⟨hidle, hlaws⟩ := hv fun b hb => hlawful b (List.mem_append_left _ hb)
  obtain ⟨hto, hidle'⟩ := step_cases env hidle hstep
  exact ⟨hidle', hlaws.step (hlawful a (List.mem_append_right _ (List.mem_singleton.mpr rfl))) hto⟩

end Runs
end Concordia.Gateway
