import Concordia.Gateway.Execution

/-! The risk floor of the plans: what preparing a plan makes of its risk, and which assessment
that takes into account. -/
namespace Concordia.Gateway
open Concordia.Python Concordia.Lib.Transactions Concordia.Lib.Transition
open Concordia.Js hiding Value

variable {env : Env}

section Fields

theorem strField_sorted {data dump : Dict} {name : String}
    (h : data.get name = sortKeys (dump.get name)) : strField data name = strField dump name := by
  unfold strField
  rw [h]
  cases dump.get name <;> simp [sortKeys]

theorem sortKeys_bool (b : Bool) : sortKeys (.bool b) = .bool b := by
  simp [sortKeys]

theorem dictsOf_sorted (v : Value) : dictsOf (sortKeys v) = (dictsOf v).map sortedItems := by
  cases v with
  | list elements =>
    rw [sortKeys, sortElements_eq, dictsOf, dictsOf, List.filterMap_map, List.map_filterMap]
    congr 1
    funext v
    cases v with
    | dict items => rw [Function.comp_apply, sortKeys_dict]; rfl
    | _ => simp [sortKeys]
  | dict items => rw [sortKeys_dict]; rfl
  | _ => simp [sortKeys, dictsOf]

theorem actionOf_sorted {d : Dict} (h : (d.map Prod.fst).Nodup) :
    actionOf env (sortedItems d) = actionOf env d := by
  unfold actionOf Dict.get
  rw [lookup_sortedItems h]
  cases d.lookup (js "action_id") with
  | none => rfl
  | some v => cases v <;> simp [sortKeys]

theorem any_actions {envelopes envelopes' : List Dict} (q : Str → Bool)
    (h : envelopes'.map (actionOf env) = envelopes.map (actionOf env)) :
    (envelopes'.any fun e => q (actionOf env e)) = envelopes.any fun e => q (actionOf env e) := by
  have hmap : ∀ l : List Dict, (l.any fun e => q (actionOf env e)) = (l.map (actionOf env)).any q := by
    intro l
    rw [List.any_map]
    rfl
  rw [hmap, hmap, h]

theorem constitutionBound_congr {envelopes envelopes' : List Dict}
    (h : envelopes'.map (actionOf env) = envelopes.map (actionOf env)) :
    constitutionBoundExecutionReason env envelopes' =
      constitutionBoundExecutionReason env envelopes := by
  have hany : envelopes'.any (isConstitutionBoundExecutionAction env) =
      envelopes.any (isConstitutionBoundExecutionAction env) :=
    any_actions (fun action =>
      (js "execute_casper_").isPrefixOf action || isAmong daoMutatingActions action) h
  unfold constitutionBoundExecutionReason containsConstitutionBoundExecution
  rw [hany]

/-- The approval rule reads the actions of the envelopes only. -/
theorem requiresHumanApproval_congr {envelopes envelopes' : List Dict} (risk : Str)
    (h : envelopes'.map (actionOf env) = envelopes.map (actionOf env)) :
    requiresHumanApproval env risk envelopes' = requiresHumanApproval env risk envelopes := by
  rw [requiresHumanApproval, requiresHumanApproval, constitutionBound_congr h,
    any_actions (isAmong mutatingActions) h]

theorem mem_dictsOf {v : Value} {d : Dict} (h : d ∈ dictsOf v) {floats : FloatFormat}
    (hv : WellFormed floats v) : (d.map Prod.fst).Nodup := by
  cases v with
  | list elements =>
    rw [WellFormed, wellFormedElements_iff] at hv
    obtain ⟨w, hw, hd⟩ := List.mem_filterMap.mp h
    cases w with
    | dict items =>
      obtain rfl : items = d := by simpa using hd
      exact (hv _ hw).1
    | _ => simp at hd
  | _ => simp [dictsOf] at h

theorem actions_sorted {v : Value} (hv : WellFormed env.floats v) :
    (dictsOf (sortKeys v)).map (actionOf env) = (dictsOf v).map (actionOf env) := by
  rw [dictsOf_sorted, List.map_map]
  exact List.map_congr_left fun d hd => actionOf_sorted (mem_dictsOf hd hv)

theorem requiresHumanApproval_sorted {v : Value} (hv : WellFormed env.floats v) (risk : Str) :
    requiresHumanApproval env risk (dictsOf (sortKeys v)) =
      requiresHumanApproval env risk (dictsOf v) :=
  requiresHumanApproval_congr risk (actions_sorted hv)

end Fields

section Floor

/-- The rank that the severity of an assessment demands. -/
def floorRank (env : Env) (assessment : Option CardRow) : Nat :=
  ((assessment.bind (severityFloor env)).map riskRank).getD 0

/-- The latest assessment that was sealed, published or not. -/
def Db.latestSealed (db : Db) (t : CardType) (proposalId : Str) : Option CardRow :=
  lastBySequence ((db.cardsOf proposalId).filter fun r => r.cardType == t.column)

/-- The rank that the runbook demands. -/
def playbookRank (env : Env) (plan : Dict) : Nat :=
  if isAmong highRiskPlaybooks (env.strip (strField plan "runbook")) then 2 else 0

/-- The rank that a plan asks for itself. -/
def askedRank (env : Env) (plan : Dict) : Nat :=
  match strField plan "risk_level" with
  | [] => riskRank (js "low")
  | risk => riskRank (env.stripLower risk)

def rankOf (plan : Dict) : Nat := riskRank (strField plan "risk_level")

/-- The plan is as risky as its runbook demands, and says whether a human has to approve it. -/
structure PlanSound (env : Env) (plan : Dict) : Prop where
  playbook : playbookRank env plan ≤ rankOf plan
  approval : plan.get "requires_human_approval" = .bool (requiresHumanApproval env
    (strField plan "risk_level") (dictsOf (plan.get "envelopes")))

theorem PlanSound.sorted {card : Card env.floats} {data : Dict}
    (h : PlanSound env card.dump)
    (hget : ∀ name, js name ≠ js "sequence_number" → js name ≠ js "previous_card_hash" →
      data.get name = sortKeys (card.dump.get name)) : PlanSound env data := by
  have hrisk := strField_sorted (hget "risk_level" (by decide +kernel) (by decide +kernel))
  have hrunbook := strField_sorted (hget "runbook" (by decide +kernel) (by decide +kernel))
  refine ⟨?_, ?_⟩
  · rw [playbookRank, rankOf, hrisk, hrunbook]
    exact h.playbook
  · rw [hget _ (by decide +kernel) (by decide +kernel),
      hget _ (by decide +kernel) (by decide +kernel), hrisk, h.approval, sortKeys_bool,
      requiresHumanApproval_sorted]
    unfold Dict.get
    cases hlookup : card.dump.lookup (js "envelopes") with
    | none => simp [WellFormed]
    | some v => exact wellFormed_lookup card.wellFormed hlookup

theorem withRisk_get {card : Card env.floats} {risk : Str} {name : String}
    (h : js name ≠ js "risk_level") : (card.withRisk risk).dump.get name = card.dump.get name :=
  get_set_other h

theorem withRisk_rank (card : Card env.floats) (risk : Str) :
    strField (card.withRisk risk).dump "risk_level" = risk := by
  unfold strField Card.withRisk Card.assign
  rw [get_set_self]

theorem strField_congr {d e : Dict} {name : String} (h : d.get name = e.get name) :
    strField d name = strField e name := by
  rw [strField, strField, h]

theorem withSeverityFloor_rank {card card' : Card env.floats} {db : Db}
    (h : card.withSeverityFloor env db = some card') :
    (∀ name, js name ≠ js "risk_level" → card'.dump.get name = card.dump.get name) ∧
      ∀ assessment, db.latestSealed .assessment (strField card.dump "proposal_id") = some assessment →
        max (floorRank env (some assessment)) (askedRank env card.dump) ≤ rankOf card'.dump := by
  simp only [Card.withSeverityFloor] at h
  rw [← Db.latestSealed] at h
  split at h
  · rename_i hnone
    obtain rfl := Option.some.inj h
    exact ⟨fun _ _ => rfl, fun assessment hsome => by simp [hnone] at hsome⟩
  · rename_i row hrow
    obtain ⟨floor, hfloor, rfl⟩ := Option.map_eq_some_iff.mp h
    refine ⟨fun name hname => withRisk_get hname, fun assessment hsome => ?_⟩
    obtain rfl := Option.some.inj (hrow.symm.trans hsome)
    have hfloorRank : floorRank env (some row) = riskRank floor := by
      simp [floorRank, hfloor]
    rw [rankOf, withRisk_rank, hfloorRank, askedRank]
    cases strField card.dump "risk_level" with
    | nil =>
      simp only
      split
      · omega
      · omega
    | cons u risk =>
      simp only
      split
      · omega
      · omega

theorem riskRank_high : riskRank (js "high") = 2 := by decide +kernel

theorem withPlaybookFloor_rank (card : Card env.floats) :
    (∀ name, js name ≠ js "risk_level" →
        (card.withPlaybookFloor env).dump.get name = card.dump.get name) ∧
      rankOf card.dump ≤ rankOf (card.withPlaybookFloor env).dump ∧
      playbookRank env card.dump ≤ rankOf (card.withPlaybookFloor env).dump := by
  unfold Card.withPlaybookFloor
  split
  · rename_i hfloor
    obtain ⟨-, hlow⟩ := Bool.and_eq_true_iff.mp hfloor
    refine ⟨fun name hname => withRisk_get hname, ?_, ?_⟩
    · rw [rankOf, rankOf, withRisk_rank, riskRank_high]
      exact (of_decide_eq_true hlow).le
    · rw [rankOf, withRisk_rank, riskRank_high, playbookRank]
      split <;> omega
  · rename_i hfloor
    refine ⟨fun _ _ => rfl, le_rfl, ?_⟩
    rw [playbookRank]
    split
    · rename_i hplaybook
      rw [hplaybook, Bool.true_and, decide_eq_true_eq, not_lt] at hfloor
      exact hfloor
    · exact Nat.zero_le _

theorem withApproval_get {card : Card env.floats} (name : String)
    (h : js name ≠ js "requires_human_approval") :
    (card.withApproval env).dump.get name = card.dump.get name := by
  unfold Card.withApproval
  split
  · exact get_set_other h
  · rfl

theorem withApproval_approval {card : Card env.floats} (ht : card.cardType = .responsePlan) :
    (card.withApproval env).dump.get "requires_human_approval" =
      .bool (requiresHumanApproval env (strField card.dump "risk_level")
        (dictsOf (card.dump.get "envelopes"))) := by
  unfold Card.withApproval
  rw [if_pos (by rw [ht]; rfl)]
  exact get_set_self _ _ _

/-- What `_apply_risk_floor` makes of a plan. -/
theorem applyRiskFloor_plan {card card' : Card env.floats} {db : Db}
    (h : applyRiskFloor env card db = some card') (ht : card.cardType = .responsePlan)
    (hp : strField card.dump "proposal_id" ≠ []) :
    PlanSound env card'.dump ∧
      strField card'.dump "proposal_id" = strField card.dump "proposal_id" ∧
      ∀ assessment, db.latestSealed .assessment (strField card.dump "proposal_id") = some assessment →
        max (floorRank env (some assessment)) (max (askedRank env card.dump)
          (playbookRank env card.dump)) ≤ rankOf card'.dump := by
  unfold applyRiskFloor at h
  rw [if_neg (by simpa [ht] using hp)] at h
  obtain ⟨raised, hraised, rfl⟩ := Option.map_eq_some_iff.mp h
  obtain ⟨hfields, hseverity⟩ := withSeverityFloor_rank hraised
  obtain ⟨hfields', hkept, hplaybook⟩ := withPlaybookFloor_rank raised
  have htype : (raised.withPlaybookFloor env).cardType = .responsePlan := by
    rw [withPlaybookFloor_cardType, withSeverityFloor_cardType env hraised, ht]
  have hrisk : rankOf ((raised.withPlaybookFloor env).withApproval env).dump =
      rankOf (raised.withPlaybookFloor env).dump := by
    rw [rankOf, rankOf, strField_congr (withApproval_get _ (by decide +kernel))]
  have hsame : ∀ name, js name ≠ js "risk_level" → js name ≠ js "requires_human_approval" →
      ((raised.withPlaybookFloor env).withApproval env).dump.get name = card.dump.get name :=
    fun name hname hname' => by rw [withApproval_get name hname', hfields' name hname, hfields name hname]
  have hrunbook : playbookRank env ((raised.withPlaybookFloor env).withApproval env).dump =
      playbookRank env card.dump := by
    rw [playbookRank, playbookRank,
      strField_congr (hsame "runbook" (by decide +kernel) (by decide +kernel))]
  have hraisedRunbook : playbookRank env raised.dump = playbookRank env card.dump := by
    rw [playbookRank, playbookRank, strField_congr (hfields "runbook" (by decide +kernel))]
  refine ⟨⟨?_, ?_⟩, strField_congr (hsame _ (by decide +kernel) (by decide +kernel)), ?_⟩
  · rw [hrisk, hrunbook, ← hraisedRunbook]
    exact hplaybook
  · rw [withApproval_approval htype,
      strField_congr (withApproval_get "risk_level" (by decide +kernel)),
      withApproval_get "envelopes" (by decide +kernel)]
  · intro assessment hassessment
    have := hseverity assessment hassessment
    rw [hrisk, ← hraisedRunbook]
    omega

end Floor

section Sealed

/-- The proposal that the text of a card is about, as `cardProposalId` reads it. -/
def aboutProposal (cardType : Str) (data : Dict) : Str :=
  if cardType = CardType.proposalCard.column then strField data "signal_id"
  else strField data "proposal_id"

/-- The text of a card names its type, and its proposal. -/
def NamesProposal (env : Env) (c : CardRow) : Prop :=
  ∃ data, rowData env c = some data ∧ data.get "card_type" = .str c.cardType ∧
    aboutProposal c.cardType data = c.proposalId

theorem nextRow_names {card : Card env.floats} {proposalId : Str} {key : Option Str}
    {role : Option Role} {requestFp : Option Str} {db : Db} (h : cardProposalId card = proposalId) :
    NamesProposal env (nextRow env card proposalId key role requestFp db) := by
  obtain ⟨data, hdata, hget⟩ := rowData_nextRow card proposalId key role requestFp db
  refine ⟨data, hdata, ?_, ?_⟩
  · rw [hget _ (by decide +kernel) (by decide +kernel), card.typed]
    simp [sortKeys, nextRow]
  · have hsignal := strField_sorted (hget "signal_id" (by decide +kernel) (by decide +kernel))
    have hproposal := strField_sorted (hget "proposal_id" (by decide +kernel) (by decide +kernel))
    change aboutProposal card.cardType.column data = proposalId
    rw [aboutProposal, hsignal, hproposal, ← h, cardProposalId]
    by_cases htype : card.cardType = .proposalCard
    · rw [htype]
      rfl
    · have hcolumn : card.cardType.column ≠ CardType.proposalCard.column := fun hcolumn =>
        htype (CardType.column_injective hcolumn)
      rw [if_neg hcolumn, if_neg (by simpa using htype)]

/-- Where a card of a step comes from: it was there before, an agent prepared it, or the gateway
sealed it as an approval, or as the policy of this step. -/
def ComesFrom (sys : Sys env) (action : Action) (c : CardRow) : Prop :=
  (∃ d ∈ sys.db.cards, d.SameSeal c) ∨
    (∃ request, action.job sys = some (.sealCard request) ∧
      c = nextRow env request.card request.proposalId (some request.idempotencyKey)
        (some request.preparedByRole) (some request.requestFp) sys.db) ∨
    NamesProposal env c ∧ (c.cardType = CardType.structuredApproval.column ∨
      (c.cardType = CardType.policyAuthorization.column ∧ ∃ awaited,
        action.job sys = some (.sealPolicy awaited) ∧ c.proposalId = awaited.proposalId))

theorem policyAuthorization_about (request : PolicySeal env) (authorizationId : Str) :
    cardProposalId (policyAuthorization env request authorizationId) = request.proposalId := by
  rw [cardProposalId, if_neg (by simp [policyAuthorization])]
  simp only [policyAuthorization, policyAuthorizationDump, strField, Dict.get]
  rfl

theorem grow_published {db db' : Db} (hits : CardRow → Bool) (messageId : Str) (now : Time)
    (hcards : db'.cards = (publishCards hits messageId now db).2.cards) : CardsGrow db db' [] :=
  .published hcards

theorem comesFrom_kept {sys : Sys env} {action : Action} {db' : Db}
    (h : CardsGrow sys.db db' []) : ∀ c ∈ db'.cards, ComesFrom sys action c := by
  intro c hc
  rcases h.origin hc with hold | hnew
  · exact .inl hold
  · cases hnew

theorem comesFrom_sealed {sys : Sys env} {action : Action} {db' db'' : Db} {card : Card env.floats}
    {proposalId : Str} {key : Option Str} {role : Option Role} {requestFp : Option Str}
    {result : Sealed env.floats}
    (h : SealStep env card proposalId key role requestFp sys.db result db')
    (habout : cardProposalId card = proposalId) (htype : card.cardType = .structuredApproval ∨ card.cardType = .policyAuthorization ∧
      ∃ awaited, action.job sys = some (.sealPolicy awaited) ∧ proposalId = awaited.proposalId)
    (hcards : db''.cards = db'.cards) : ∀ c ∈ db''.cards, ComesFrom sys action c := by
  obtain ⟨cards, hgrown, hnew, -⟩ := h.grown
  intro c hc
  rw [hcards, hgrown] at hc
  rcases List.mem_append.mp hc with hold | hc
  · exact .inl ⟨c, hold, .refl c⟩
  · rw [(hnew c hc).1]
    exact .inr (.inr ⟨nextRow_names habout,
      htype.imp (congrArg CardType.column) (And.imp_left (congrArg CardType.column))⟩)

theorem StepTo.comesFrom {sys sys' : Sys env} {action : Action} (h : StepTo env sys action sys') :
    ∀ c ∈ sys'.db.cards, ComesFrom sys action c := by
  cases h with
  | request request draws next db' fresh post => exact comesFrom_kept (.same (start_cards post))
  | resume index draws job next db' fresh pending post =>
    have hsame : db' = sys.db → ∀ c ∈ db'.cards, ComesFrom sys (.resume index draws) c := by
      rintro rfl
      exact comesFrom_kept (.same rfl)
    cases job with
    | sealCard request =>
      rcases post.2 with hdb | ⟨result, hseal⟩
      · exact hsame hdb
      · obtain ⟨cards, hgrown, hnew, -⟩ := hseal.grown
        intro c hc
        rcases List.mem_append.mp (hgrown ▸ hc) with hold | hc
        · exact .inl ⟨c, hold, .refl c⟩
        · exact .inr (.inl ⟨request, pending, (hnew c hc).1⟩)
    | confirm request =>
      rcases post.2 with hdb | ⟨row, newState, severity, -, rfl⟩
      · exact hsame hdb
      · exact comesFrom_kept (grow_published (isPrepared request.toConfirmBody) _ _ rfl)
    | createNonce row =>
      rcases post.2 with hdb | hinsert
      · exact hsame hdb
      · unfold insertNonce at hinsert
        simp only [Option.ite_none_left_eq_some, Option.some.injEq] at hinsert
        obtain ⟨-, rfl⟩ := hinsert
        exact comesFrom_kept (.same rfl)
    | consumeNonce request =>
      rcases post with ⟨hdb, -⟩ | ⟨consumption, happroval, -⟩
      · exact hsame hdb
      · cases happroval with
        | intro row envelopesJson card approval behindSeal _ consumable isApproval sealing target =>
          exact comesFrom_sealed sealing isApproval.about (.inl isApproval.type) (insertAuthorization_cards _ _)
    | sealPolicy request =>
      rcases post with ⟨hdb, -⟩ | ⟨publication, hpolicy, -⟩
      · exact hsame hdb
      · cases hpolicy with
        | intro approval behindSeal sealing =>
          exact comesFrom_sealed sealing (policyAuthorization_about request draws.uuid)
            (.inr ⟨rfl, request, pending, rfl⟩)
            (insertAuthorization_cards _ _)
    | advance request =>
      rcases post.2 with hdb | ⟨-, rfl⟩
      · exact hsame hdb
      · exact comesFrom_kept (grow_published (fun r =>
          isCard request.proposalId request.cardHash r && r.publishedAt.isNone) _ _ rfl)
    | consumeAuthorization request =>
      rcases post.2 with hdb | rfl
      · exact hsame hdb
      · exact comesFrom_kept (.same rfl)
    | revise instructions request =>
      rcases post with ⟨hdb, -⟩ | ⟨cardHash, roomId, hclose, -⟩
      · exact hsame hdb
      · cases hclose with
        | intro row card approval behindSeal planned valid isApproval decided sealing =>
          exact comesFrom_sealed sealing isApproval.about (.inl isApproval.type) rfl
    | falseAlarm request =>
      rcases post with ⟨hdb, -⟩ | ⟨cardHash, roomId, hclose, -⟩
      · exact hsame hdb
      · cases hclose with
        | intro row card approval behindSeal planned valid isApproval decided sealing =>
          exact comesFrom_sealed sealing isApproval.about (.inl isApproval.type) (addSuppressionRule_cards _ _)
    | postChallenge request => exact comesFrom_kept (.same post.1.cards)
    | recordChallenge record =>
      obtain ⟨-, rfl⟩ := post
      exact comesFrom_kept (.same rfl)
    | publishApproval request => exact comesFrom_kept (.same post.1.cards)
    | publishPolicy request => exact comesFrom_kept (.same post.1.cards)
    | notify notification attempts => exact comesFrom_kept (.same post.1.cards)
    | recordNotification notification messageId =>
      obtain ⟨-, rfl⟩ := post
      exact comesFrom_kept (grow_published (fun r => isCard notification.proposalId
        notification.cardHash r && r.publishedAt.isNone) _ _ rfl)

end Sealed

section Plans

/-- What is sealed as a plan was floored. -/
def SoundRow (env : Env) (c : CardRow) : Prop :=
  c.cardType = CardType.responsePlan.column → ∃ data, rowData env c = some data ∧ PlanSound env data

def SoundJob : Job env → Prop
  | .sealCard request => request.card.cardType = .responsePlan → PlanSound env request.card.dump
  | _ => True

structure PlanLaw (sys : Sys env) : Prop where
  rows : ∀ c ∈ sys.db.cards, SoundRow env c
  jobs : ∀ job ∈ sys.jobs, SoundJob job

theorem Prepared.floored_plan {db : Db} {cardTypeName : Str} {body : Dict}
    {request : SealRequest env.floats} (h : Prepared env db cardTypeName body request)
    (ht : request.card.cardType = .responsePlan) :
    cardTypeName = CardType.responsePlan.column ∧ ∃ card,
      env.modelValidate .responsePlan (body.set (js "card_type") (.str cardTypeName)) = some card ∧
        request.proposalId = strField card.dump "proposal_id" ∧
        strField request.card.dump "proposal_id" = request.proposalId ∧
        PlanSound env request.card.dump ∧
        (∃ s ∈ [ProposalState.reviewed, .rejected, .escalatedHuman],
          db.proposalState request.proposalId = some s) ∧
        ∀ assessment, db.latestSealed .assessment request.proposalId = some assessment →
          max (floorRank env (some assessment)) (max (askedRank env card.dump)
            (playbookRank env card.dump)) ≤ rankOf request.card.dump := by
  cases h with
  | intro t card known validated proposal named floored ready =>
    have htype : card.cardType = .responsePlan := (applyRiskFloor_cardType env floored).symm.trans ht
    obtain rfl : t = .responsePlan := (env.validated _ _ _ validated).symm.trans htype
    have hname := List.find?_some known
    have hproposal : request.proposalId = strField card.dump "proposal_id" := by
      rw [proposal, cardProposalId, if_neg (by rw [htype]; decide)]
    obtain ⟨hsound, hsame, hfloor⟩ :=
      applyRiskFloor_plan floored htype (by rw [← hproposal]; exact named)
    rw [← hproposal] at hsame hfloor
    exact ⟨(beq_iff_eq.mp hname).symm, card, validated, hproposal, hsame, hsound, ready _ rfl, hfloor⟩

/-- What is left to be sealed comes from the request that prepares it. -/
def Originates (db : Db) (request : Request) : Job env → Prop
  | .sealCard awaited => ∃ cardType key idempotencyKey body,
      request = .prepare cardType key idempotencyKey body ∧ Prepared env db cardType body awaited
  | .sealPolicy awaited => ∃ key body,
      request = .policyAuthorization key body ∧ PolicyChecked env db body awaited
  | _ => True

def Job.awaitsSeal : Job env → Bool
  | .sealCard _ | .sealPolicy _ => true
  | _ => false

theorem start_originates {draws : Draws} {db db' : Db} {next : List (Job env)} {request : Request}
    (h : startPost env draws db next db' request) : ∀ job ∈ next, Originates db request job := by
  intro job hmem
  cases request with
  | prepare cardType xAgentKey xIdempotencyKey body =>
    obtain ⟨awaited, rfl, -, -, hprepared⟩ := h.2 _ hmem
    exact ⟨cardType, xAgentKey, xIdempotencyKey, body, rfl, hprepared⟩
  | policyAuthorization xAgentKey body =>
    rcases h.2 _ hmem with ⟨awaited, rfl, hchecked⟩ | ⟨publication, rfl, -⟩
    · exact ⟨xAgentKey, body, rfl, hchecked⟩
    · trivial
  | confirm xAgentKey body =>
    obtain ⟨request, rfl, -⟩ := h.2 _ hmem
    trivial
  | createNonce xAgentKey proposalId =>
    obtain ⟨plan, data, -, -, rfl⟩ := h.2 _ hmem
    trivial
  | challenge xAgentKey proposalId nonce challengeText =>
    obtain ⟨request, rfl⟩ := h.2 _ hmem
    trivial
  | consumeNonce xAgentKey body =>
    rcases h.2 _ hmem with ⟨request, rfl, -⟩ | ⟨request, rfl, -⟩
    · trivial
    · trivial
  | consumeAuthorization xAgentKey authorizationId proposalId =>
    obtain ⟨request, rfl⟩ := h.2 _ hmem
    trivial
  | decide approverId proposalId nonce decision =>
    cases decision with
    | approve =>
      rcases h.2 _ hmem with ⟨request, rfl, -⟩ | ⟨request, rfl, -⟩
      · trivial
      · trivial
    | revise instructions =>
      obtain ⟨instructions, request, rfl⟩ := h.2 _ hmem
      trivial
    | falseAlarm =>
      obtain ⟨request, rfl⟩ := h.2 _ hmem
      trivial
  | createRoom xAgentKey proposalId =>
    rw [h.2] at hmem
    cases hmem
  | postMessage xAgentKey roomId content senderRole metadata =>
    rw [h.2] at hmem
    cases hmem

theorem resume_awaits {draws : Draws} {db db' : Db} {next : List (Job env)} {job : Job env}
    (h : resumePost env draws db next db' job) : ∀ job ∈ next, job.awaitsSeal = false := by
  intro job' hmem
  have hnone : next = [] → job'.awaitsSeal = false := fun hnext => by simp [hnext] at hmem
  have hone : ∀ {other : Job env}, next = [other] → other.awaitsSeal = false →
      job'.awaitsSeal = false := by
    intro other hnext hother
    rw [hnext] at hmem
    rw [List.mem_singleton.mp hmem]
    exact hother
  cases job with
  | consumeNonce request =>
    rcases h with ⟨-, hnext⟩ | ⟨consumption, -, hnext⟩
    · exact hnone hnext
    · exact hone hnext rfl
  | sealPolicy request =>
    rcases h with ⟨-, hnext⟩ | ⟨publication, -, hnext⟩
    · exact hnone hnext
    · exact hone hnext rfl
  | revise instructions request =>
    rcases h with ⟨-, hnext⟩ | ⟨cardHash, roomId, -, hnext⟩
    · exact hnone hnext
    · exact hone hnext rfl
  | falseAlarm request =>
    rcases h with ⟨-, hnext⟩ | ⟨cardHash, roomId, -, hnext⟩
    · exact hnone hnext
    · exact hone hnext rfl
  | postChallenge request =>
    obtain ⟨record, rfl⟩ := h.2 _ hmem
    rfl
  | publishApproval request =>
    obtain ⟨publication, rfl, -⟩ := h.2 _ hmem
    rfl
  | publishPolicy request =>
    obtain ⟨publication, rfl, -⟩ := h.2 _ hmem
    rfl
  | notify notification attempts =>
    rcases h.2 _ hmem with ⟨messageId, rfl, -⟩ | ⟨attempts, rfl⟩
    · rfl
    · rfl
  | _ => exact hnone h.1

/-- What awaits its seal was there before, or is left by the request of this step. -/
theorem StepTo.originates {sys sys' : Sys env} {action : Action} {job : Job env}
    (h : StepTo env sys action sys') (hmem : job ∈ sys'.jobs) (hawaits : job.awaitsSeal = true) :
    job ∈ sys.jobs ∨ ∃ request draws, action = .request request draws ∧
      Originates sys.db request job := by
  cases h with
  | request request draws next db' fresh post =>
    rcases List.mem_append.mp hmem with hold | hnew
    · exact .inl hold
    · exact .inr ⟨request, draws, rfl, start_originates post job hnew⟩
  | resume index draws job next db' fresh pending post =>
    rcases List.mem_append.mp hmem with hold | hnew
    · exact .inl (List.mem_of_mem_eraseIdx hold)
    · rw [resume_awaits post _ hnew] at hawaits
      cases hawaits

/-- A card is left to be sealed by the request that prepares it only. -/
theorem StepTo.sealing {sys sys' : Sys env} {action : Action} {awaited : SealRequest env.floats}
    (h : StepTo env sys action sys') (hmem : .sealCard awaited ∈ sys'.jobs) :
    .sealCard awaited ∈ sys.jobs ∨ ∃ cardType key idempotencyKey body draws,
      action = .request (.prepare cardType key idempotencyKey body) draws ∧
        Prepared env sys.db cardType body awaited := by
  rcases h.originates hmem rfl with hold | ⟨request, draws, rfl, cardType, key, idempotencyKey, body,
    rfl, hprepared⟩
  · exact .inl hold
  · exact .inr ⟨cardType, key, idempotencyKey, body, draws, rfl, hprepared⟩

theorem PlanLaw.step {sys sys' : Sys env} {action : Action} (h : PlanLaw sys)
    (hstep : StepTo env sys action sys') : PlanLaw sys' := by
  refine ⟨fun c hc htype => ?_, ?_⟩
  · rcases hstep.comesFrom c hc with ⟨d, hd, hsame⟩ | ⟨request, hjob, rfl⟩ | ⟨-, happroval⟩
    · rw [rowData, hsame.cardJson]
      exact h.rows d hd (hsame.cardType.symm.trans htype)
    · obtain ⟨data, hdata, hget⟩ := rowData_nextRow request.card request.proposalId
        (some request.idempotencyKey) (some request.preparedByRole) (some request.requestFp) sys.db
      have hplan : request.card.cardType = .responsePlan := CardType.column_injective htype
      have hmem : .sealCard request ∈ sys.jobs := (Action.mem_jobs (Option.mem_toList.mpr hjob)).2
      exact ⟨data, hdata, (h.jobs _ hmem hplan).sorted hget⟩
    · rcases happroval with h | ⟨h, -⟩
      · cases CardType.column_injective (h.symm.trans htype)
      · cases CardType.column_injective (h.symm.trans htype)
  · intro job hjob
    cases job with
    | sealCard awaited =>
      intro ht
      rcases hstep.sealing hjob with hold | ⟨cardType, key, idempotencyKey, body, draws, -, hprepared⟩
      · exact h.jobs _ hold ht
      · obtain ⟨-, card, -, -, -, hsound, -⟩ := hprepared.floored_plan ht
        exact hsound
    | _ => trivial

theorem reachable_planLaw {log : List Action} {sys : Sys env}
    (h : Accepts (step env) (Sys.initial env) log sys) : sys.Idle ∧ PlanLaw sys := by
  refine h.invariant (P := fun sys => sys.Idle ∧ PlanLaw sys)
    ⟨rfl, fun _ hc => absurd hc List.not_mem_nil, fun _ hj => absurd hj List.not_mem_nil⟩
    fun v a w hv hstep => ?_
  obtain ⟨hto, hidle⟩ := step_cases env hv.1 hstep
  exact ⟨hidle, hv.2.step hto⟩

end Plans

section Runs

/-- The states behind the verdict; no assessment is confirmed in them. -/
def ProposalState.isLate : ProposalState → Bool
  | .reviewed | .rejected | .escalatedHuman | .planned | .approved | .authorized | .executed
  | .resolved | .closedFalseAlarm => true
  | _ => false

def IsLate (db : Db) (p : Str) : Prop := ∃ s, db.proposalState p = some s ∧ s.isLate = true

theorem closing_late : ∀ s, (CardType.structuredApproval, s) ∈ stateOutcomes → s.isLate = true := by
  have hlist : ∀ e ∈ stateOutcomes, e.1 = .structuredApproval → e.2.isLate = true := by
    decide +kernel
  exact fun s hs => hlist _ hs rfl

theorem IsLate.step {sys sys' : Sys env} {action : Action} {p : Str} (h : IsLate sys.db p)
    (hlaw : PublicationLaw sys) (hstep : StepTo env sys action sys') : IsLate sys'.db p := by
  obtain ⟨s, hs, hlate⟩ := h
  have hmoved : ∀ {q : Str} {s' : ProposalState}, Moved sys.db sys'.db q s' →
      (q = p → s'.isLate = true) → IsLate sys'.db p := by
    intro q s' hmoved hgood
    have hafter := hmoved p
    split at hafter
    · rename_i hp
      exact ⟨s', hafter, hgood hp.symm⟩
    · exact ⟨s, hafter.trans hs, hlate⟩
  cases hstep.stateStep with
  | same states => exact ⟨s, (states p).trans hs, hlate⟩
  | created q fresh states =>
    refine hmoved states fun hq => ?_
    rw [← hq, fresh] at hs
    cases hs
  | confirmed request now row t s' severity pending confirmable current states =>
    refine hmoved states fun hq => ?_
    obtain ⟨type, -, houtcome, hrules⟩ := confirmable.moves
    obtain rfl : t = s := Option.some.inj (current.symm.trans (hq ▸ hs))
    obtain ⟨hallowed, hproposal⟩ := hrules t current
    exact outcome_stays rfl (by decide +kernel) houtcome hlate hallowed hproposal
  | advanced request now pending advanceable result states =>
    refine hmoved states fun _ => ?_
    rcases (hlaw.jobs _ pending).2 with h | h
    · rw [h]
      rfl
    · rw [h]
      rfl
  | closed job closure more request now cardHash s' pending isClosure keeps closing planned outcome
      states => exact hmoved states fun _ => closing_late s' outcome

/-- The latest confirmed assessment stays while its proposal is behind the verdict. -/
theorem IsLate.assessment {sys sys' : Sys env} {action : Action} {p : Str} (h : IsLate sys.db p)
    (hhoused : Housed sys.db) (hpublication : Publication sys action sys') :
    sys'.db.latestPublished .assessment p = sys.db.latestPublished .assessment p := by
  rcases hpublication.latest (t := .assessment) (p := p) (by decide) with
    hsame | ⟨request, row, newState, severity, -, hconfirm, rfl, hcolumn⟩
  · exact hsame
  · obtain ⟨s, hs, hlate⟩ := h
    obtain ⟨s', hmem, hs'⟩ := hconfirm.prerequisite hhoused hcolumn rfl
    obtain rfl := Option.some.inj (hs.symm.trans hs')
    have hnone : ∀ s ∈ [ProposalState.triaged, .challenged], s.isLate = false := by decide
    rw [hnone s hmem] at hlate
    cases hlate

/-- The condition: a plan is prepared only while the latest sealed assessment, or else the plan
itself, demands what the latest confirmed assessment demands. -/
def KeepsFloor (env : Env) (sys : Sys env) : Action → Prop
  | .request (.prepare cardType _ _ body) _ => cardType = CardType.responsePlan.column →
      ∀ plan ∈ env.modelValidate .responsePlan (body.set (js "card_type") (.str cardType)),
        floorRank env (sys.db.latestPublished .assessment (strField plan.dump "proposal_id")) ≤
          max (floorRank env (sys.db.latestSealed .assessment (strField plan.dump "proposal_id")))
            (max (askedRank env plan.dump) (playbookRank env plan.dump))
  | _ => True

/-- The sealed plan is as risky as the latest confirmed assessment and its runbook demand, and says
whether a human has to approve it. -/
def Floored (env : Env) (db : Db) (c : CardRow) : Prop :=
  ∃ plan ∈ rowData env c, PlanSound env plan ∧
    floorRank env (db.latestPublished .assessment c.proposalId) ≤ rankOf plan

/-- A plan that is still to be sealed is floored, and will stay so. -/
def FlooredJob (sys : Sys env) : Prop :=
  ∀ request, .sealCard request ∈ sys.jobs → request.card.cardType = .responsePlan →
    IsLate sys.db request.proposalId ∧
      floorRank env (sys.db.latestPublished .assessment request.proposalId) ≤
        rankOf request.card.dump

theorem lastBySequence_ne_none {rows : List CardRow} (h : rows ≠ []) :
    Db.lastBySequence rows ≠ none := by
  induction rows using List.reverseRecOn with
  | nil => exact absurd rfl h
  | append_singleton rows row _ =>
    rw [lastBySequence_concat]
    split
    · rename_i hany
      intro hnone
      rw [hnone] at hany
      cases hany
    · exact Option.some_ne_none row

theorem latestPublished_sealed {db : Db} {t : CardType} {p : Str}
    (h : db.latestPublished t p ≠ none) : db.latestSealed t p ≠ none := by
  intro hnone
  have hempty : (db.cardsOf p).filter (fun r => r.cardType == t.column) = [] := by
    by_contra hne
    exact lastBySequence_ne_none hne hnone
  refine h ?_
  rw [Db.latestPublished, List.filter_eq_nil_iff.mpr]
  · rfl
  · intro c hc hpublished
    obtain ⟨htype, -⟩ := Bool.and_eq_true_iff.mp hpublished
    exact List.filter_eq_nil_iff.mp hempty c hc htype

theorem FlooredJob.step {sys sys' : Sys env} {action : Action} (h : FlooredJob sys)
    (hkeeps : KeepsFloor env sys action) (hlaw : PublicationLaw sys) (hhoused : Housed sys.db)
    (hpublication : Publication sys action sys') (hstep : StepTo env sys action sys') :
    FlooredJob sys' := by
  intro request hjob ht
  have hbefore : IsLate sys.db request.proposalId ∧
      floorRank env (sys.db.latestPublished .assessment request.proposalId) ≤
        rankOf request.card.dump := by
    rcases hstep.sealing hjob with hold | ⟨cardType, key, idempotencyKey, body, draws, rfl, hprepared⟩
    · exact h request hold ht
    · obtain ⟨rfl, plan, hvalidated, hproposal, -, -, ⟨s, hs, hstate⟩, hfloor⟩ :=
        hprepared.floored_plan ht
      have hready : ∀ s ∈ [ProposalState.reviewed, .rejected, .escalatedHuman], s.isLate = true := by
        decide
      refine ⟨⟨s, hstate, hready s hs⟩, ?_⟩
      have hkept := hkeeps rfl plan hvalidated
      rw [← hproposal] at hkept
      cases hsealed : sys.db.latestSealed .assessment request.proposalId with
      | some assessment =>
        rw [hsealed] at hkept
        exact hkept.trans (hfloor assessment hsealed)
      | none =>
        have hnone : sys.db.latestPublished .assessment request.proposalId = none := by
          by_contra hpublished
          exact latestPublished_sealed hpublished hsealed
        rw [hnone]
        exact Nat.zero_le _
  obtain ⟨hlate, hfloor⟩ := hbefore
  exact ⟨hlate.step hlaw hstep, by rw [hlate.assessment hhoused hpublication]; exact hfloor⟩

theorem flooredJob_of_steps {log : List Action} {sys : Sys env}
    (h : Accepts (step env) (Sys.initial env) log sys)
    (hok : EveryStep (step env) (Sys.initial env) log (KeepsFloor env))
    (hcollision : NoCollision sys.db) : FlooredJob sys := by
  refine h.guarded (P := fun sys => NoCollision sys.db → FlooredJob sys) hok
    (fun _ request hjob => absurd hjob List.not_mem_nil)
    (fun l v a w hv hfloored hkeeps hstep hnext => ?_) hcollision
  have hto := (step_cases env (reachable_laws hv).1 hstep).1
  obtain ⟨cards, hgrow⟩ := hto.cardsStep.grow
  have hbefore := hnext.before hgrow
  exact (hfloored hbefore).step hkeeps (reachable_publicationLaw hv).2 (reachable_housed hv)
    (reachable_publication hv hbefore hto) hto

/-- Every plan was sealed before a step, or is floored by the assessment that is confirmed then. -/
theorem plans_floored {log : List Action} {sys sys' : Sys env} {action : Action}
    (h : Accepts (step env) (Sys.initial env) log sys)
    (hok : EveryStep (step env) (Sys.initial env) log (KeepsFloor env))
    (hcollision : NoCollision sys.db) (hstep : step env sys action = some sys') :
    ∀ c ∈ sys'.db.cards, c.cardType = CardType.responsePlan.column →
      (∃ d ∈ sys.db.cards, d.SameSeal c) ∨ Floored env sys.db c := by
  intro c hc htype
  have hto := (step_cases env (reachable_laws h).1 hstep).1
  rcases hto.comesFrom c hc with hold | ⟨request, hjob, rfl⟩ | ⟨-, happroval⟩
  · exact .inl hold
  · have hplan : request.card.cardType = .responsePlan := CardType.column_injective htype
    have hmem : .sealCard request ∈ sys.jobs := (Action.mem_jobs (Option.mem_toList.mpr hjob)).2
    obtain ⟨data, hdata, hget⟩ := rowData_nextRow request.card request.proposalId
      (some request.idempotencyKey) (some request.preparedByRole) (some request.requestFp) sys.db
    obtain ⟨-, hfloor⟩ := flooredJob_of_steps h hok hcollision request hmem hplan
    refine .inr ⟨data, hdata, ((reachable_planLaw h).2.jobs _ hmem hplan).sorted hget,
      hfloor.trans ?_⟩
    rw [rankOf, rankOf, strField_sorted (hget _ (by decide +kernel) (by decide +kernel))]
  · rcases happroval with h | ⟨h, -⟩
    · cases CardType.column_injective (h.symm.trans htype)
    · cases CardType.column_injective (h.symm.trans htype)

end Runs

section Samples

instance (sys : Sys env) (action : Action) : Decidable (KeepsFloor env sys action) := by
  unfold KeepsFloor
  cases action with
  | request request draws => cases request <;> infer_instance
  | resume index draws => infer_instance

/-- A plan that asks for less than its assessment demands, up to its seal. -/
def flooredRun : Sys sampleEnv × List Action :=
  play sampleStart (opening ++ reviewing "high" ++
    (sealing 4 .responsePlan "key-commander" (planOf "rebalance_a" "low")).take 1)

/-- Two assessments are sealed, and the graver one is confirmed; then a plan, up to its seal. -/
def loweredRun : Sys sampleEnv × List Action :=
  play sampleStart (opening ++ triaging 1 1 ++
    sealing 2 .assessment "key-diagnosis" (assessing "high") ++
    sealing 3 .assessment "key-diagnosis" (assessing "low") ++
    posting 2 2 .diagnosis ++ claiming 2 2 "key-diagnosis" ++ resuming 2 ++
    publishing 4 4 .verdict .safetyReviewer "key-safety" [("decision", .str (js "CONFIRM")),
      ("reasoning", .str (js "ok")), ("agrees_with_diagnosis", .bool true)] ++
    (sealing 5 .responsePlan "key-commander" (planOf "rebalance_a" "low")).take 1)

/-- Both runs in one evaluation; a value, as the next one waits for it. -/
def floorRunsEnd : PLift (
    (everyStep (step sampleEnv) (KeepsFloor sampleEnv) (Sys.initial sampleEnv) flooredRun.2 = true ∧
      NoCollision flooredRun.1.db ∧
      (step sampleEnv flooredRun.1 (.resume 0 (drawsAt 4))).isSome = true) ∧
    ((step sampleEnv loweredRun.1 (.resume 0 (drawsAt 5))).any fun sys' =>
    sys'.db.cards.any fun c => decide (c.cardType = CardType.responsePlan.column) &&
      (loweredRun.1.db.cards.all fun d => d.cardHash != c.cardHash) &&
      (rowData sampleEnv c).any fun plan => decide (rankOf plan <
        floorRank sampleEnv (loweredRun.1.db.latestPublished .assessment c.proposalId))) = true) where
  down := by decide +kernel

theorem plans_floored_example : ∃ sys',
    step sampleEnv flooredRun.1 (.resume 0 (drawsAt 4)) = some sys' ∧
      ∀ c ∈ sys'.db.cards, c.cardType = CardType.responsePlan.column →
        (∃ d ∈ flooredRun.1.db.cards, d.SameSeal c) ∨ Floored sampleEnv flooredRun.1.db c := by
  obtain ⟨hkeeps, hcollision, hsome⟩ := floorRunsEnd.down.1
  obtain ⟨sys', hstep⟩ := Option.isSome_iff_exists.mp hsome
  have hrun : Accepts (step sampleEnv) (Sys.initial sampleEnv) flooredRun.2 flooredRun.1 :=
    play_accepts _ .start
  exact ⟨sys', hstep, plans_floored hrun (.of_test hkeeps) hcollision hstep⟩

/-- The assessment that was never confirmed lowers the floor of the plan. -/
theorem unpublished_assessment_lowers :
    Accepts (step sampleEnv) (Sys.initial sampleEnv) loweredRun.2 loweredRun.1 ∧
    ∃ sys', step sampleEnv loweredRun.1 (.resume 0 (drawsAt 5)) = some sys' ∧
      ∃ c ∈ sys'.db.cards, c.cardType = CardType.responsePlan.column ∧
        (∀ d ∈ loweredRun.1.db.cards, ¬ d.SameSeal c) ∧ ¬ Floored sampleEnv loweredRun.1.db c := by
  refine ⟨play_accepts _ .start, ?_⟩
  obtain ⟨sys', hstep, hany⟩ := (Option.any_eq_true _ _).mp floorRunsEnd.down.2
  obtain ⟨c, hc, hlowered⟩ := List.any_eq_true.mp hany
  obtain ⟨hnew, hfloor⟩ := Bool.and_eq_true_iff.mp hlowered
  obtain ⟨htype, hfresh⟩ := Bool.and_eq_true_iff.mp hnew
  obtain ⟨plan, hplan, hrank⟩ := (Option.any_eq_true _ _).mp hfloor
  refine ⟨sys', hstep, c, hc, of_decide_eq_true htype, fun d hd hsame => ?_, ?_⟩
  · have hhash := List.all_eq_true.mp hfresh d hd
    rw [hsame.cardHash, bne_self_eq_false] at hhash
    cases hhash
  · rintro ⟨plan', hplan', -, hfloored⟩
    obtain rfl := Option.some.inj (hplan.symm.trans hplan')
    exact absurd (of_decide_eq_true hrank) (Nat.not_lt.mpr hfloored)

end Samples
end Concordia.Gateway
