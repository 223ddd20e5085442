import Concordia.Gateway.RiskFloor
import Concordia.Gateway.PlanBinding

/-! Policy authorizations and the plan in force: what the checks of a request found, and when that
still holds of the plan in force at the seal and at the advance. -/
namespace Concordia.Gateway
open Concordia.Python Concordia.Lib.Transactions Concordia.Lib.Transition
open Concordia.Js hiding Value

variable {env : Env}

section Eligibility

/-- A plan that a policy may authorize. -/
structure Eligible (env : Env) (plan : Dict) : Prop where
  risk : isAmong ["low", "medium"] (riskOf env plan) = true
  approval : plan.get "requires_human_approval" = .bool false
  unbound : constitutionBoundExecutionReason env (dictsOf (plan.get "envelopes")) = none
  harmless : ((dictsOf (plan.get "envelopes")).any fun e =>
    isAmong mutatingActions (actionOf env e)) = false
  envelopes : ∃ e rest, plan.get "envelopes" = .list (e :: rest)

/-- The two plans differ in the fields of the chain only, and in the order of their keys. -/
def SamePlan (plan plan' : Dict) : Prop :=
  ∀ name, (∀ field ∈ chainFields, js name ≠ js field) →
    sortKeys (plan'.get name) = sortKeys (plan.get name)

/-- The digest keeps the plans apart. -/
def NoPlanCollision (env : Env) (db : Db) : Prop :=
  ∀ c ∈ db.cards, ∀ c' ∈ db.cards, c.cardType = CardType.responsePlan.column →
    c'.cardType = CardType.responsePlan.column →
    ∀ plan ∈ rowData env c, ∀ plan' ∈ rowData env c',
      storedPlanHash env plan = storedPlanHash env plan' →
        dumpsSorted (.dict (normalizePlanForHash plan)) =
          dumpsSorted (.dict (normalizePlanForHash plan'))

instance (db : Db) : Decidable (NoPlanCollision env db) :=
  inferInstanceAs (Decidable (∀ c ∈ db.cards, ∀ c' ∈ db.cards, _ → _ →
    ∀ plan ∈ rowData env c, ∀ plan' ∈ rowData env c', _ → _))

theorem NoPlanCollision.before {db db' : Db} {cards : List CardRow} (hgrow : CardsGrow db db' cards)
    (h : NoPlanCollision env db') : NoPlanCollision env db := by
  intro c hc c' hc' htype htype' plan hplan plan' hplan'
  obtain ⟨d, hd, hsame⟩ := hgrow.card hc
  obtain ⟨d', hd', hsame'⟩ := hgrow.card hc'
  refine h d hd d' hd' (hsame.cardType.trans htype) (hsame'.cardType.trans htype') plan ?_ plan' ?_
  · rw [rowData, hsame.cardJson]
    exact hplan
  · rw [rowData, hsame'.cardJson]
    exact hplan'

theorem normalized_get {plan : Dict} {name : String} (h : ∀ field ∈ chainFields, js name ≠ js field) :
    (normalizePlanForHash plan).get name = plan.get name := by
  rw [normalizePlanForHash, get_set_other (h _ (by decide)), get_set_other (h _ (by decide)),
    get_set_other (h _ (by decide))]

theorem wellFormed_rowData {c : CardRow} {plan : Dict} (h : rowData env c = some plan) :
    WellFormed env.floats (.dict plan) := by
  unfold rowData at h
  split at h
  · rename_i data hloads
    rw [← Option.some.inj h]
    exact wellFormed_loads hloads
  · cases h

theorem wellFormed_normalized {plan : Dict} (h : WellFormed env.floats (.dict plan)) :
    WellFormed env.floats (.dict (normalizePlanForHash plan)) := by
  have hnone : WellFormed env.floats .none := by simp [WellFormed]
  exact wellFormed_set (wellFormed_set (wellFormed_set h hnone _) hnone _) hnone _

theorem samePlan_of_hash {db : Db} (h : NoPlanCollision env db) {c c' : CardRow} (hc : c ∈ db.cards)
    (hc' : c' ∈ db.cards) (htype : c.cardType = CardType.responsePlan.column)
    (htype' : c'.cardType = CardType.responsePlan.column) {plan plan' : Dict}
    (hplan : rowData env c = some plan) (hplan' : rowData env c' = some plan')
    (hhash : storedPlanHash env plan = storedPlanHash env plan') : SamePlan plan plan' := by
  intro name hname
  have htext := h c hc c' hc' htype htype' plan hplan plan' hplan' hhash
  have hlookup := lookup_of_dumpsSorted (wellFormed_normalized (wellFormed_rowData hplan))
    (wellFormed_normalized (wellFormed_rowData hplan')) htext (js name)
  have hget : ∀ d : Dict, sortKeys (d.get name) = ((d.lookup (js name)).map sortKeys).getD .none := by
    intro d
    unfold Dict.get
    cases d.lookup (js name) with
    | none => exact sortKeys_none
    | some v => rfl
  rw [← normalized_get hname, ← @normalized_get plan name hname, hget, hget, hlookup]

theorem strField_same {plan plan' : Dict} {name : String}
    (h : sortKeys (plan'.get name) = sortKeys (plan.get name)) :
    strField plan' name = strField plan name := by
  let sorted : Dict := [(js name, sortKeys (plan.get name))]
  have hget : sorted.get name = sortKeys (plan.get name) := by simp [sorted, Dict.get]
  calc strField plan' name
      = strField sorted name := (strField_sorted (hget.trans h.symm)).symm
    _ = strField plan name := strField_sorted hget

theorem wellFormed_get {plan : Dict} (h : WellFormed env.floats (.dict plan)) (name : String) :
    WellFormed env.floats (plan.get name) := by
  unfold Dict.get
  cases hlookup : plan.lookup (js name) with
  | none => simp [WellFormed]
  | some v => exact wellFormed_lookup h hlookup

theorem envelopesOf_get {plan : Dict} {elements : List Value}
    (h : plan.get "envelopes" = .list elements) : envelopesOf plan = .list elements := by
  unfold Dict.get at h
  unfold envelopesOf
  cases hlookup : plan.lookup (js "envelopes") with
  | none => simp [hlookup] at h
  | some v => simpa [hlookup] using h

/-- What a policy may authorize does not depend on the order of keys. -/
theorem SamePlan.eligible {plan plan' : Dict} (h : SamePlan plan plan')
    (hformed : WellFormed env.floats (.dict plan)) (hformed' : WellFormed env.floats (.dict plan'))
    (heligible : Eligible env plan) :
    Eligible env plan' ∧ storedActionHash env plan' = storedActionHash env plan := by
  have hrisk := h "risk_level" (by decide +kernel)
  have happroval := h "requires_human_approval" (by decide +kernel)
  have henvelopes := h "envelopes" (by decide +kernel)
  have hactions : (dictsOf (plan'.get "envelopes")).map (actionOf env) =
      (dictsOf (plan.get "envelopes")).map (actionOf env) := by
    rw [← actions_sorted (wellFormed_get hformed' _), henvelopes,
      actions_sorted (wellFormed_get hformed _)]
  obtain ⟨e, rest, hlist⟩ := heligible.envelopes
  obtain ⟨e', rest', hlist'⟩ : ∃ e rest, plan'.get "envelopes" = .list (e :: rest) := by
    rw [hlist, sortKeys, sortElements] at henvelopes
    cases hget : plan'.get "envelopes" with
    | list elements =>
      cases elements with
      | nil => simp [hget, sortKeys, sortElements] at henvelopes
      | cons e rest => exact ⟨e, rest, rfl⟩
    | _ => simp [hget, sortKeys] at henvelopes
  refine ⟨⟨?_, ?_, ?_, ?_, ⟨e', rest', hlist'⟩⟩, ?_⟩
  · rw [riskOf, strField_same hrisk]
    exact heligible.risk
  · rw [heligible.approval, sortKeys_bool] at happroval
    cases hget : plan'.get "requires_human_approval" with
    | bool b => simpa [hget, sortKeys] using happroval
    | _ => simp [hget, sortKeys] at happroval
  · rw [constitutionBound_congr hactions]
    exact heligible.unbound
  · rw [any_actions (isAmong mutatingActions) hactions]
    exact heligible.harmless
  · rw [storedActionHash, storedActionHash, computeActionHash, computeActionHash, hashValue, hashValue,
      dumpsSorted, dumpsSorted, envelopesOf_get hlist', envelopesOf_get hlist, ← hlist', ← hlist,
      henvelopes]

/-- The plan that a request was checked against is eligible. -/
theorem PolicyChecked.eligible {db : Db} {request : PolicyRequest} {awaited : PolicySeal env}
    (h : PolicyChecked env db request awaited) (hsound : ∀ c ∈ db.cards, SoundRow env c) :
    ∃ c ∈ db.cards, c.proposalId = awaited.proposalId ∧
      c.cardType = CardType.responsePlan.column ∧ ∃ plan ∈ rowData env c, Eligible env plan ∧
        storedPlanHash env plan = awaited.planHash ∧
        storedActionHash env plan = awaited.actionHash := by
  obtain ⟨plan, hplan, hplanHash, hactionHash, hrisk, hdicts, hhuman⟩ := h.plan
  obtain ⟨c, hc, hdata⟩ := Option.bind_eq_some_iff.mp hplan
  obtain ⟨hrows, hrow⟩ := List.mem_filter.mp (lastBySequence_mem hc)
  obtain ⟨hmem, hproposal⟩ := mem_cardsOf.mp hrows
  have htype : c.cardType = CardType.responsePlan.column :=
    beq_iff_eq.mp (Bool.and_eq_true_iff.mp hrow).1
  obtain ⟨plan', hplan', hflag⟩ := hsound c hmem htype
  obtain rfl := Option.some.inj (hdata.symm.trans hplan')
  have hlist := envelopeDicts_eq hdicts
  have henvelopes : plan.get "envelopes" = .list (awaited.envelopes.map .dict) := by
    unfold envelopesOf at hlist
    unfold Dict.get
    cases hlookup : plan.lookup (js "envelopes") with
    | none =>
      rw [hlookup] at hlist
      exact absurd (by simpa using hlist.symm) h.nonempty
    | some v => simpa [hlookup] using hlist
  have hdictsOf : dictsOf (plan.get "envelopes") = awaited.envelopes := by
    rw [henvelopes, dictsOf, List.filterMap_map]
    exact List.filterMap_some
  have hneeded : requiresHumanApproval env (strField plan "risk_level") awaited.envelopes = false := by
    have hget := hflag.approval
    rw [hdictsOf] at hget
    unfold Dict.get at hget
    cases hlookup : plan.lookup (js "requires_human_approval") with
    | none => simp [hlookup] at hget
    | some v =>
      rw [hlookup, Option.getD_some] at hget hhuman
      rw [hget] at hhuman
      exact hhuman
  refine ⟨c, hmem, hproposal.trans h.proposalId.symm, htype, plan, hdata,
    ⟨by rw [← hrisk]; exact h.risk, ?_, by rw [hdictsOf]; exact h.unbound, ?_, ?_⟩,
    hplanHash.trans h.planHash.symm, hactionHash.symm⟩
  · rw [hflag.approval, hdictsOf, hneeded]
  · rw [requiresHumanApproval, Bool.or_eq_false_iff] at hneeded
    rw [hdictsOf]
    exact hneeded.2
  · rw [henvelopes]
    cases hnil : awaited.envelopes with
    | nil => exact absurd hnil h.nonempty
    | cons e rest => exact ⟨.dict e, rest.map .dict, rfl⟩

end Eligibility

section Laws

/-- A sealed plan of the proposal, with these hashes, that a policy may authorize. -/
def Offers (env : Env) (db : Db) (p planHash actionHash : Str) : Prop :=
  ∃ c ∈ db.cards, c.proposalId = p ∧ c.cardType = CardType.responsePlan.column ∧
    ∃ plan ∈ rowData env c, Eligible env plan ∧ storedPlanHash env plan = planHash ∧
      storedActionHash env plan = actionHash

/-- Policies, and what is left to be sealed as one, are about such plans. -/
structure PolicyLaw (sys : Sys env) : Prop where
  authorizations : ∀ a ∈ sys.db.authorizations, a.authorizationType = .policy →
    Offers env sys.db a.proposalId a.planHash a.actionHash
  jobs : ∀ awaited, .sealPolicy awaited ∈ sys.jobs →
    Offers env sys.db awaited.proposalId awaited.planHash awaited.actionHash

theorem Offers.grow {db db' : Db} {cards : List CardRow} (hgrow : CardsGrow db db' cards)
    {p planHash actionHash : Str} (h : Offers env db p planHash actionHash) :
    Offers env db' p planHash actionHash := by
  obtain ⟨c, hc, hproposal, htype, plan, hplan, hoffered⟩ := h
  obtain ⟨c', hc', hsame⟩ := hgrow.card hc
  refine ⟨c', hc', hsame.proposalId.trans hproposal, hsame.cardType.trans htype, plan, ?_, hoffered⟩
  rw [rowData, hsame.cardJson]
  exact hplan

/-- Where a policy row of a step comes from. -/
def PolicyFrom (sys : Sys env) (action : Action) (a : AuthorizationRow) : Prop :=
  (∃ b ∈ sys.db.authorizations, Forward b a) ∨ a.authorizationType = .humanApproval ∨
    ∃ awaited cardHash, action.job sys = some (.sealPolicy awaited) ∧
      a = policyAuthorizationRow env awaited action.draws.uuid cardHash

theorem policyFrom_kept {sys : Sys env} {action : Action} {db' : Db}
    {g : AuthorizationRow → AuthorizationRow} (hg : ∀ a, Forward a (g a))
    (hauths : db'.authorizations = sys.db.authorizations.map g) :
    ∀ a ∈ db'.authorizations, PolicyFrom sys action a := by
  intro a ha
  rw [hauths] at ha
  obtain ⟨b, hb, rfl⟩ := List.mem_map.mp ha
  exact .inl ⟨b, hb, hg b⟩

theorem StepTo.policyFrom {sys sys' : Sys env} {action : Action} (h : StepTo env sys action sys') :
    ∀ a ∈ sys'.db.authorizations, PolicyFrom sys action a := by
  cases h with
  | request request draws next db' fresh post =>
    exact policyFrom_kept (fun _ => .same) ((start_ledger post).2.trans (List.map_id' _).symm)
  | resume index draws job next db' fresh pending post =>
    have hsame : db'.authorizations = sys.db.authorizations →
        ∀ a ∈ db'.authorizations, PolicyFrom sys (.resume index draws) a :=
      fun hauths => policyFrom_kept (fun _ => .same) (hauths.trans (List.map_id' _).symm)
    cases job with
    | sealCard request =>
      rcases post.2 with rfl | ⟨result, hseal⟩
      · exact hsame rfl
      · exact hsame hseal.ledger.2.1
    | confirm request =>
      rcases post.2 with rfl | ⟨row, newState, severity, -, rfl⟩
      · exact hsame rfl
      · exact hsame rfl
    | createNonce row =>
      rcases post.2 with rfl | hinsert
      · exact hsame rfl
      · unfold insertNonce at hinsert
        simp only [Option.ite_none_left_eq_some, Option.some.injEq] at hinsert
        obtain ⟨-, rfl⟩ := hinsert
        exact hsame rfl
    | consumeNonce request =>
      rcases post with ⟨rfl, -⟩ | ⟨consumption, hstep, -⟩
      · exact hsame rfl
      · cases hstep with
        | intro row envelopesJson card approval behindSeal _ consumable isApproval sealing target =>
          have hbehind : behindSeal.authorization draws.uuid = none := by
            simpa only [Db.authorization, sealing.ledger.2.1] using fresh
          intro a ha
          rw [Sys.db, idle_data, Gateway.consumed, insertAuthorization_fresh hbehind] at ha
          rcases List.mem_append.mp ha with hold | hnew
          · exact .inl ⟨a, sealing.ledger.2.1 ▸ hold, .same⟩
          · rw [List.mem_singleton.mp hnew]
            exact .inr (.inl rfl)
    | sealPolicy request =>
      rcases post with ⟨rfl, -⟩ | ⟨publication, hstep, -⟩
      · exact hsame rfl
      · cases hstep with
        | intro approval behindSeal sealing =>
          have hbehind : behindSeal.authorization draws.uuid = none := by
            simpa only [Db.authorization, sealing.ledger.2.1] using fresh
          intro a ha
          rw [Sys.db, idle_data, policyAuthorized, insertAuthorization_fresh hbehind] at ha
          rcases List.mem_append.mp ha with hold | hnew
          · exact .inl ⟨a, sealing.ledger.2.1 ▸ hold, .same⟩
          · exact .inr (.inr ⟨request, approval.cardHash, pending, List.mem_singleton.mp hnew⟩)
    | advance request =>
      rcases post.2 with rfl | ⟨-, rfl⟩
      · exact hsame rfl
      · exact policyFrom_kept (advanceRow_forward request) rfl
    | consumeAuthorization request =>
      rcases post.2 with rfl | rfl
      · exact hsame rfl
      · exact policyFrom_kept (useRow_forward _ _ _) rfl
    | revise instructions request =>
      rcases post with ⟨rfl, -⟩ | ⟨cardHash, roomId, hclose, -⟩
      · exact hsame rfl
      · cases hclose with
        | intro row card approval behindSeal planned valid isApproval decided sealing =>
          exact hsame sealing.ledger.2.1
    | falseAlarm request =>
      rcases post with ⟨rfl, -⟩ | ⟨cardHash, roomId, hclose, -⟩
      · exact hsame rfl
      · cases hclose with
        | intro row card approval behindSeal planned valid isApproval decided sealing =>
          exact hsame ((addSuppressionRule_ledger _ _).2.trans sealing.ledger.2.1)
    | postChallenge request => exact hsame post.1.authorizations
    | recordChallenge record =>
      obtain ⟨-, rfl⟩ := post
      exact hsame rfl
    | publishApproval request => exact hsame post.1.authorizations
    | publishPolicy request => exact hsame post.1.authorizations
    | notify notification attempts => exact hsame post.1.authorizations
    | recordNotification notification messageId =>
      obtain ⟨-, rfl⟩ := post
      exact hsame rfl

theorem PolicyLaw.step {sys sys' : Sys env} {action : Action} (h : PolicyLaw sys)
    (hsound : PlanLaw sys) (hstep : StepTo env sys action sys') : PolicyLaw sys' := by
  obtain ⟨cards, hgrow⟩ := hstep.cardsStep.grow
  refine ⟨fun a ha htype => ?_, fun awaited hjob => ?_⟩
  · rcases hstep.policyFrom a ha with ⟨b, hb, hforward⟩ | hhuman | ⟨awaited, cardHash, hjob, rfl⟩
    · obtain ⟨-, hproposal, htype', -, hplan, haction, -⟩ := hforward.same_grant
      rw [hproposal, hplan, haction]
      exact (h.authorizations b hb (htype'.symm.trans htype)).grow hgrow
    · rw [hhuman] at htype
      cases htype
    · have hmem : .sealPolicy awaited ∈ sys.jobs := (Action.mem_jobs (Option.mem_toList.mpr hjob)).2
      exact (h.jobs awaited hmem).grow hgrow
  · rcases hstep.originates hjob rfl with hold | ⟨request, draws, rfl, key, body, rfl, hchecked⟩
    · exact (h.jobs awaited hold).grow hgrow
    · exact Offers.grow hgrow (hchecked.eligible hsound.rows)

theorem reachable_policyLaw {log : List Action} {sys : Sys env}
    (h : Accepts (step env) (Sys.initial env) log sys) : PolicyLaw sys := by
  have hrun := h.invariant (P := fun sys => (sys.Idle ∧ PlanLaw sys) ∧ PolicyLaw sys)
    ⟨⟨rfl, fun _ hc => absurd hc List.not_mem_nil, fun _ hj => absurd hj List.not_mem_nil⟩,
      fun _ ha => absurd ha List.not_mem_nil, fun _ hj => absurd hj List.not_mem_nil⟩
    fun v a w hv hstep => ?_
  · exact hrun.2
  · obtain ⟨hto, hidle⟩ := step_cases env hv.1.1 hstep
    exact ⟨⟨hidle, hv.1.2.step hto⟩, hv.2.step hv.1.2 hto⟩

end Laws

section Runs

/-- The latest confirmed plan has these hashes, and a policy may authorize it. -/
def CoversPlan (env : Env) (db : Db) (p planHash actionHash : Str) : Prop :=
  ∃ plan ∈ planInForce env db p, Eligible env plan ∧ storedPlanHash env plan = planHash ∧
    storedActionHash env plan = actionHash

/-- The condition: a policy is sealed, and its proposal advanced, only while the plan in force is
still the one that its request was checked against. -/
def KeepsPolicy (env : Env) (sys : Sys env) (action : Action) : Prop :=
  match action.job sys with
  | some (.sealPolicy awaited) =>
    (planInForce env sys.db awaited.proposalId).map (storedPlanHash env) = some awaited.planHash
  | some (.advance request) => ∀ a ∈ sys.db.authorization request.authorizationId,
      a.authorizationType = .policy →
        (planInForce env sys.db a.proposalId).map (storedPlanHash env) = some a.planHash
  | _ => True

/-- What holds of a step: new policies, and the advance to AUTHORIZED, are for an eligible plan that
is the latest confirmed one. -/
structure PolicySafe (env : Env) (db db' : Db) : Prop where
  authorizations : ∀ a ∈ db'.authorizations, a.authorizationType = .policy →
    db.authorization a.authorizationId = none →
      CoversPlan env db a.proposalId a.planHash a.actionHash
  cards : ∀ c ∈ db'.cards, c.cardType = CardType.policyAuthorization.column →
    (∃ d ∈ db.cards, d.SameSeal c) ∨
      ∃ planHash actionHash, CoversPlan env db c.proposalId planHash actionHash
  states : ∀ p, db.proposalState p ≠ some .authorized → db'.proposalState p = some .authorized →
    ∃ planHash actionHash, CoversPlan env db p planHash actionHash

/-- The plan in force with the hash of an offered plan is that plan. -/
theorem Offers.covers {db : Db} (hcollision : NoPlanCollision env db) {p planHash actionHash : Str}
    (h : Offers env db p planHash actionHash)
    (hforce : (planInForce env db p).map (storedPlanHash env) = some planHash) :
    CoversPlan env db p planHash actionHash := by
  obtain ⟨c, hc, hproposal, htype, plan, hplan, heligible, rfl, rfl⟩ := h
  obtain ⟨plan', hplan', hhash⟩ := Option.map_eq_some_iff.mp hforce
  obtain ⟨c', hconfirmed, hdata'⟩ := Option.bind_eq_some_iff.mp hplan'
  obtain ⟨hrows, hrow⟩ := List.mem_filter.mp (lastBySequence_mem hconfirmed)
  have htype' : c'.cardType = CardType.responsePlan.column :=
    beq_iff_eq.mp (Bool.and_eq_true_iff.mp hrow).1
  have hsame := samePlan_of_hash hcollision hc (mem_cardsOf.mp hrows).1 htype htype' hplan hdata'
    hhash.symm
  obtain ⟨heligible', haction⟩ :=
    hsame.eligible (wellFormed_rowData hplan) (wellFormed_rowData hdata') heligible
  exact ⟨plan', hplan', heligible', hhash, haction⟩

theorem closing_unauthorized : (CardType.structuredApproval, ProposalState.authorized) ∉ stateOutcomes := by
  decide +kernel

/-- One step under the condition. -/
theorem StepTo.policySafe {closing : Prop} {sys sys' : Sys env} {action : Action}
    (h : StepTo env sys action sys') (hagents : AgentLaws closing sys) (hpolicy : PolicyLaw sys)
    (hcollision : NoPlanCollision env sys.db) (hkeeps : KeepsPolicy env sys action) :
    PolicySafe env sys.db sys'.db := by
  have hsealed : ∀ awaited, action.job sys = some (.sealPolicy awaited) →
      CoversPlan env sys.db awaited.proposalId awaited.planHash awaited.actionHash := by
    intro awaited hjob
    rw [KeepsPolicy, hjob] at hkeeps
    have hmem : .sealPolicy awaited ∈ sys.jobs := (Action.mem_jobs (Option.mem_toList.mpr hjob)).2
    exact (hpolicy.jobs awaited hmem).covers hcollision hkeeps
  refine ⟨fun a ha htype hnew => ?_, fun c hc htype => ?_, fun p hbefore hafter => ?_⟩
  · rcases h.policyFrom a ha with ⟨b, hb, hforward⟩ | hhuman | ⟨awaited, cardHash, hjob, rfl⟩
    · refine absurd (List.mem_map_of_mem hb) (not_mem_of_authorization ?_)
      rw [← hforward.same_grant.1]
      exact hnew
    · rw [hhuman] at htype
      cases htype
    · exact hsealed awaited hjob
  · rcases h.comesFrom c hc with hold | ⟨request, hjob, rfl⟩ |
      ⟨-, happroval | ⟨-, awaited, hjob, hproposal⟩⟩
    · exact .inl hold
    · -- an agent seals no policy
      have hmem : .sealCard request ∈ sys.jobs := (Action.mem_jobs (Option.mem_toList.mpr hjob)).2
      obtain ⟨hrole, hsubmit⟩ := hagents.jobs _ hmem
      have hcard : request.card.cardType = .policyAuthorization := CardType.column_injective htype
      rw [hcard] at hsubmit
      cases hprepared : request.preparedByRole with
      | gateway => exact absurd hprepared hrole
      | _ =>
        rw [hprepared] at hsubmit
        cases hsubmit
    · cases CardType.column_injective (happroval.symm.trans htype)
    · rw [hproposal]
      exact .inr ⟨_, _, hsealed awaited hjob⟩
  · have hmoved : ∀ {q : Str} {s : ProposalState}, Moved sys.db sys'.db q s → q = p ∧ s = .authorized := by
      intro q s hmoved
      rw [hmoved p] at hafter
      split at hafter
      · rename_i hq
        exact ⟨hq.symm, Option.some.inj hafter⟩
      · exact absurd hafter hbefore
    cases h.stateStep_job with
    | same states => exact absurd ((states p).symm.trans hafter) hbefore
    | created q fresh states => cases (hmoved states).2
    | confirmed request now row s s' severity pending confirmable current states =>
      obtain ⟨-, rfl⟩ := hmoved states
      exact absurd rfl (hagents.confirms (Action.mem_jobs pending).2 confirmable).2
    | advanced request now pending advanceable result states =>
      obtain ⟨hp, htarget⟩ := hmoved states
      obtain ⟨hjob, hmem⟩ := Action.mem_jobs pending
      obtain ⟨a, ha, c, -, hrequest⟩ := hagents.jobs _ hmem
      obtain ⟨hproposal, hid, htype⟩ : request.proposalId = a.proposalId ∧
          request.authorizationId = a.authorizationId ∧ request.target = a.authorizationType.target := by
        rw [hrequest]
        exact ⟨rfl, rfl, rfl⟩
      have hpolicyType : a.authorizationType = .policy := by
        cases hauth : a.authorizationType with
        | policy => rfl
        | humanApproval =>
          rw [hauth, htarget] at htype
          cases htype
      rw [KeepsPolicy, hjob] at hkeeps
      have hforce := hkeeps a (by rw [hid]; exact find_of_mem hagents.ledger ha) hpolicyType
      rw [← hp, hproposal]
      exact ⟨_, _, (hpolicy.authorizations a ha hpolicyType).covers hcollision hforce⟩
    | closed job closure more request now cardHash s' pending isClosure keeps closing planned outcome
        states =>
      obtain ⟨-, rfl⟩ := hmoved states
      exact absurd outcome closing_unauthorized

end Runs

section Samples

/-- `KeepsPolicy`, as a test. -/
def keepsPolicy (sys : Sys env) (action : Action) : Bool :=
  match action.job sys with
  | some (.sealPolicy awaited) =>
    (planInForce env sys.db awaited.proposalId).map (storedPlanHash env) == some awaited.planHash
  | some (.advance request) => (sys.db.authorization request.authorizationId).all fun a =>
      a.authorizationType != .policy ||
        (planInForce env sys.db a.proposalId).map (storedPlanHash env) == some a.planHash
  | _ => true

theorem keepsPolicy_iff {sys : Sys env} {action : Action} :
    keepsPolicy sys action = true ↔ KeepsPolicy env sys action := by
  unfold keepsPolicy KeepsPolicy
  split
  · exact beq_iff_eq
  · simp [Option.all_eq_true, imp_iff_not_or]
  · simp

instance (sys : Sys env) (action : Action) : Decidable (KeepsPolicy env sys action) :=
  decidable_of_iff _ keepsPolicy_iff

/-- A policy is requested for the plan in force. -/
def asking (n : Nat) : Script :=
  [fun sys => .request (.policyAuthorization (js "key-commander") ⟨js "P1",
    ((planInForce sampleEnv sys.db (js "P1")).map (storedPlanHash sampleEnv)).getD [], 60⟩) (drawsAt n)]

/-- A policy from its request to the advance. -/
def policyRun : Sys sampleEnv × List Action :=
  play sampleStart (opening ++ reviewing "low" ++ planning 4 4 "rebalance_a" "low" ++ asking 5 ++
    resuming 5 ++ resuming 6 ++ resuming 7)

/-- A policy is requested for a harmless plan, and before its seal the plan is sent back and replaced
by a critical one. -/
def overtakenRun : Sys sampleEnv × List Action :=
  play sampleStart (opening ++ reviewing "low" ++ planning 4 4 "rebalance_a" "low" ++ challenging 5 ++
    asking 6 ++ behind 1 (revising 7 5) ++ behind 2 (planning 8 6 "rebalance_b" "critical"))

/-- Both runs in one evaluation; a value, as the next one waits for it. -/
def policyRunsEnd : PLift (
    (policyRun.1.db.proposalState (js "P1") = some .authorized ∧
    (∀ action ∈ policyRun.2, action.Lawful sampleEnv True) ∧
    everyStep (step sampleEnv) (KeepsPolicy sampleEnv) (Sys.initial sampleEnv) policyRun.2 = true ∧
    NoPlanCollision sampleEnv policyRun.1.db) ∧
    (∀ action ∈ overtakenRun.2, action.Lawful sampleEnv True) ∧
    (step sampleEnv overtakenRun.1 (.resume 0 (drawsAt 9))).any (fun sys' =>
      sys'.db.authorizations.any fun a => a.authorizationType == .policy &&
        (overtakenRun.1.db.authorization a.authorizationId).isNone &&
        (planInForce sampleEnv overtakenRun.1.db a.proposalId).all fun plan =>
          storedPlanHash sampleEnv plan != a.planHash &&
            !isAmong ["low", "medium"] (riskOf sampleEnv plan)) = true) where
  down := by decide +kernel

end Samples
end Concordia.Gateway
