import Concordia.Gateway.Publications

/-! A human authorization and the plan in force: what a nonce is bound to when it is created, and
when that is still the latest confirmed plan at its consumption. -/
namespace Concordia.Gateway
open Concordia.Python Concordia.Lib.Transactions Concordia.Lib.Transition
open Concordia.Js hiding Value

section Bound
variable (env : Env)

/-- The data of the latest confirmed ResponsePlan. -/
def planInForce (db : Db) (p : Str) : Option Dict := (db.confirmedPlan p).bind (rowData env)

/-- The authorization is for the plan in force, and its envelopes hash to its action hash. -/
def BoundToPlan (db : Db) (a : AuthorizationRow) : Prop :=
  (planInForce env db a.proposalId).map (storedPlanHash env) = some a.planHash ∧
    (planInForce env db a.proposalId).map (storedActionHash env) = some a.actionHash ∧
    (loads env.floats a.envelopesJson).map (computeActionHash env) = some a.actionHash

instance (db : Db) (a : AuthorizationRow) : Decidable (BoundToPlan env db a) :=
  inferInstanceAs (Decidable (_ ∧ _ ∧ _))

/-- A human authorization that a step creates. -/
def NewHuman (db db' : Db) (a : AuthorizationRow) : Prop :=
  a ∈ db'.authorizations ∧ a.authorizationType = .humanApproval ∧
    db.authorization a.authorizationId = none

/-- The conditions: a nonce is inserted for the plan that is still in force, and no ResponsePlan is
confirmed while its proposal has an open nonce. -/
def KeepsPlan (sys : Sys env) (action : Action) : Prop :=
  match action.job sys with
  | some (.createNonce row) =>
    (planInForce env sys.db row.proposalId).map (storedPlanHash env) = some row.planHash ∧
      (planInForce env sys.db row.proposalId).map (storedActionHash env) = some row.actionHash
  | some (.confirm request) => ∀ row ∈ sys.db.cards.find? (isPrepared request.toConfirmBody),
      row.cardType = CardType.responsePlan.column →
      sys.db.nonces.countP (isLive request.proposalId) = 0
  | _ => True

instance (sys : Sys env) (action : Action) : Decidable (KeepsPlan env sys action) := by
  unfold KeepsPlan
  split <;> infer_instance

/-- Every open nonce is for the plan in force. -/
def OpenForPlan (db : Db) : Prop :=
  ∀ r ∈ db.nonces, isLive r.proposalId r = true →
    (planInForce env db r.proposalId).map (storedPlanHash env) = some r.planHash ∧
      (planInForce env db r.proposalId).map (storedActionHash env) = some r.actionHash

end Bound

section Keep
variable {env : Env}

theorem planInForce_congr {db db' : Db} {p : Str}
    (h : db'.latestPublished .responsePlan p = db.latestPublished .responsePlan p) :
    planInForce env db' p = planInForce env db p := by
  rw [planInForce, planInForce, confirmedPlan_eq, confirmedPlan_eq, h]

/-- A nonce is inserted by its own job; every other one only lets nonces age. -/
theorem resume_nonces {draws : Draws} {db db' : Db} {next : List (Job env)} {job : Job env}
    (hfresh : db.authorization draws.uuid = none) (h : resumePost env draws db next db' job) :
    (∃ f : NonceRow → NonceRow, (∀ r : NonceRow, r.Ages (f r)) ∧ db'.nonces = db.nonces.map f) ∨
      ∃ row, job = .createNonce row ∧ insertNonce row db = some db' := by
  have hsame : db'.nonces = db.nonces → (∃ f : NonceRow → NonceRow, (∀ r : NonceRow, r.Ages (f r)) ∧
      db'.nonces = db.nonces.map f) ∨ ∃ row, job = .createNonce row ∧ insertNonce row db = some db' :=
    fun hnonces => .inl ⟨id, NonceRow.Ages.refl, by rw [hnonces, List.map_id]⟩
  cases job with
  | createNonce row =>
    rcases h.2 with rfl | hinsert
    · exact hsame rfl
    · exact .inr ⟨row, rfl, hinsert⟩
  | sealCard request =>
    rcases h.2 with rfl | ⟨result, hseal⟩
    · exact hsame rfl
    · exact hsame hseal.ledger.1
  | confirm request =>
    rcases h.2 with rfl | ⟨row, newState, severity, -, rfl⟩
    · exact hsame rfl
    · exact hsame rfl
  | postChallenge request => exact hsame h.1.nonces
  | recordChallenge record =>
    refine .inl ⟨_, fun r => ?_, by rw [h.2]; rfl⟩
    split
    · exact ⟨rfl, rfl, rfl, rfl, id, id⟩
    · exact .refl r
  | consumeNonce request =>
    rcases h with ⟨rfl, -⟩ | ⟨consumption, hstep, -⟩
    · exact hsame rfl
    · cases hstep with
      | intro row envelopesJson card approval behindSeal _ consumable isApproval sealing target =>
        have hbehind : behindSeal.authorization draws.uuid = none := by
          simpa only [Db.authorization, sealing.ledger.2.1] using hfresh
        refine .inl ⟨fun r => if r.proposalId == request.proposalId && r.nonce == request.nonce then
          { r with consumed := true, consumedBy := some request.consumedBy, consumedAt := some draws.now }
          else r, fun r => ?_, ?_⟩
        · dsimp only
          split
          · exact consumeNonceOnly_ages _ _ r
          · exact .refl r
        · rw [consumed, insertAuthorization_fresh hbehind]
          simp only [consumeNonceOnly, updateNonces, sealing.ledger.1]
  | publishApproval request => exact hsame h.1.nonces
  | sealPolicy request =>
    rcases h with ⟨rfl, -⟩ | ⟨publication, hstep, -⟩
    · exact hsame rfl
    · cases hstep with
      | intro approval behindSeal sealing =>
        have hbehind : behindSeal.authorization draws.uuid = none := by
          simpa only [Db.authorization, sealing.ledger.2.1] using hfresh
        exact hsame (by rw [policyAuthorized, insertAuthorization_fresh hbehind]; exact sealing.ledger.1)
  | publishPolicy request => exact hsame h.1.nonces
  | advance request =>
    rcases h.2 with rfl | ⟨-, rfl⟩
    · exact hsame rfl
    · exact hsame rfl
  | consumeAuthorization request =>
    rcases h.2 with rfl | rfl
    · exact hsame rfl
    · exact hsame rfl
  | revise instructions request =>
    rcases h with ⟨rfl, -⟩ | ⟨cardHash, roomId, hstep, -⟩
    · exact hsame rfl
    · cases hstep with
      | intro row card approval behindSeal planned valid isApproval decided sealing =>
        refine .inl ⟨_, invalidateNonce_ages request.proposalId request.nonce, ?_⟩
        rw [← sealing.ledger.1]
        rfl
  | falseAlarm request =>
    rcases h with ⟨rfl, -⟩ | ⟨cardHash, roomId, hstep, -⟩
    · exact hsame rfl
    · cases hstep with
      | intro row card approval behindSeal planned valid isApproval decided sealing =>
        refine .inl ⟨_, invalidateNonce_ages request.proposalId request.nonce, ?_⟩
        rw [(addSuppressionRule_ledger _ _).1, ← sealing.ledger.1]
        rfl
  | notify notification attempts => exact hsame h.1.nonces
  | recordNotification notification messageId => exact hsame (by rw [h.2]; rfl)

theorem live_aged {db db' : Db} {f : NonceRow → NonceRow} (ages : ∀ r : NonceRow, r.Ages (f r))
    (hnonces : db'.nonces = db.nonces.map f) {r' : NonceRow} (hr' : r' ∈ db'.nonces)
    (hlive : isLive r'.proposalId r' = true) :
    ∃ r ∈ db.nonces, r.Ages r' ∧ isLive r.proposalId r = true := by
  obtain ⟨r, hr, rfl⟩ := List.mem_map.mp (hnonces ▸ hr')
  refine ⟨r, hr, ages r, (ages r).isLive ?_⟩
  rw [(ages r).proposalId] at hlive
  exact hlive

/-- The open nonces stay bound, as long as their plan stays in force. -/
theorem OpenForPlan.aged {db db' : Db} (h : OpenForPlan env db) {f : NonceRow → NonceRow}
    (ages : ∀ r : NonceRow, r.Ages (f r)) (hnonces : db'.nonces = db.nonces.map f)
    (hplan : ∀ r ∈ db.nonces, isLive r.proposalId r = true →
      planInForce env db' r.proposalId = planInForce env db r.proposalId) :
    OpenForPlan env db' := by
  intro r' hr' hlive
  obtain ⟨r, hr, hages, hold⟩ := live_aged ages hnonces hr' hlive
  rw [hages.proposalId, hages.planHash, hages.actionHash, hplan r hr hold]
  exact h r hr hold

theorem isLive_of_mem {db : Db} {r : NonceRow} (hr : r ∈ db.nonces)
    (hlive : isLive r.proposalId r = true) : db.nonces.countP (isLive r.proposalId) ≠ 0 :=
  (List.countP_pos_iff.mpr ⟨r, hr, hlive⟩).ne'

/-- One step under the conditions keeps the open nonces bound. -/
theorem OpenForPlan.step {sys sys' : Sys env} {action : Action} (h : OpenForPlan env sys.db)
    (hkeeps : KeepsPlan env sys action) (hpublication : Publication sys action sys')
    (hstep : StepTo env sys action sys') : OpenForPlan env sys'.db := by
  cases hstep with
  | request request draws next db' fresh post =>
    have hcards := start_cards post
    refine h.aged NonceRow.Ages.refl ((start_ledger post).1.trans (List.map_id' _).symm) fun r _ _ =>
      planInForce_congr (latestPublished_congr (congrArg _ hcards))
  | resume index draws job next db' fresh pending post =>
    rcases resume_nonces fresh post with ⟨f, ages, hnonces⟩ | ⟨row, rfl, hinsert⟩
    · refine h.aged ages hnonces fun r hr hlive => planInForce_congr ?_
      rcases hpublication.latest (t := .responsePlan) (p := r.proposalId) (by decide) with
        hsame | ⟨request, plan, newState, severity, hresumed, hconfirm, hp, hcolumn⟩
      · exact hsame
      · -- a plan is confirmed only while no nonce is open
        rw [KeepsPlan, hresumed] at hkeeps
        have := hkeeps plan hconfirm.found hcolumn
        rw [hp] at this
        exact absurd this (isLive_of_mem hr hlive)
    · have hbound := hkeeps
      rw [KeepsPlan, show Action.job sys (.resume index draws) = some (.createNonce row) from pending]
        at hbound
      unfold insertNonce at hinsert
      simp only [Option.ite_none_left_eq_some, Option.some.injEq] at hinsert
      obtain ⟨-, rfl⟩ := hinsert
      intro r' hr' hlive
      rcases List.mem_append.mp hr' with hold | hnew
      · obtain ⟨r, hr, rfl⟩ := List.mem_map.mp hold
        have hages := invalidated_ages row.proposalId r
        have hwas := hages.isLive hlive
        rw [hages.proposalId] at hwas ⊢
        rw [hages.planHash, hages.actionHash]
        exact h r hr hwas
      · obtain rfl := List.mem_singleton.mp hnew
        exact hbound

/-- A human authorization is new because an open nonce was consumed for it. -/
theorem LedgerStep.newHuman {db db' : Db} (h : LedgerStep env db db') {a : AuthorizationRow}
    (ha : NewHuman db db' a) : ∃ r ∈ db.nonces, r.proposalId = a.proposalId ∧
      isLive r.proposalId r = true ∧ a.nonce = some r.nonce ∧ r.planHash = a.planHash ∧
      r.actionHash = a.actionHash ∧ db.proposalState a.proposalId = some .planned ∧
      planEnvelopesJson env a.proposalId db = some a.envelopesJson := by
  obtain ⟨hmem, htype, hnone⟩ := ha
  have hold : ∀ b ∈ db.authorizations, b.authorizationId ≠ a.authorizationId := fun b hb hid =>
    not_mem_of_authorization hnone (hid ▸ List.mem_map_of_mem hb)
  have hforward : ∀ g : AuthorizationRow → AuthorizationRow,
      (∀ b, (g b).authorizationId = b.authorizationId) →
      db'.authorizations = db.authorizations.map g → False := by
    intro g hid hauths
    rw [hauths] at hmem
    obtain ⟨b, hb, rfl⟩ := List.mem_map.mp hmem
    exact hold b hb (hid b).symm
  cases h with
  | aged f ages nonces authorizations => exact absurd rfl (hold a (authorizations ▸ hmem))
  | created row nonces authorizations => exact absurd rfl (hold a (authorizations ▸ hmem))
  | consumed request authorizationId envelopesJson row cardHash now fresh consumable nonces
      authorizations =>
    rw [authorizations] at hmem
    rcases List.mem_append.mp hmem with hmem | hnew
    · exact absurd rfl (hold a hmem)
    · obtain rfl := List.mem_singleton.mp hnew
      have hvalid := validNonce_of_ok consumable.valid
      obtain ⟨hrow, hkey⟩ := mem_of_nonce hvalid.found
      obtain ⟨hproposal, hnonce⟩ := Prod.mk.inj hkey
      refine ⟨row, hrow, hproposal, ?_, congrArg some hnonce.symm, hvalid.planHash,
        hvalid.actionHash, consumable.planned, consumable.envelopes⟩
      simp [isLive, hvalid.unconsumed, hvalid.valid]
  | authorized request authorizationId cardHash fresh nonces authorizations =>
    rw [authorizations] at hmem
    rcases List.mem_append.mp hmem with hmem | hnew
    · exact absurd rfl (hold a hmem)
    · rw [List.mem_singleton.mp hnew] at htype
      cases htype
  | advanced request now advanceable nonces authorizations =>
    exact (hforward _ (advanceRow_id request) authorizations).elim
  | used authorizationId role now nonces authorizations =>
    exact (hforward _ (useRow_id authorizationId role now) authorizations).elim

/-- The envelopes of the authorization are those of the plan in force. -/
theorem planEnvelopes_loads {db : Db} {p text : Str} {data : Dict}
    (hplan : planInForce env db p = some data) (h : planEnvelopesJson env p db = some text) :
    loads env.floats text = some (envelopesOf data) := by
  obtain ⟨plan, hconfirmed, hdata⟩ := Option.bind_eq_some_iff.mp hplan
  unfold rowData at hdata
  split at hdata
  · rename_i d hloads
    obtain rfl := Option.some.inj hdata
    simp only [planEnvelopesJson, hconfirmed, Option.map_some, hloads, Option.some.injEq] at h
    rw [← h]
    refine loads_dumps ?_
    rw [envelopesOf]
    cases hlookup : d.lookup (js "envelopes") with
    | none => simp [WellFormed, WellFormedElements]
    | some v => exact wellFormed_lookup (wellFormed_loads hloads) hlookup
  · cases hdata

theorem BoundToPlan.of_open {db : Db} (h : OpenForPlan env db) {a : AuthorizationRow} {r : NonceRow}
    (hr : r ∈ db.nonces) (hproposal : r.proposalId = a.proposalId)
    (hlive : isLive r.proposalId r = true) (hplan : r.planHash = a.planHash)
    (haction : r.actionHash = a.actionHash)
    (henvelopes : planEnvelopesJson env a.proposalId db = some a.envelopesJson) :
    BoundToPlan env db a := by
  obtain ⟨hplanHash, hactionHash⟩ := h r hr hlive
  rw [hproposal, hplan] at hplanHash
  rw [hproposal, haction] at hactionHash
  refine ⟨hplanHash, hactionHash, ?_⟩
  obtain ⟨data, hdata, -⟩ := Option.map_eq_some_iff.mp hplanHash
  rw [planEnvelopes_loads hdata henvelopes, ← hactionHash, hdata]
  rfl

end Keep

section Runs
variable {env : Env}

theorem openForPlan_of_steps {log : List Action} {sys : Sys env}
    (h : Accepts (step env) (Sys.initial env) log sys)
    (hok : EveryStep (step env) (Sys.initial env) log (KeepsPlan env)) (hcollision : NoCollision sys.db) :
    OpenForPlan env sys.db := by
  refine h.guarded (P := fun sys => NoCollision sys.db → OpenForPlan env sys.db) hok
    (fun _ r hr => absurd hr List.not_mem_nil) (fun l v a w hv hopen hkeeps hstep hnext => ?_) hcollision
  have hto := (step_cases env (reachable_laws hv).1 hstep).1
  obtain ⟨cards, hgrow⟩ := hto.cardsStep.grow
  have hbefore := hnext.before hgrow
  exact (hopen hbefore).step hkeeps (reachable_publication hv hbefore hto) hto

/-- What has become of a nonce `r` that was there when its proposal had the plan `plan` and was, or
was not, planned: as long as it is open, nothing of that has changed. -/
def Unrenewed (r : NonceRow) (plan : Option CardRow) (unplanned : Prop) (db : Db) : Prop :=
  ∃ r' ∈ db.nonces, r.Ages r' ∧ (isLive r.proposalId r' = true →
    db.confirmedPlan r.proposalId = plan ∧
      (unplanned → db.proposalState r.proposalId ≠ some .planned))

theorem planned_outcome : ∀ t, (t, ProposalState.planned) ∈ stateOutcomes → t = .responsePlan := by
  intro t
  cases t <;> decide +kernel

theorem NonceRow.Ages.trans {r r' r'' : NonceRow} (h : r.Ages r') (k : r'.Ages r'') : r.Ages r'' :=
  ⟨k.proposalId.trans h.proposalId, k.nonce.trans h.nonce, k.planHash.trans h.planHash,
    k.actionHash.trans h.actionHash, k.consumed ∘ h.consumed, k.invalidated ∘ h.invalidated⟩

/-- A step to PLANNED confirms a plan. -/
theorem StepTo.planned {sys sys' : Sys env} {action : Action} (hlaw : PublicationLaw sys)
    (h : StepTo env sys action sys') {p : Str} (hbefore : sys.db.proposalState p ≠ some .planned)
    (hafter : sys'.db.proposalState p = some .planned) :
    ∃ request row newState severity, action.job sys = some (.confirm request) ∧
      Confirmable env request sys.db row newState severity ∧ request.proposalId = p ∧
      row.cardType = CardType.responsePlan.column := by
  obtain ⟨request, row, severity, hjob, hconfirm, hp⟩ :=
    h.confirms hlaw (by decide) (fun hclose => nomatch planned_outcome _ hclose) hbefore hafter
  obtain ⟨t, htype, houtcome, -⟩ := hconfirm.moves
  obtain rfl := planned_outcome t houtcome
  exact ⟨request, row, some .planned, severity, hjob, hconfirm, hp, htype⟩

theorem KeepsPlan.closed {sys : Sys env} {action : Action} (h : KeepsPlan env sys action)
    {request : ConfirmRequest} {row : CardRow} {newState : Option ProposalState}
    {severity : Option Str} (hjob : action.job sys = some (.confirm request))
    (hconfirm : Confirmable env request sys.db row newState severity)
    (hplan : row.cardType = CardType.responsePlan.column) {r : NonceRow} (hr : r ∈ sys.db.nonces)
    (hproposal : r.proposalId = request.proposalId) : isLive r.proposalId r ≠ true := by
  intro hlive
  rw [KeepsPlan, hjob] at h
  have := h row hconfirm.found hplan
  rw [← hproposal] at this
  exact isLive_of_mem hr hlive this

theorem Unrenewed.step {sys sys' : Sys env} {action : Action} {r : NonceRow} {plan : Option CardRow}
    {unplanned : Prop} (h : Unrenewed r plan unplanned sys.db) (hkeeps : KeepsPlan env sys action)
    (hlaw : PublicationLaw sys) (hpublication : Publication sys action sys')
    (hstep : StepTo env sys action sys') : Unrenewed r plan unplanned sys'.db := by
  obtain ⟨r', hr', hages, hopen⟩ := h
  obtain ⟨r'', hr'', hages'⟩ := hstep.ledgerStep.nonce_ages r' hr'
  refine ⟨r'', hr'', hages.trans hages', fun hlive => ?_⟩
  have hwas := hages'.isLive hlive
  obtain ⟨hplan, hstate⟩ := hopen hwas
  rw [← hages.proposalId] at hwas
  have hnone : ∀ {request row newState severity}, action.job sys = some (.confirm request) →
      Confirmable env request sys.db row newState severity → request.proposalId = r.proposalId →
      row.cardType = CardType.responsePlan.column → False :=
    fun hjob hconfirm hp hcolumn =>
      hkeeps.closed hjob hconfirm hcolumn hr' (hages.proposalId.trans hp.symm) hwas
  refine ⟨?_, fun hunplanned hafter => ?_⟩
  · rcases hpublication.latest (t := .responsePlan) (p := r.proposalId) (by decide) with
      hsame | ⟨request, row, newState, severity, hjob, hconfirm, hp, hcolumn⟩
    · exact hsame.trans hplan
    · exact (hnone hjob hconfirm hp hcolumn).elim
  · obtain ⟨request, row, newState, severity, hjob, hconfirm, hp, hcolumn⟩ :=
      hstep.planned hlaw (hstate hunplanned) hafter
    exact hnone hjob hconfirm hp hcolumn

/-- A nonce that was there before stays bound to the plan and the state of that time. -/
theorem unrenewed {earlier later : List Action} {v sys : Sys env}
    (hv : Accepts (step env) (Sys.initial env) earlier v) (h : Accepts (step env) v later sys)
    (hok : EveryStep (step env) (Sys.initial env) (earlier ++ later) (KeepsPlan env))
    (hcollision : NoCollision sys.db) {r : NonceRow} (hr : r ∈ v.db.nonces) :
    Unrenewed r (v.db.confirmedPlan r.proposalId) (v.db.proposalState r.proposalId ≠ some .planned)
      sys.db := by
  induction h with
  | start => exact ⟨r, hr, .refl r, fun _ => ⟨rfl, id⟩⟩
  | @accept log w u a hrun hstep ih =>
    have hw := hv.trans hrun
    have hto := (step_cases env (reachable_laws hw).1 hstep).1
    obtain ⟨cards, hgrow⟩ := hto.cardsStep.grow
    have hbefore := hcollision.before hgrow
    rw [← List.append_assoc] at hok
    exact (ih hok.initial hbefore).step (hok _ a [] w rfl hw) (reachable_publicationLaw hw).2
      (reachable_publication hw hbefore hto) hto

/-- A human authorization is for the plan in force, with that plan's envelopes; and its nonce was not
there when another plan was in force, or when the proposal was not planned. -/
theorem approvals_bound {earlier later : List Action} {v sys sys' : Sys env} {action : Action}
    (hv : Accepts (step env) (Sys.initial env) earlier v) (h : Accepts (step env) v later sys)
    (hok : EveryStep (step env) (Sys.initial env) (earlier ++ later) (KeepsPlan env))
    (hcollision : NoCollision sys.db) (hstep : step env sys action = some sys') :
    ∀ a, NewHuman sys.db sys'.db a → BoundToPlan env sys.db a ∧
      ∀ r ∈ v.db.nonces, r.proposalId = a.proposalId → a.nonce = some r.nonce →
        v.db.confirmedPlan a.proposalId = sys.db.confirmedPlan a.proposalId ∧
          v.db.proposalState a.proposalId = some .planned := by
  intro a ha
  have hsys := hv.trans h
  obtain ⟨hidle, hlaws⟩ := reachable_laws hsys
  have hto := (step_cases env hidle hstep).1
  obtain ⟨r, hr, hproposal, hlive, hnonce, hplan, haction, hplanned, henvelopes⟩ :=
    hto.ledgerStep.newHuman ha
  refine ⟨.of_open (openForPlan_of_steps hsys hok hcollision) hr hproposal hlive hplan haction henvelopes,
    fun r₀ hr₀ hproposal₀ hnonce₀ => ?_⟩
  obtain ⟨r', hr', hages, hopen⟩ := unrenewed hv h hok hcollision hr₀
  obtain rfl : r' = r := hlaws.unique hr' hr (by
    rw [hages.proposalId, hages.nonce, hproposal₀, hproposal, Option.some.inj (hnonce₀.symm.trans hnonce)])
  rw [hproposal, ← hproposal₀] at hlive
  obtain ⟨hsame, hstate⟩ := hopen hlive
  rw [hproposal₀] at hsame hstate
  exact ⟨hsame.symm, by_contra fun hunplanned => hstate hunplanned hplanned⟩

end Runs

section Samples

instance (db db' : Db) (a : AuthorizationRow) : Decidable (NewHuman db db' a) :=
  inferInstanceAs (Decidable (_ ∧ _ ∧ _))

/-- An approval, up to the transaction that consumes its nonce. -/
def approvedRun : Sys sampleEnv × List Action :=
  play sampleStart (opening ++ reviewing "low" ++ planning 4 4 "rebalance_a" "low" ++ challenging 5 ++
    consuming 6 5)

/-- A nonce that is created when its plan was sent back already, up to its consumption behind the
next plan. -/
def staleRun : Sys sampleEnv × List Action :=
  play sampleStart (opening ++ reviewing "low" ++ planning 4 4 "rebalance_a" "low" ++ challenging 5 ++
    revising 6 5 ++ resuming 6 ++ resuming 6 ++ challenging 7 ++
    planning 8 6 "rebalance_b" "low" ++ consuming 9 7)

/-- Both runs in one evaluation; a value, as the next one waits for it. -/
def bindingRunsEnd : PLift (
    (everyStep (step sampleEnv) (KeepsPlan sampleEnv) (Sys.initial sampleEnv) approvedRun.2 = true ∧
      NoCollision approvedRun.1.db ∧
      (step sampleEnv approvedRun.1 (.resume 0 (drawsAt 6))).isSome = true) ∧
    ((step sampleEnv staleRun.1 (.resume 0 (drawsAt 9))).any fun sys' =>
    sys'.db.authorizations.any fun a => decide (NewHuman staleRun.1.db sys'.db a) &&
      !decide (BoundToPlan sampleEnv staleRun.1.db a)) = true) where
  down := by decide +kernel

theorem approvals_bound_example : ∃ sys',
    step sampleEnv approvedRun.1 (.resume 0 (drawsAt 6)) = some sys' ∧
      ∀ a, NewHuman approvedRun.1.db sys'.db a → BoundToPlan sampleEnv approvedRun.1.db a := by
  obtain ⟨hkeeps, hcollision, hsome⟩ := bindingRunsEnd.down.1
  obtain ⟨sys', hstep⟩ := Option.isSome_iff_exists.mp hsome
  have hrun : Accepts (step sampleEnv) (Sys.initial sampleEnv) approvedRun.2 approvedRun.1 :=
    play_accepts _ .start
  have hok : EveryStep (step sampleEnv) (Sys.initial sampleEnv) ([] ++ approvedRun.2)
      (KeepsPlan sampleEnv) := by
    rw [List.nil_append]
    exact .of_test hkeeps
  exact ⟨sys', hstep, fun a ha => (approvals_bound .start hrun hok hcollision hstep a ha).1⟩

/-- The old nonce is consumed into an authorization with the old hashes and the new envelopes. -/
theorem stale_nonce_approves : Accepts (step sampleEnv) (Sys.initial sampleEnv) staleRun.2 staleRun.1 ∧
    ∃ sys', step sampleEnv staleRun.1 (.resume 0 (drawsAt 9)) = some sys' ∧
      ∃ a, NewHuman staleRun.1.db sys'.db a ∧ ¬ BoundToPlan sampleEnv staleRun.1.db a := by
  refine ⟨play_accepts _ .start, ?_⟩
  obtain ⟨sys', hstep, hany⟩ := (Option.any_eq_true _ _).mp bindingRunsEnd.down.2
  obtain ⟨a, -, ha⟩ := List.any_eq_true.mp hany
  obtain ⟨hnew, hstale⟩ := Bool.and_eq_true_iff.mp ha
  exact ⟨sys', hstep, a, of_decide_eq_true hnew, by simpa using hstale⟩

end Samples
end Concordia.Gateway
