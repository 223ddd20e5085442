import Concordia.Gateway.Retries

/-! Approval hashes: the strategy agent hashes a plan before it is sealed, the routes hash what is
stored of it. Both are the hash of the same content, and the hash tells contents apart. -/
namespace Concordia.Gateway
open Concordia.Python Concordia.Lib.Transactions Concordia.Lib.Transactions.Program
open Concordia.Lib.Transition
open Concordia.Js hiding Value

variable (env : Env)

/-- A `ResponsePlan` as the strategy agent builds it, without chain fields. -/
structure BuiltPlan (floats : FloatFormat) where
  card : Card floats
  type : card.cardType = .responsePlan
  envelopes : List Dict
  enveloped : card.dump.lookup (js "envelopes") = some (.list (envelopes.map .dict))
  hashless : js "card_hash" ∉ card.dump.map Prod.fst
  unnumbered : card.dump.lookup (js "sequence_number") = some .none
  unlinked : card.dump.lookup (js "previous_card_hash") = some .none

namespace BuiltPlan
variable {floats : FloatFormat} (plan : BuiltPlan floats)

/-- `plan.model_dump(mode="json")`. -/
def modelDump : Dict := plan.card.dump.set (js "card_hash") .none

end BuiltPlan

/-- `compute_plan_hash(plan_dict)`, before the plan is sealed. -/
def BuiltPlan.planHash (plan : BuiltPlan env.floats) : Str := computePlanHash env plan.modelDump

/-- `compute_action_hash(envelope_dicts)`. -/
def BuiltPlan.actionHash (plan : BuiltPlan env.floats) : Str :=
  computeActionHash env (.list (plan.envelopes.map .dict))

/-- The fields that sealing sets. -/
def IsSealField (name : Str) : Prop :=
  name = js "card_hash" ∨ name = js "previous_card_hash" ∨ name = js "sequence_number"

instance (name : Str) : Decidable (IsSealField name) := inferInstanceAs (Decidable (_ ∨ _ ∨ _))

variable {env}

section Content

theorem normalizePlanForHash_lookup (d : Dict) (name : Str) :
    (normalizePlanForHash d).lookup name = if IsSealField name then some .none else d.lookup name := by
  unfold normalizePlanForHash
  by_cases hsequence : name = js "sequence_number"
  · rw [if_pos (.inr (.inr hsequence)), hsequence, Dict.lookup_set_self]
  · rw [Dict.lookup_set_other hsequence]
    by_cases hprevious : name = js "previous_card_hash"
    · rw [if_pos (.inr (.inl hprevious)), hprevious, Dict.lookup_set_self]
    · rw [Dict.lookup_set_other hprevious]
      by_cases hhash : name = js "card_hash"
      · rw [if_pos (.inl hhash), hhash, Dict.lookup_set_self]
      · rw [Dict.lookup_set_other hhash, if_neg]
        rintro (h | h | h)
        · exact hhash h
        · exact hprevious h
        · exact hsequence h

theorem normalizePlanForHash_nodup {d : Dict} (h : (d.map Prod.fst).Nodup) :
    ((normalizePlanForHash d).map Prod.fst).Nodup :=
  Dict.set_nodup (Dict.set_nodup (Dict.set_nodup h _ _) _ _) _ _

theorem wellFormed_normalizePlanForHash {d : Dict} (h : WellFormed env.floats (.dict d)) :
    WellFormed env.floats (.dict (normalizePlanForHash d)) :=
  wellFormed_set (wellFormed_set (wellFormed_set h (by simp [WellFormed]) _) (by simp [WellFormed]) _)
    (by simp [WellFormed]) _

/-- The chain sets its two fields and leaves the others. -/
theorem linked_lookup (card : Card env.floats) (n : Int) (prev : Option Str) {name : Str}
    (h : ¬ IsSealField name) : (card.linked n prev).dump.lookup name = card.dump.lookup name := by
  have hprevious : name ≠ js "previous_card_hash" := fun heq => h (.inr (.inl heq))
  have hsequence : name ≠ js "sequence_number" := fun heq => h (.inr (.inr heq))
  rw [Card.linked, Dict.lookup_set_other hprevious, Dict.lookup_set_other hsequence]

theorem BuiltPlan.modelDump_lookup (plan : BuiltPlan env.floats) (name : Str) :
    plan.modelDump.lookup name =
      if IsSealField name then some .none else plan.card.dump.lookup name := by
  unfold BuiltPlan.modelDump
  by_cases hhash : name = js "card_hash"
  · rw [if_pos (.inl hhash), hhash, Dict.lookup_set_self]
  · rw [Dict.lookup_set_other hhash]
    split
    · rename_i hfield
      rcases hfield with h | h | h
      · exact absurd h hhash
      · rw [h, plan.unlinked]
      · rw [h, plan.unnumbered]
    · rfl

end Content

section Hashes
variable {plan : BuiltPlan env.floats} {card : Card env.floats} {row : CardRow} {n : Int}
  {prev : Option Str}

/-- The content that is stored of a sealed plan. -/
theorem sealed_content (hsame : card.canonical = plan.card.canonical) {name : Str}
    (h : ¬ IsSealField name) : (sortedItems (card.linked n prev).dump).lookup name =
      (plan.card.dump.lookup name).map sortKeys := by
  rw [lookup_sortedItems (card.linked n prev).wellFormed.1, linked_lookup card n prev h,
    lookup_of_dumpsSorted card.wellFormed plan.card.wellFormed hsame]

/-- Whatever the place in the chain is, the stored text has the hashes of the plan before it. -/
theorem storedHashes_sealed (htext : row.cardJson = (card.linked n prev).canonical)
    (hsame : card.canonical = plan.card.canonical) : ∃ data, rowData env row = some data ∧
      storedPlanHash env data = plan.planHash env ∧ storedActionHash env data = plan.actionHash env := by
  refine ⟨_, rowData_text htext, ?_, ?_⟩
  · have hsorted : sortKeys (.dict (normalizePlanForHash (sortedItems (card.linked n prev).dump))) =
        sortKeys (.dict plan.modelDump) := by
      apply sortKeys_congr
      · apply normalizePlanForHash_nodup
        exact (sortedItems_keys _).nodup_iff.mpr (card.linked n prev).wellFormed.1
      · exact Dict.set_nodup plan.card.wellFormed.1 _ _
      · intro name
        rw [normalizePlanForHash_lookup, plan.modelDump_lookup]
        split
        · rfl
        · rename_i hfield
          rw [sealed_content hsame hfield, Option.map_map]
          congr 1
          funext v
          exact sortKeys_sortKeys v
    exact congrArg (fun v => hexdigest env (dumps v)) hsorted
  · have henvelopes : ¬ IsSealField (js "envelopes") := by decide +kernel
    have hlookup := @sealed_content env plan card n prev hsame _ henvelopes
    rw [plan.enveloped, Option.map_some] at hlookup
    have hstored : envelopesOf (sortedItems (card.linked n prev).dump) =
        sortKeys (.list (plan.envelopes.map .dict)) := by
      rw [envelopesOf, hlookup, Option.getD_some]
    have hsorted : sortKeys (envelopesOf (sortedItems (card.linked n prev).dump)) =
        sortKeys (.list (plan.envelopes.map .dict)) := by
      rw [hstored, sortKeys_sortKeys]
    exact congrArg (fun v => hexdigest env (dumps v)) hsorted

/-- Stored plans with one hash have the same content outside the fields of the seal. -/
theorem storedPlanHash_binds {d e : Dict} (hd : WellFormed env.floats (.dict d))
    (he : WellFormed env.floats (.dict e)) (h : storedPlanHash env d = storedPlanHash env e) :
    (∀ name, ¬ IsSealField name → (d.lookup name).map sortKeys = (e.lookup name).map sortKeys) ∨
      Collision env (dumpsSorted (.dict (normalizePlanForHash d)))
        (dumpsSorted (.dict (normalizePlanForHash e))) := by
  have hd := wellFormed_normalizePlanForHash hd
  have he := wellFormed_normalizePlanForHash he
  refine (hashValue_content hd he h).imp_left fun hsorted name hfield => ?_
  have hlookup := lookup_of_dumpsSorted hd he (congrArg dumps hsorted) name
  rwa [normalizePlanForHash_lookup, normalizePlanForHash_lookup, if_neg hfield, if_neg hfield] at hlookup

/-- Envelope lists with one hash have the same content. -/
theorem actionHash_binds {v w : Value} (hv : WellFormed env.floats v) (hw : WellFormed env.floats w)
    (h : computeActionHash env v = computeActionHash env w) :
    sortKeys v = sortKeys w ∨ Collision env (dumpsSorted v) (dumpsSorted w) :=
  hashValue_content hv hw h

end Hashes

section Runs

/-- The plan was sealed when a run reaches this state: `prepare` read it back, the risk floor left
it as it is, and the seal appended its row, whatever happened in between. -/
inductive PlanSealed (plan : BuiltPlan env.floats) : Sys env → SealRequest env.floats → Prop
  | intro {before between : List Action} {checked sys sys' : Sys env} {uuid : Str} {call : PrepareCall}
      {role : Role} {card floored : Card env.floats} {request : SealRequest env.floats} {index : Nat}
      {draws : Draws} (reached : Accepts (step env) (Sys.initial env) before checked)
      (sent : call.body = plan.modelDump) (valid : call.Valid env .responsePlan role card)
      (read : card.canonical = plan.card.canonical)
      (floor : applyRiskFloor env card checked.db = some floored)
      (unchanged : floored.canonical = card.canonical)
      (handed : (call.checks env uuid checked.connection).1 = .ok (.inr request))
      (since : Accepts (step env) checked between sys)
      (pending : sys.jobs[index]? = some (.sealCard request))
      (taken : step env sys (.resume index draws) = some sys')
      (fresh : sealedBefore env request.card request.proposalId (some request.idempotencyKey)
        sys.db = none)
      (answered : ∃ response, (prepareSeal env request sys.connection).1 = .ok response) :
      PlanSealed plan sys' request

variable (env) in
/-- The row of the request carries the hashes that the strategy agent computed. -/
def HashesKept (plan : BuiltPlan env.floats) (request : SealRequest env.floats) (db : Db) : Prop :=
  ∃ row ∈ db.cards, row.proposalId = request.proposalId ∧
    row.idempotencyKey = some request.idempotencyKey ∧ row.cardType = CardType.responsePlan.column ∧
    ∃ data, rowData env row = some data ∧ storedPlanHash env data = plan.planHash env ∧
      storedActionHash env data = plan.actionHash env

theorem PlanSealed.reached {plan : BuiltPlan env.floats} {sys : Sys env}
    {request : SealRequest env.floats} (h : PlanSealed plan sys request) :
    ∃ log, Accepts (step env) (Sys.initial env) log sys := by
  obtain ⟨reached, sent, valid, read, floor, unchanged, handed, since, pending, taken, -, -⟩ := h
  exact ⟨_, (reached.trans since).accept taken⟩

/-- The checks hand over what the risk floor makes of the card. -/
theorem handed_floored {call : PrepareCall} {uuid : Str} {db : Db} {t : CardType} {role : Role}
    {card : Card env.floats} {request : SealRequest env.floats} (hvalid : call.Valid env t role card)
    (handed : (call.checks env uuid (idle db)).1 = .ok (.inr request)) :
    applyRiskFloor env card db = some request.card := by
  have hsettles := (prepareChecks_settles env call.cardTypeName call.xAgentKey (some call.key) call.body
    uuid db).2.2 request handed
  obtain ⟨-, -, t', card', known, validated, -, -, floored, -⟩ := hsettles
  obtain rfl := Option.some.inj (hvalid.known.symm.trans known)
  obtain rfl := Option.some.inj (hvalid.validated.symm.trans validated)
  exact floored

/-- A key that is not in use gets a new row. -/
theorem SealStep.appends {card : Card env.floats} {proposalId : Str} {key : Option Str}
    {role : Option Role} {requestFp : Option Str} {db db' : Db} {result : Sealed env.floats}
    (h : SealStep env card proposalId key role requestFp db result db')
    (fresh : sealedBefore env card proposalId key db = none) :
    db'.cards = db.cards ++ [nextRow env card proposalId key role requestFp db] := by
  cases h with
  | appended db' fresh' inserted => exact insertCard_cards inserted
  | replayed existing result found parsed hash => rw [fresh] at found; cases found

theorem PlanSealed.hashes {plan : BuiltPlan env.floats} {sys : Sys env}
    {request : SealRequest env.floats} (h : PlanSealed plan sys request) :
    HashesKept env plan request sys.db := by
  cases h with
  | intro reached sent valid read floor unchanged handed since pending taken fresh answered =>
    rename_i before between checked earlier uuid call role card floored index draws
    have hchecked := (reachable_chained reached).1
    rw [hchecked.connection_eq] at handed
    obtain rfl := Option.some.inj (floor.symm.trans (handed_floored valid handed))
    obtain ⟨t, role', card', hvalid', htype, -⟩ := call.checks_ends uuid checked.db _ handed
    obtain rfl := valid.unique_type hvalid'
    have hidle := (reachable_chained (reached.trans since)).1
    obtain ⟨response, hresponse⟩ := answered
    have hatomic := prepareSeal_atomic env request earlier.db
    have hconnection := step_sealCard pending taken
    rw [hidle.connection_eq] at hresponse hconnection
    unfold Atomic Settles Ends at hatomic
    rw [hresponse, ← hconnection] at hatomic
    obtain ⟨-, result, hseal⟩ := hatomic
    have hcards : sys.db.cards = _ := hseal.appends fresh
    obtain ⟨n, prev, htext⟩ := nextRow_cardJson request.card request.proposalId
      (some request.idempotencyKey) (some request.preparedByRole) (some request.requestFp) earlier.db
    refine ⟨_, ?_, rfl, rfl, congrArg CardType.column htype,
      storedHashes_sealed htext (unchanged.trans read)⟩
    rw [hcards]
    exact List.mem_append_right _ (List.mem_singleton.mpr rfl)

theorem HashesKept.later {plan : BuiltPlan env.floats} {request : SealRequest env.floats}
    {sys sys' : Sys env} {log : List Action} (h : HashesKept env plan request sys.db)
    (hidle : sys.Idle) (hrun : Accepts (step env) sys log sys') :
    HashesKept env plan request sys'.db := by
  obtain ⟨row, hrow, hproposal, hkey, htype, hdata⟩ := h
  obtain ⟨row', hrow', hsame, -⟩ := kept_later hrow hidle hrun
  refine ⟨row', hrow', hsame.proposalId.trans hproposal, hsame.idempotencyKey.trans hkey,
    hsame.cardType.trans htype, ?_⟩
  rw [rowData, hsame.cardJson]
  exact hdata

variable (env) in
/-- What the approval hashes promise: they survive the seal, wherever in the chain the card is and
whatever happens later, and they bind the content unless SHA-256 collides. -/
structure ApprovalHashes : Prop where
  survive : ∀ {plan : BuiltPlan env.floats} {sys sys' : Sys env} {request : SealRequest env.floats}
    {log : List Action}, PlanSealed plan sys request → Accepts (step env) sys log sys' →
      HashesKept env plan request sys'.db
  plans : ∀ {d e : Dict}, WellFormed env.floats (.dict d) → WellFormed env.floats (.dict e) →
    storedPlanHash env d = storedPlanHash env e →
      (∀ name, ¬ IsSealField name → (d.lookup name).map sortKeys = (e.lookup name).map sortKeys) ∨
        Collision env (dumpsSorted (.dict (normalizePlanForHash d)))
          (dumpsSorted (.dict (normalizePlanForHash e)))
  built : ∀ {plan other : BuiltPlan env.floats}, plan.planHash env = other.planHash env →
    (∀ name, (plan.card.dump.lookup name).map sortKeys = (other.card.dump.lookup name).map sortKeys) ∨
      Collision env (dumpsSorted (.dict plan.modelDump)) (dumpsSorted (.dict other.modelDump))
  envelopes : ∀ {v w : Value}, WellFormed env.floats v → WellFormed env.floats w →
    computeActionHash env v = computeActionHash env w →
      sortKeys v = sortKeys w ∨ Collision env (dumpsSorted v) (dumpsSorted w)

theorem BuiltPlan.wellFormed_modelDump (plan : BuiltPlan env.floats) :
    WellFormed env.floats (.dict plan.modelDump) :=
  wellFormed_set plan.card.wellFormed (by simp [WellFormed]) _

theorem BuiltPlan.lookup_hash (plan : BuiltPlan env.floats) :
    plan.card.dump.lookup (js "card_hash") = none := by
  rw [List.lookup_eq_none_iff]
  intro item hitem
  rw [bne_iff_ne]
  intro heq
  exact plan.hashless (heq ▸ List.mem_map_of_mem hitem)

theorem BuiltPlan.planHash_binds {plan other : BuiltPlan env.floats}
    (h : plan.planHash env = other.planHash env) :
    (∀ name, (plan.card.dump.lookup name).map sortKeys = (other.card.dump.lookup name).map sortKeys) ∨
      Collision env (dumpsSorted (.dict plan.modelDump)) (dumpsSorted (.dict other.modelDump)) := by
  have hplan := plan.wellFormed_modelDump
  have hother := other.wellFormed_modelDump
  refine (hashValue_content hplan hother h).imp_left fun hsorted name => ?_
  by_cases hhash : name = js "card_hash"
  · rw [hhash, plan.lookup_hash, other.lookup_hash]
  · have hlookup := lookup_of_dumpsSorted hplan hother (congrArg dumps hsorted) name
    unfold BuiltPlan.modelDump at hlookup
    rwa [Dict.lookup_set_other hhash, Dict.lookup_set_other hhash] at hlookup

/-- The approval hashes survive sealing and bind the content. -/
theorem approval_hashes (env : Env) : ApprovalHashes env where
  survive h hlater := by
    obtain ⟨log, hrun⟩ := h.reached
    exact h.hashes.later (reachable_chained hrun).1 hlater
  plans := storedPlanHash_binds
  built := BuiltPlan.planHash_binds
  envelopes := actionHash_binds

end Runs

section Sample

/-- A submission that nothing comes between seals its plan. -/
theorem PlanSealed.atOnce {plan : BuiltPlan env.floats} {call : PrepareCall} {sys : Sys env}
    {log : List Action} {draws : Draws} {role : Role} {card floored : Card env.floats}
    {request : SealRequest env.floats} (reached : Accepts (step env) (Sys.initial env) log sys)
    (hjobs : sys.jobs = []) (fresh : sys.db.authorization draws.uuid = none)
    (fresh' : (call.checks env draws.uuid sys.connection).2.data.authorization draws.uuid = none)
    (sent : call.body = plan.modelDump) (valid : call.Valid env .responsePlan role card)
    (read : card.canonical = plan.card.canonical)
    (floor : applyRiskFloor env card sys.db = some floored)
    (unchanged : floored.canonical = card.canonical)
    (handed : (call.checks env draws.uuid sys.connection).1 = .ok (.inr request))
    (unused : sealedBefore env request.card request.proposalId (some request.idempotencyKey)
      (call.checks env draws.uuid sys.connection).2.data = none)
    (answered : ∃ response,
      (prepareSeal env request (call.checks env draws.uuid sys.connection).2).1 = .ok response) :
    ∃ sys', PlanSealed plan sys' request := by
  have hprepared := step_prepare fresh handed
  rw [hjobs] at hprepared
  obtain ⟨sys', taken⟩ := @step_pending env _ draws request fresh'
  exact ⟨sys', .intro reached sent valid read floor unchanged handed (.accept .start hprepared) rfl taken
    unused answered⟩

def sampleEnvelopes : List Dict :=
  [[(js "action_id", .str (js "rebalance_a")), (js "target", .str (js "dao")),
    (js "parameters", .dict [(js "risk_level", .str (js "low"))]), (js "timeout_seconds", .int 300),
    (js "fallback_action", .none)]]

def samplePlanDump : Dict :=
  [(js "sequence_number", .none), (js "previous_card_hash", .none),
    (js "card_type", .str (js "ResponsePlan")), (js "proposal_id", .str (js "P1")),
    (js "runbook", .str (js "RB-001")), (js "envelopes", .list (sampleEnvelopes.map .dict)),
    (js "risk_level", .str (js "low")), (js "requires_human_approval", .bool false),
    (js "priority_rank", .none), (js "revision", .int 1)]

def samplePlan : BuiltPlan sampleEnv.floats where
  card := ⟨.responsePlan, samplePlanDump, (formed_iff sampleFloats).mp (by decide +kernel), by rfl⟩
  type := rfl
  envelopes := sampleEnvelopes
  enveloped := by rfl
  hashless := by decide +kernel
  unnumbered := by rfl
  unlinked := by rfl

theorem sampleKey_ne_nil : js "k" ≠ [] := by decide +kernel

def samplePlanCall : PrepareCall where
  cardTypeName := CardType.responsePlan.column
  xAgentKey := js "key-commander"
  key := js "k"
  keyed := sampleKey_ne_nil
  body := samplePlan.modelDump

/-- A proposal whose verdict is published. -/
def reviewed : Sys sampleEnv × List Action := play sampleStart (opening ++ reviewing "low")

def planDraws : Draws := drawsAt 4

/-- What the checks of the plan leave. -/
def planChecked : Except PyException (PrepareResponse ⊕ SealRequest sampleEnv.floats) × Connection Db :=
  samplePlanCall.checks sampleEnv planDraws.uuid reviewed.1.connection

/-- The plan as `prepare` reads it, and whether the risk floor leaves it as it is. -/
def readsPlan (card : Card sampleEnv.floats) : Bool :=
  card.canonical == samplePlan.card.canonical &&
    (applyRiskFloor sampleEnv card reviewed.1.db).any fun floored => floored.canonical == card.canonical

/-- What the sealed plan is checked for, as a value: the next evaluation waits for it. -/
def planEnd : PLift (
    reviewed.1.jobs.isEmpty = true ∧ reviewed.1.db.authorization planDraws.uuid = none ∧
      planChecked.2.data.authorization planDraws.uuid = none ∧
      isOk planChecked.1 (fun next => next.elim (fun _ => false) fun request =>
        (sealedBefore sampleEnv request.card request.proposalId (some request.idempotencyKey)
          planChecked.2.data).isNone &&
        isOk (prepareSeal sampleEnv request planChecked.2).1 fun _ => true) = true ∧
      isOk (authenticateAgent sampleEnv samplePlanCall.xAgentKey .responsePlan)
        (fun role => role == .commander) = true ∧
      (sampleEnv.modelValidate .responsePlan (samplePlanCall.body.set (js "card_type")
        (.str samplePlanCall.cardTypeName))).any (fun card =>
          readsPlan card && !(cardProposalId card).isEmpty) = true) where
  down := by decide +kernel

/-- The sample plan is sealed, and its hashes are kept. -/
theorem approval_hashes_example : ∃ (sys : Sys sampleEnv) (request : SealRequest sampleEnv.floats),
    PlanSealed samplePlan sys request ∧ HashesKept sampleEnv samplePlan request sys.db := by
  obtain ⟨hjobs, hfresh, hfresh', hhanded, hrole, hcard⟩ := planEnd.down
  unfold planChecked at hfresh' hhanded
  have hreached : Accepts (step sampleEnv) (Sys.initial sampleEnv) reviewed.2 reviewed.1 :=
    play_accepts _ .start
  obtain ⟨next, hnext, htests⟩ := isOk_iff.mp hhanded
  obtain ⟨request, rfl⟩ : ∃ request, next = .inr request := by
    cases next with
    | inl response => cases htests
    | inr request => exact ⟨request, rfl⟩
  simp only [Sum.elim_inr, Bool.and_eq_true, Option.isNone_iff_eq_none] at htests
  obtain ⟨hbefore, hseal⟩ := htests
  obtain ⟨response, hresponse, -⟩ := isOk_iff.mp hseal
  obtain ⟨card, hvalidated, hread⟩ := (Option.any_eq_true _ _).mp hcard
  simp only [readsPlan, Bool.and_eq_true, beq_iff_eq, Bool.not_eq_true', List.isEmpty_eq_false_iff]
    at hread
  obtain ⟨⟨hsame, hfloor⟩, hnamed⟩ := hread
  obtain ⟨floored, hfloored, hunchanged⟩ := (Option.any_eq_true _ _).mp hfloor
  obtain ⟨role, hauthenticated, -⟩ := isOk_iff.mp hrole
  have hvalid : samplePlanCall.Valid sampleEnv .responsePlan role card :=
    ⟨CardType.ofColumn_column .responsePlan, hauthenticated, hvalidated, hnamed⟩
  obtain ⟨sys, hsealed⟩ := PlanSealed.atOnce hreached (List.isEmpty_iff.mp hjobs) hfresh hfresh'
    rfl hvalid hsame hfloored (beq_iff_eq.mp hunchanged) hnext hbefore ⟨response, hresponse⟩
  exact ⟨sys, request, hsealed, (approval_hashes sampleEnv).survive hsealed .start⟩

end Sample
end Concordia.Gateway
