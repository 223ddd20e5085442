import Concordia.Alden.Runbooks
import Concordia.Shared.CasperExecutor

/-! The execution envelopes of Alden's response plan, and what the receipt request makes of their
parameters. -/
namespace Concordia.Alden
open Concordia.Python Concordia.Locke Concordia.Shared.X402Payments Concordia.Shared.DaoPolicy
open Concordia.Shared.CasperExecutor Concordia.Shared.CardIntake
open Concordia.Js hiding Value

section Merging

/-- `{**d, **e}`. -/
def merge (d e : Dict) : Dict := e.foldl (fun d item => d.set item.1 item.2) d

theorem lookup_merge {d e : Dict} (h : (e.map Prod.fst).Nodup) (key : Str) :
    (merge d e).lookup key = (e.lookup key).or (d.lookup key) := by
  induction e generalizing d with
  | nil => rfl
  | cons item e ih =>
    obtain ⟨hfirst, hrest⟩ := List.nodup_cons.mp h
    rw [merge, List.foldl_cons, ← merge, ih hrest, List.lookup_cons]
    by_cases hkey : key = item.1
    · have hnone : e.lookup key = none := by
        rw [List.lookup_eq_none_iff]
        rintro other hother
        have hne : other.1 ≠ item.1 := fun hsame => hfirst (hsame ▸ List.mem_map_of_mem hother)
        simpa [hkey] using hne.symm
      rw [hnone, hkey, Dict.lookup_set_self]
      simp
    · rw [Dict.lookup_set_other hkey, beq_eq_false_iff_ne.mpr hkey]

end Merging

section Templates

inductive RiskLevel where
  | low | medium | high | critical
  deriving DecidableEq, Repr

/-- `_RISK_ORDER`. -/
def RiskLevel.rank : RiskLevel → Nat
  | .low => 0
  | .medium => 1
  | .high => 2
  | .critical => 3

def RiskLevel.name : RiskLevel → Str
  | .low => js "low"
  | .medium => js "medium"
  | .high => js "high"
  | .critical => js "critical"

structure EnvelopeTemplate where
  actionId : Str
  target : Str
  parameters : Dict
  timeoutSeconds : Nat
  fallbackAction : Option Str

structure RunbookDef where
  name : Str
  defaultEnvelopes : List EnvelopeTemplate
  destructive : Bool
  minRiskLevel : RiskLevel

/-- The template that all of the runbooks have, for their parameters. -/
def receiptTemplate (parameters : Dict) : EnvelopeTemplate where
  actionId := receiptAction
  target := js "casper-testnet"
  parameters := parameters
  timeoutSeconds := 300
  fallbackAction := none

def receiptParameters (decision riskLevel treasuryAction : String) (others : Dict) : Dict :=
  [(js "decision", .str (js decision)), (js "risk_level", .str (js riskLevel)),
    (js "treasury_action", .str (js treasuryAction))] ++ others ++ [(js "evidence_uri", .str [])]

def Runbook.template : Runbook → EnvelopeTemplate
  | .rb001 =>
    receiptTemplate (receiptParameters "APPROVED" "medium" "record_governance_decision" [])
  | .rb002 =>
    receiptTemplate (receiptParameters "APPROVED_WITH_CAP" "high" "rebalance_liquidity_allocation"
      [(js "allocation_bps", .int 800), (js "max_drawdown_bps", .int 250)])
  | .rb003 =>
    receiptTemplate (receiptParameters "REJECTED" "high" "veto_unsafe_proposal"
      [(js "reason_code", .str (js "POLICY_LIMIT_EXCEEDED"))])
  | .rb004 =>
    receiptTemplate (receiptParameters "APPROVED_WITH_GUARDRAILS" "medium" "enable_risk_controls"
      [(js "allocation_bps", .int 500)])
  | .rb005 =>
    receiptTemplate (receiptParameters "APPROVED" "high" "approve_rwa_oracle_update"
      [(js "asset_class", .str (js "tokenized_receivables"))])
  | .rb006 =>
    receiptTemplate (receiptParameters "PAUSED" "critical" "pause_strategy_execution"
      [(js "reason_code", .str (js "EMERGENCY_RISK_THRESHOLD"))])

/-- `RUNBOOKS`. -/
def Runbook.definition (runbook : Runbook) : RunbookDef where
  name := match runbook with
    | .rb001 => js "Governance receipt anchor"
    | .rb002 => js "Treasury allocation cap"
    | .rb003 => js "Unsafe proposal veto"
    | .rb004 => js "Risk-control execution"
    | .rb005 => js "RWA oracle update"
    | .rb006 => js "Emergency governance pause"
  defaultEnvelopes := [runbook.template]
  destructive := runbook = .rb003 || runbook = .rb006
  minRiskLevel := match runbook with
    | .rb001 | .rb004 => .medium
    | .rb002 | .rb003 | .rb005 => .high
    | .rb006 => .critical

end Templates

section Parameters
variable (rt : Shared.CasperExecutor.Runtime)

/-- The attribute `get`, which only a dictionary has. -/
def asDict : Value → Except String Dict
  | .dict items => .ok items
  | _ => .error "object has no attribute 'get'"

def evidenceUriFor (baseUrl proposalId : Str) : Str := baseUrl ++ js "/evidence/" ++ proposalId

/-- `ctx.assessment_raw.get("evidence", {})`, where that is a dictionary. -/
def StrategyContext.evidence (ctx : StrategyContext) : Value :=
  match ctx.assessmentRaw with
  | .dict assessment => getOr assessment "evidence" (.dict [])
  | _ => .dict []

/-- `policy.get(key) or proposal_context.get(key)`. -/
def lookupIn (policy : Dict) (proposalContext : Value) (key : String) : Except String Value :=
  if truth (policy.get key) then .ok (policy.get key)
  else do return (← asDict proposalContext).get key

/-- `decision`, as the policy parameters have it. -/
def policyDecision (policy : Dict) (approvedBps : Value) : Value :=
  if truth (policy.get "dissent_hash") && truth approvedBps then
    .str (js "APPROVED_WITH_LIMITS")
  else orElse (policy.get "decision") (.str (js "APPROVED"))

/-- `_policy_parameters_from_context`; the base URL is the one that the environment names. -/
def policyParametersFromContext (baseUrl : Str) (ctx : StrategyContext) : Except String Dict := do
  let evidence ← asDict ctx.evidence
  let policy := orElse (evidence.get "policy_evaluation") (.dict [])
  let proposalContext := orElse (evidence.get "proposal_context") (.dict [])
  if truth policy then
    let policy ← asDict policy
    let approvedBps ← lookupIn policy proposalContext "approved_allocation_bps"
    let requestedBps ← lookupIn policy proposalContext "requested_allocation_bps"
    let proposalType ← lookupIn policy proposalContext "proposal_type"
    let riskScore ← lookupIn policy proposalContext "risk_score"
    return [
      (js "decision", policyDecision policy approvedBps),
      (js "proposal_type", proposalType),
      (js "policy_hash", policy.get "policy_hash"),
      (js "policy_version", policy.get "policy_version"),
      (js "dissent_hash", orElse (policy.get "dissent_hash") (.str [])),
      (js "risk_score", .str (text rt (orElse riskScore (.str [])))),
      (js "approved_allocation_bps", .str (text rt (orElse approvedBps (.str [])))),
      (js "requested_allocation_bps", .str (text rt (orElse requestedBps (.str [])))),
      (js "allocation_bps", orElse approvedBps (orElse requestedBps (.int 0))),
      (js "casper_network", .str (js "casper-test")),
      (js "agent_council_version", .str (js "concordia-dao-council-2026.06")),
      (js "evidence_uri", orElse (evidence.get "evidence_uri")
        (.str (evidenceUriFor baseUrl ctx.proposalId)))]
  else return [(js "evidence_uri", .str (evidenceUriFor baseUrl ctx.proposalId))]

end Parameters

section Plan
variable (rt : Shared.CasperExecutor.Runtime) (lower : Str → Str) (baseUrl : Str)

/-- What the model calls the planner with. The keys of a dictionary are different. -/
structure SubmitResponsePlan where
  runbook : Str
  targetService : Str
  additionalParameters : Dict
  nodup : (additionalParameters.map Prod.fst).Nodup

structure ExecutionEnvelope where
  actionId : Str
  target : Str
  parameters : Dict
  timeoutSeconds : Nat
  fallbackAction : Option Str

structure ResponsePlan where
  proposalId : Str
  runbook : Runbook
  envelopes : List ExecutionEnvelope
  riskLevel : RiskLevel
  revision : Nat

def buildEnvelope (input : SubmitResponsePlan) (policyParameters : Dict)
    (template : EnvelopeTemplate) : ExecutionEnvelope where
  actionId := template.actionId
  target := input.targetService
  parameters := merge (merge template.parameters input.additionalParameters) policyParameters
  timeoutSeconds := template.timeoutSeconds
  fallbackAction := template.fallbackAction

/-- `DESTRUCTIVE_ACTIONS`. -/
def destructiveActions : List Str := [receiptAction]

def determineRiskLevel (severity : Str) (envelopes : List ExecutionEnvelope) : RiskLevel :=
  if severity = js "P1" ∨ severity = js "P2" then .high
  else if envelopes.any fun envelope => envelope.actionId ∈ destructiveActions then .high
  else .low

/-- At least what the runbook asks for. -/
def riskFloor (runbook : Runbook) (level : RiskLevel) : RiskLevel :=
  let least := runbook.definition.minRiskLevel
  if level.rank < least.rank then least else level

def ExecutionEnvelope.withRiskLevel (level : RiskLevel) (envelope : ExecutionEnvelope) :
    ExecutionEnvelope :=
  { envelope with parameters := envelope.parameters.set (js "risk_level") (.str level.name) }

/-- `handle_submit_response_plan`, up to the plan that it submits. -/
def buildResponsePlan (ctx : StrategyContext) (input : SubmitResponsePlan) :
    Except String ResponsePlan := do
  let actualRunbook := ctx.actualRunbook lower input.runbook
  let policyParameters ← policyParametersFromContext rt baseUrl ctx
  let envelopes :=
    actualRunbook.definition.defaultEnvelopes.map (buildEnvelope input policyParameters)
  let riskLevel := riskFloor actualRunbook (determineRiskLevel ctx.severity envelopes)
  return {
    proposalId := ctx.proposalId
    runbook := actualRunbook
    envelopes := envelopes.map (·.withRiskLevel riskLevel)
    riskLevel := riskLevel
    revision := ctx.planRevision }

/-- The receipt request of the execution agent for an approved envelope. -/
def receiptOf (proposalId actionHash planHash : Str) (envelope : ExecutionEnvelope) :
    CasperReceiptRequest :=
  buildReceiptRequest rt proposalId actionHash
    (text rt (orElse (envelope.parameters.get "final_card_hash") (.str actionHash))) planHash
    envelope.parameters

end Plan

/-! What the plan carries of the decision and the cap. -/
section Outcome
variable {rt : Shared.CasperExecutor.Runtime} {lower : Str → Str} {baseUrl : Str}
variable {ctx : StrategyContext} {input : SubmitResponsePlan} {plan : ResponsePlan}

/-- What a runbook that rejects or pauses decides. -/
def Runbook.refusal : Runbook → Option Str
  | .rb003 => some (js "REJECTED")
  | .rb006 => some (js "PAUSED")
  | _ => none

def dictOrEmpty : Value → Dict
  | .dict items => items
  | _ => []

/-- The policy evaluation that the assessment carries. -/
def StrategyContext.policyEvaluation (ctx : StrategyContext) : Option Dict :=
  match (dictOrEmpty ctx.evidence).get "policy_evaluation" with
  | .dict policy => if policy.isEmpty then none else some policy
  | _ => none

def StrategyContext.proposalContext (ctx : StrategyContext) : Dict :=
  dictOrEmpty ((dictOrEmpty ctx.evidence).get "proposal_context")

/-- The policy's own value, or else that of the proposal context. -/
def StrategyContext.fact (ctx : StrategyContext) (policy : Dict) (key : String) : Value :=
  orElse (policy.get key) (ctx.proposalContext.get key)

theorem orElse_assoc (a b c : Value) : orElse (orElse a b) c = orElse a (orElse b c) := by
  unfold orElse
  by_cases ha : truth a <;> simp [ha]

theorem truth_dict (items : Dict) : truth (.dict items) = !items.isEmpty := rfl

theorem asDict_ok {v : Value} {d : Dict} (h : asDict v = .ok d) : v = .dict d := by
  cases v with
  | dict items => rw [Except.ok.inj h]
  | _ => cases h

theorem bind_ok {α β : Type} {x : Except String α} {f : α → Except String β} {b : β} :
    x >>= f = .ok b ↔ ∃ a, x = .ok a ∧ f a = .ok b := by
  cases x with
  | error text =>
    constructor
    · intro h
      cases h
    · rintro ⟨a, ha, -⟩
      cases ha
  | ok a =>
    constructor
    · exact fun h => ⟨a, rfl, h⟩
    · rintro ⟨a', ha, h⟩
      rwa [Except.ok.inj ha]

/-- `value or {}`, as a dictionary. -/
theorem dictOrEmpty_orElse {v : Value} {d : Dict} (h : orElse v (.dict []) = .dict d) :
    dictOrEmpty v = d := by
  rw [orElse] at h
  split at h
  · rw [h, dictOrEmpty]
  · next hfalse =>
    obtain rfl := Value.dict.inj h
    cases v with
    | dict items => simpa [truth, dictOrEmpty] using hfalse
    | _ => rfl

theorem lookupIn_ok {policy : Dict} {key : String} {v : Value}
    (h : lookupIn policy (orElse ((dictOrEmpty ctx.evidence).get "proposal_context") (.dict [])) key
      = .ok v) : v = ctx.fact policy key := by
  rw [lookupIn] at h
  rw [StrategyContext.fact, orElse]
  split at h
  · next htruth => rw [if_pos htruth, Except.ok.inj h]
  · next hfalse =>
    rw [if_neg hfalse]
    obtain ⟨d, hd, h⟩ := bind_ok.mp h
    obtain rfl := Except.ok.inj h
    rw [StrategyContext.proposalContext, dictOrEmpty_orElse (asDict_ok hd)]

/-- The policy parameters of an assessment with an evaluation. -/
def StrategyContext.policyParameters (rt : Shared.CasperExecutor.Runtime) (baseUrl : Str)
    (ctx : StrategyContext) (policy : Dict) : Dict :=
  let approvedBps := ctx.fact policy "approved_allocation_bps"
  let requestedBps := ctx.fact policy "requested_allocation_bps"
  [(js "decision", policyDecision policy approvedBps),
    (js "proposal_type", ctx.fact policy "proposal_type"),
    (js "policy_hash", policy.get "policy_hash"),
    (js "policy_version", policy.get "policy_version"),
    (js "dissent_hash", orElse (policy.get "dissent_hash") (.str [])),
    (js "risk_score", .str (text rt (orElse (ctx.fact policy "risk_score") (.str [])))),
    (js "approved_allocation_bps", .str (text rt (orElse approvedBps (.str [])))),
    (js "requested_allocation_bps", .str (text rt (orElse requestedBps (.str [])))),
    (js "allocation_bps", orElse approvedBps (orElse requestedBps (.int 0))),
    (js "casper_network", .str (js "casper-test")),
    (js "agent_council_version", .str (js "concordia-dao-council-2026.06")),
    (js "evidence_uri", orElse ((dictOrEmpty ctx.evidence).get "evidence_uri")
      (.str (evidenceUriFor baseUrl ctx.proposalId)))]

/-- The policy parameters, by whether the assessment carries an evaluation. -/
theorem policyParameters_ok {parameters : Dict}
    (h : policyParametersFromContext rt baseUrl ctx = .ok parameters) :
    (∃ policy, ctx.policyEvaluation = some policy ∧
        parameters = ctx.policyParameters rt baseUrl policy) ∨
      ctx.policyEvaluation = none ∧
        parameters = [(js "evidence_uri", .str (evidenceUriFor baseUrl ctx.proposalId))] := by
  obtain ⟨evidence, hevidence, h⟩ := bind_ok.mp h
  have hdict : dictOrEmpty ctx.evidence = evidence := by rw [asDict_ok hevidence, dictOrEmpty]
  rw [← hdict] at h
  simp only at h
  split at h
  · next htruth =>
    obtain ⟨policy, hpolicy, h⟩ := bind_ok.mp h
    obtain ⟨approved, happroved, h⟩ := bind_ok.mp h
    obtain ⟨requested, hrequested, h⟩ := bind_ok.mp h
    obtain ⟨proposalType, htype, h⟩ := bind_ok.mp h
    obtain ⟨riskScore, hrisk, h⟩ := bind_ok.mp h
    obtain rfl := Except.ok.inj h
    have hfound := asDict_ok hpolicy
    rw [hfound, truth] at htruth
    refine .inl ⟨policy, ?_, ?_⟩
    · rw [orElse] at hfound
      split at hfound
      · rw [StrategyContext.policyEvaluation, hfound]
        exact if_neg (by simpa using htruth)
      · obtain rfl := Value.dict.inj hfound
        cases htruth
    · rw [lookupIn_ok happroved, lookupIn_ok hrequested, lookupIn_ok htype, lookupIn_ok hrisk]
      rfl
  · next hfalse =>
    obtain rfl := Except.ok.inj h
    refine .inr ⟨?_, rfl⟩
    rw [StrategyContext.policyEvaluation]
    split
    · next policy hpolicy =>
      rw [hpolicy, orElse] at hfalse
      by_cases hempty : policy.isEmpty = true
      · exact if_pos hempty
      · simp [truth, hempty] at hfalse
    · rfl

/-- The parameters of the one envelope. -/
def envelopeParameters (runbook : Runbook) (level : RiskLevel) (input : SubmitResponsePlan)
    (policyParameters : Dict) : Dict :=
  (merge (merge runbook.template.parameters input.additionalParameters) policyParameters).set
    (js "risk_level") (.str level.name)

theorem plan_ok (h : buildResponsePlan rt lower baseUrl ctx input = .ok plan) :
    ∃ policyParameters, policyParametersFromContext rt baseUrl ctx = .ok policyParameters ∧
      plan.runbook = ctx.actualRunbook lower input.runbook ∧
      plan.riskLevel = riskFloor plan.runbook .high ∧
      ∃ envelope, plan.envelopes = [envelope] ∧ envelope.parameters =
        envelopeParameters plan.runbook plan.riskLevel input policyParameters := by
  obtain ⟨policyParameters, hpolicy, h⟩ := bind_ok.mp h
  obtain rfl := Except.ok.inj h
  refine ⟨policyParameters, hpolicy, rfl, ?_, _, rfl, rfl⟩
  simp only
  congr 1
  unfold determineRiskLevel
  -- the only action of the runbooks is a destructive one
  split
  · rfl
  · apply if_pos
    simp only [Runbook.definition, List.map_cons, List.map_nil, List.any_cons, List.any_nil,
      Bool.or_false, decide_eq_true_eq, buildEnvelope]
    cases ctx.actualRunbook lower input.runbook <;> exact List.mem_singleton.mpr rfl

theorem policyParameters_keys (policy : Dict) :
    ((ctx.policyParameters rt baseUrl policy).map Prod.fst).Nodup := by
  simp only [StrategyContext.policyParameters, List.map_cons, List.map_nil]
  decide

/-- What is in the policy parameters is in the envelope. -/
theorem get_policyParameter {runbook : Runbook} {level : RiskLevel} {policy : Dict} {key : String}
    {v : Value} (hkey : js key ≠ js "risk_level")
    (h : (ctx.policyParameters rt baseUrl policy).lookup (js key) = some v) :
    (envelopeParameters runbook level input (ctx.policyParameters rt baseUrl policy)).get key =
      v := by
  rw [envelopeParameters, Dict.get, Dict.lookup_set_other hkey,
    lookup_merge (policyParameters_keys policy), h]
  rfl

theorem get_riskLevel {runbook : Runbook} {level : RiskLevel} {policyParameters : Dict} :
    (envelopeParameters runbook level input policyParameters).get "risk_level" =
      .str level.name := by
  rw [envelopeParameters, Dict.get, Dict.lookup_set_self]
  rfl

/-- Without an evaluation the decision is the model's, or else the template's. -/
theorem get_decision_unevaluated {runbook : Runbook} {level : RiskLevel} {uri : Str} :
    (envelopeParameters runbook level input [(js "evidence_uri", .str uri)]).get "decision" =
      ((input.additionalParameters.lookup (js "decision")).or
        (runbook.template.parameters.lookup (js "decision"))).getD .none := by
  rw [envelopeParameters, Dict.get, Dict.lookup_set_other (by decide),
    lookup_merge (by simp), lookup_merge input.nodup]
  rfl

/-- The values that the outcome of a proposal is in. -/
def outcomeKeys : List String :=
  ["decision", "policy_hash", "dissent_hash", "risk_level", "allocation_bps",
    "approved_allocation_bps"]

def ExecutionEnvelope.outcome (envelope : ExecutionEnvelope) : List Value :=
  outcomeKeys.map envelope.parameters.get

def receiptOutcome (request : CasperReceiptRequest) : List Str :=
  [request.decision, request.policyHash, request.dissentHash, request.riskLevel,
    request.approvedAllocationBps]

/-- The receipt has its outcome from that of the envelope. -/
theorem receiptOutcome_congr {envelope envelope' : ExecutionEnvelope}
    (h : envelope.outcome = envelope'.outcome) (proposalId actionHash planHash : Str) :
    receiptOutcome (receiptOf rt proposalId actionHash planHash envelope) =
      receiptOutcome (receiptOf rt proposalId actionHash planHash envelope') := by
  simp only [ExecutionEnvelope.outcome, outcomeKeys, List.map_cons, List.cons.injEq] at h
  obtain ⟨hdecision, hpolicy, hdissent, hrisk, hallocation, happroved, -⟩ := h
  simp only [receiptOutcome, receiptOf, buildReceiptRequest, parameterText, hdecision, hpolicy,
    hdissent, hrisk, hallocation, happroved]

theorem truth_str (s : Str) : truth (.str s) = !s.isEmpty := rfl

/-- The text of the cap in the receipt: the approved allocation, or else the requested one. -/
theorem allocation_text (approved requested : Value) :
    text rt (orElse (.str (text rt (orElse approved (.str []))))
      (orElse (orElse approved (orElse requested (.int 0))) (.str []))) =
    text rt (orElse approved (orElse requested (.str []))) := by
  by_cases happroved : truth approved = true
  · have hself : ∀ v, orElse approved v = approved := fun v => if_pos happroved
    rw [hself, hself, hself, hself]
    rw [orElse]
    split <;> rfl
  · have hother : ∀ v, orElse approved v = v := fun v => if_neg happroved
    rw [hother, hother, hother]
    have hempty : ∀ v, orElse (.str (text rt (.str []))) v = v := fun v =>
      if_neg (by simp [text, truth])
    rw [hempty]
    by_cases hrequested : truth requested = true
    · have hself : ∀ v, orElse requested v = requested := fun v => if_pos hrequested
      rw [hself, hself]
    · have hother : ∀ v, orElse requested v = v := fun v => if_neg hrequested
      rw [hother, hother]
      rfl

/-- The argument that the contract gets for the cap. -/
def allocationArg (rt : Shared.CasperExecutor.Runtime) (request : CasperReceiptRequest) :
    Except String ClValue :=
  runtimeArg rt "approved_allocation_bps" request.approvedAllocationBps

theorem allocationArg_iff {request : CasperReceiptRequest} {m : Nat} :
    allocationArg rt request = .ok (.u32 m) ↔
      u32Arg rt "approved_allocation_bps" request.approvedAllocationBps = .ok m := by
  rw [allocationArg, runtimeArg, if_neg (by decide), if_pos (by decide)]
  cases u32Arg rt "approved_allocation_bps" request.approvedAllocationBps with
  | error text => exact ⟨nofun, nofun⟩
  | ok n =>
    change Except.ok (ClValue.u32 n) = _ ↔ _
    simp

/-- The decided outcome and the cap in every envelope of a plan and in its receipt. -/
structure Kept (rt : Shared.CasperExecutor.Runtime) (lower : Str → Str) (baseUrl : Str)
    (ctx : StrategyContext) (plan : ResponsePlan) : Prop where
  refusal : ∀ decision, plan.runbook.refusal = some decision → ∀ envelope ∈ plan.envelopes,
    envelope.parameters.get "decision" = .str decision ∧
    ∀ proposalId actionHash planHash,
      (receiptOf rt proposalId actionHash planHash envelope).decision = decision
  cap : ∀ policy approved, ctx.policyEvaluation = some policy →
    policy.get "approved_allocation_bps" = .int approved → ∀ envelope ∈ plan.envelopes,
    ∀ proposalId actionHash planHash, ∀ m : Nat,
      allocationArg rt (receiptOf rt proposalId actionHash planHash envelope) = .ok (.u32 m) →
      (m : Int) ≤ approved
  independent : ctx.policyEvaluation ≠ none → ∀ other plan',
    buildResponsePlan rt lower baseUrl ctx other = .ok plan' →
    plan'.envelopes.map (·.outcome) = plan.envelopes.map (·.outcome) ∧
    ∀ proposalId actionHash planHash,
      plan'.envelopes.map (receiptOutcome ∘ receiptOf rt proposalId actionHash planHash) =
        plan.envelopes.map (receiptOutcome ∘ receiptOf rt proposalId actionHash planHash)

/-- Nothing overrides the refusal: an evaluation decides the same and limits nothing, and without
one the model names no other decision. -/
def RefusalStands (ctx : StrategyContext) (input : SubmitResponsePlan) (decision : Str) : Prop :=
  match ctx.policyEvaluation with
  | some policy =>
    (truth (policy.get "dissent_hash") &&
      truth (ctx.fact policy "approved_allocation_bps")) = false ∧
    policy.get "decision" = .str decision
  | none => ∀ v, input.additionalParameters.lookup (js "decision") = some v → v = .str decision

/-- No positive number stands in for a cap of zero. -/
def ZeroStands (rt : Shared.CasperExecutor.Runtime) (ctx : StrategyContext) : Prop :=
  ∀ policy, ctx.policyEvaluation = some policy →
    policy.get "approved_allocation_bps" = .int 0 → ∀ m,
      u32Arg rt "approved_allocation_bps"
        (text rt (orElse (ctx.proposalContext.get "approved_allocation_bps")
          (orElse (policy.get "requested_allocation_bps")
            (orElse (ctx.proposalContext.get "requested_allocation_bps") (.str []))))) = .ok m →
      m = 0

theorem refusal_cases {runbook : Runbook} {decision : Str} (h : runbook.refusal = some decision) :
    runbook.template.parameters.lookup (js "decision") = some (.str decision) ∧
      decision ≠ [] ∧ decision ≠ js "APPROVED_WITH_LIMITS" ∧ decision ≠ js "APPROVED" := by
  cases runbook <;> cases h
  · exact ⟨rfl, by decide⟩
  · exact ⟨rfl, by decide⟩

/-- The decision in the envelope is the refusal exactly where nothing overrides it. -/
theorem refusal_iff {decision : Str} {policyParameters : Dict} {level : RiskLevel}
    (hpolicy : policyParametersFromContext rt baseUrl ctx = .ok policyParameters)
    {runbook : Runbook} (h : runbook.refusal = some decision) :
    (envelopeParameters runbook level input policyParameters).get "decision" = .str decision ↔
      RefusalStands ctx input decision := by
  obtain ⟨htemplate, hne, hlimits, happroved⟩ := refusal_cases h
  rcases policyParameters_ok hpolicy with ⟨policy, hpresent, rfl⟩ | ⟨habsent, rfl⟩
  · rw [RefusalStands, hpresent]
    have hget := @get_policyParameter rt baseUrl ctx input runbook level policy "decision"
      (policyDecision policy (ctx.fact policy "approved_allocation_bps")) (by decide) rfl
    rw [hget, policyDecision]
    by_cases hlimited : (truth (policy.get "dissent_hash") &&
        truth (ctx.fact policy "approved_allocation_bps")) = true
    · rw [if_pos hlimited]
      constructor
      · intro hsame
        exact absurd (Value.str.inj hsame).symm hlimits
      · rintro ⟨hfree, -⟩
        rw [hfree] at hlimited
        cases hlimited
    · rw [if_neg hlimited]
      simp only [Bool.not_eq_true] at hlimited
      constructor
      · intro hsame
        refine ⟨hlimited, ?_⟩
        rw [orElse] at hsame
        split at hsame
        · exact hsame
        · exact absurd (Value.str.inj hsame).symm happroved
      · rintro ⟨-, hsame⟩
        rw [hsame, orElse, if_pos]
        simpa [truth] using hne
  · rw [RefusalStands, habsent, get_decision_unevaluated, htemplate]
    cases input.additionalParameters.lookup (js "decision") with
    | none =>
      refine iff_of_true rfl fun v hv => ?_
      cases hv
    | some v =>
      constructor
      · rintro hv _ ⟨⟩
        exact hv
      · exact fun hv => hv v rfl

/-- The cap in the receipt is the evaluated one, where no stand-in for zero is in its place. -/
theorem allocation_policy {policy : Dict} {level : RiskLevel} {runbook : Runbook}
    {envelope : ExecutionEnvelope} (h : envelope.parameters =
      envelopeParameters runbook level input (ctx.policyParameters rt baseUrl policy))
    (proposalId actionHash planHash : Str) :
    (receiptOf rt proposalId actionHash planHash envelope).approvedAllocationBps =
      text rt (orElse (ctx.fact policy "approved_allocation_bps")
        (orElse (ctx.fact policy "requested_allocation_bps") (.str []))) := by
  have happroved := @get_policyParameter rt baseUrl ctx input runbook level policy
    "approved_allocation_bps" _ (by decide) rfl
  have hallocation := @get_policyParameter rt baseUrl ctx input runbook level policy
    "allocation_bps" _ (by decide) rfl
  rw [receiptOf, buildReceiptRequest]
  simp only
  rw [h, happroved, hallocation, allocation_text]

/-- The cap of every receipt holds exactly where a cap of zero stands. -/
theorem cap_iff {level : RiskLevel} {runbook : Runbook} {envelope : ExecutionEnvelope}
    {policyParameters : Dict}
    (hpolicy : policyParametersFromContext rt baseUrl ctx = .ok policyParameters)
    (h : envelope.parameters = envelopeParameters runbook level input policyParameters) :
    (∀ policy approved, ctx.policyEvaluation = some policy →
      policy.get "approved_allocation_bps" = .int approved →
      ∀ proposalId actionHash planHash, ∀ m : Nat,
        allocationArg rt (receiptOf rt proposalId actionHash planHash envelope) = .ok (.u32 m) →
        (m : Int) ≤ approved) ↔ ZeroStands rt ctx := by
  have htext : ∀ policy, ctx.policyEvaluation = some policy → ∀ proposalId actionHash planHash,
      (receiptOf rt proposalId actionHash planHash envelope).approvedAllocationBps =
        text rt (orElse (ctx.fact policy "approved_allocation_bps")
          (orElse (ctx.fact policy "requested_allocation_bps") (.str []))) := by
    intro policy hpresent
    rcases policyParameters_ok hpolicy with ⟨policy', hpresent', rfl⟩ | ⟨habsent, -⟩
    · obtain rfl := Option.some.inj (hpresent.symm.trans hpresent')
      exact allocation_policy h
    · rw [hpresent] at habsent
      cases habsent
  -- a cap of zero is false, so the next value of the chain is read
  have hzero : ∀ policy : Dict, policy.get "approved_allocation_bps" = .int 0 →
      orElse (ctx.fact policy "approved_allocation_bps")
        (orElse (ctx.fact policy "requested_allocation_bps") (.str [])) =
      orElse (ctx.proposalContext.get "approved_allocation_bps")
        (orElse (policy.get "requested_allocation_bps")
          (orElse (ctx.proposalContext.get "requested_allocation_bps") (.str []))) := by
    intro policy hcap
    rw [StrategyContext.fact, StrategyContext.fact, hcap, orElse_assoc (policy.get _)]
    rfl
  constructor
  · intro hheld policy hpresent hcap m harg
    have hle := hheld policy 0 hpresent hcap [] [] [] m
      (allocationArg_iff.mpr (by rw [htext policy hpresent, hzero policy hcap, harg]))
    omega
  · intro hstands policy approved hpresent hcap proposalId actionHash planHash m harg
    rw [allocationArg_iff, htext policy hpresent] at harg
    by_cases happroved : approved = 0
    · subst happroved
      rw [hzero policy hcap] at harg
      rw [hstands policy hpresent hcap m harg]
      exact le_refl _
    · have hself : orElse (ctx.fact policy "approved_allocation_bps")
          (orElse (ctx.fact policy "requested_allocation_bps") (.str [])) = .int approved := by
        have htruth : truth (.int approved) = true := by simpa [truth] using happroved
        have hfact : ctx.fact policy "approved_allocation_bps" = .int approved := by
          rw [StrategyContext.fact, hcap]
          exact if_pos htruth
        rw [hfact]
        exact if_pos htruth
      rw [hself] at harg
      exact (u32Arg_int harg).le

/-- With an evaluation the outcome is that of the policy and the runbook alone. -/
theorem outcome_independent (h : buildResponsePlan rt lower baseUrl ctx input = .ok plan)
    (hpresent : ctx.policyEvaluation ≠ none) {other : SubmitResponsePlan} {plan' : ResponsePlan}
    (h' : buildResponsePlan rt lower baseUrl ctx other = .ok plan') :
    ∃ envelope envelope', plan.envelopes = [envelope] ∧ plan'.envelopes = [envelope'] ∧
      envelope'.outcome = envelope.outcome := by
  obtain ⟨parameters, hpolicy, hrunbook, hlevel, envelope, henvelopes, henvelope⟩ := plan_ok h
  obtain ⟨parameters', hpolicy', hrunbook', hlevel', envelope', henvelopes', henvelope'⟩ :=
    plan_ok h'
  obtain rfl := Except.ok.inj (hpolicy.symm.trans hpolicy')
  rcases policyParameters_ok hpolicy with ⟨policy, hpolicy, rfl⟩ | ⟨habsent, -⟩
  · refine ⟨envelope, envelope', henvelopes, henvelopes', ?_⟩
    have hsame : plan'.runbook = plan.runbook := hrunbook'.trans hrunbook.symm
    simp only [ExecutionEnvelope.outcome, outcomeKeys, List.map_cons, List.map_nil, henvelope,
      henvelope', get_riskLevel, hlevel, hlevel', hsame]
    rw [get_policyParameter (by decide) rfl, get_policyParameter (by decide) rfl,
      get_policyParameter (by decide) rfl, get_policyParameter (by decide) rfl,
      get_policyParameter (by decide) rfl, get_policyParameter (by decide) rfl,
      get_policyParameter (by decide) rfl, get_policyParameter (by decide) rfl,
      get_policyParameter (by decide) rfl, get_policyParameter (by decide) rfl]
  · exact absurd habsent hpresent

/-- A plan that is built keeps the decided outcome and the cap exactly when nothing overrides the
refusal of its runbook and no positive number stands in for a cap of zero. With an evaluation, no
additional parameter has a say in the outcome. -/
theorem outcome_kept_iff (h : buildResponsePlan rt lower baseUrl ctx input = .ok plan) :
    Kept rt lower baseUrl ctx plan ↔
      (∀ decision, (ctx.actualRunbook lower input.runbook).refusal = some decision →
        RefusalStands ctx input decision) ∧ ZeroStands rt ctx := by
  obtain ⟨parameters, hpolicy, hrunbook, hlevel, envelope, henvelopes, henvelope⟩ := plan_ok h
  have hmem : ∀ e ∈ plan.envelopes, e = envelope := by simp [henvelopes]
  rw [← hrunbook]
  constructor
  · rintro ⟨hrefusal, hcap, -⟩
    constructor
    · intro decision hdecision
      have hkept := (hrefusal decision hdecision envelope (by simp [henvelopes])).1
      rw [henvelope] at hkept
      exact (refusal_iff hpolicy hdecision).mp hkept
    · apply (cap_iff hpolicy henvelope).mp
      intro policy approved hpresent happroved
      exact hcap policy approved hpresent happroved envelope (by simp [henvelopes])
  · rintro ⟨hrefusal, hzero⟩
    constructor
    case refusal =>
      intro decision hdecision e he
      obtain rfl := hmem e he
      have hkept := (@refusal_iff rt baseUrl ctx input decision parameters plan.riskLevel hpolicy _
        hdecision).mpr (hrefusal decision hdecision)
      rw [← henvelope] at hkept
      refine ⟨hkept, fun proposalId actionHash planHash => ?_⟩
      have hne := (refusal_cases hdecision).2.1
      rw [receiptOf, buildReceiptRequest]
      simp only
      rw [parameterText, hkept, orElse, if_pos (by simpa [truth] using hne), text]
    case cap =>
      intro policy approved hpresent happroved e he
      obtain rfl := hmem e he
      exact (cap_iff hpolicy henvelope).mpr hzero policy approved hpresent happroved
    case independent =>
      intro hpresent other plan' h'
      obtain ⟨e, e', he, he', hsame⟩ := outcome_independent h hpresent h'
      rw [he, he']
      refine ⟨by simp [hsame], fun proposalId actionHash planHash => ?_⟩
      simp [receiptOutcome_congr hsame]

/-- The evaluation of a proposal overrides every refusal. -/
theorem refusal_overridden {policyRuntime : Shared.DaoPolicy.Runtime} {constitution payload : Dict}
    {now : Str} {evaluation : PolicyEvaluation}
    (h : evaluateProposalPolicy policyRuntime constitution payload now = .ok evaluation)
    (hcarried : ctx.policyEvaluation = some evaluation.dump) {runbook : Runbook} {decision : Str}
    (hrefusal : runbook.refusal = some decision) : ¬ RefusalStands ctx input decision := by
  rw [RefusalStands, hcarried]
  rintro ⟨-, hsame⟩
  have hdecision : evaluation.decision = decision := Value.str.inj hsame
  have hmem := evaluation_decision h
  rw [hdecision] at hmem
  revert hmem
  cases runbook <;> cases hrefusal <;> decide

end Outcome

section Sample

def sampleExecutor : Shared.CasperExecutor.Runtime where
  sha256 := fun _ => Vector.replicate 32 0
  strOther := fun _ => []
  isOtherDigit := fun _ => false
  parseInt := fun _ => .error ""

/-- A treasury proposal of severity P1 that asks for thirty percent, and what the policy approves
of it. -/
def evaluatedProposal (rootCause : String) (approvedBps : Int) : StrategyContext where
  proposalId := js "DAO-PROP-9"
  assessmentRaw := .dict [(js "evidence", .dict [
    (js "policy_evaluation", .dict [(js "requested_allocation_bps", .int 3000),
      (js "approved_allocation_bps", .int approvedBps),
      (js "decision", .str (js "APPROVED_WITH_LIMITS")), (js "dissent_hash", .str (js "sha256:00"))]),
    (js "proposal_context", .dict [(js "requested_allocation_bps", .int 3000),
      (js "approved_allocation_bps", .int approvedBps)])])]
  severity := js "P1"
  rootCause := js rootCause
  recommendedAction := []
  planRevision := 1
  revisionInstructions := []
  rejectedRunbook := []

def bareInput : SubmitResponsePlan := ⟨js "RB-001", js "casper-testnet", [], List.nodup_nil⟩

/-- What the receipts of a plan say. -/
def decisionsAndCaps (ctx : StrategyContext) : Option (Runbook × List (Str × Option ClValue)) :=
  (buildResponsePlan sampleExecutor id [] ctx bareInput).toOption.map fun plan =>
    (plan.runbook, plan.envelopes.map fun envelope =>
      let request := receiptOf sampleExecutor [] [] [] envelope
      (request.decision, (allocationArg sampleExecutor request).toOption))

theorem plan_of_decisionsAndCaps {ctx : StrategyContext} {runbook : Runbook}
    {receipts : List (Str × Option ClValue)}
    (h : decisionsAndCaps ctx = some (runbook, receipts)) : ∃ plan,
      buildResponsePlan sampleExecutor id [] ctx bareInput = .ok plan ∧ plan.runbook = runbook ∧
      (plan.envelopes.map fun envelope =>
        let request := receiptOf sampleExecutor [] [] [] envelope
        (request.decision, (allocationArg sampleExecutor request).toOption)) = receipts := by
  unfold decisionsAndCaps at h
  cases hplan : buildResponsePlan sampleExecutor id [] ctx bareInput with
  | error text =>
    rw [hplan] at h
    cases h
  | ok plan =>
    rw [hplan] at h
    obtain ⟨hrunbook, hreceipts⟩ := Prod.mk.inj (Option.some.inj h)
    exact ⟨plan, rfl, hrunbook, hreceipts⟩

/-- Of thirty percent eight are approved, and eight reach the receipt. -/
theorem outcome_kept_sample : ∃ plan,
    buildResponsePlan sampleExecutor id [] (evaluatedProposal "yield drift" 800) bareInput =
      .ok plan ∧ plan.runbook = .rb002 ∧
    Kept sampleExecutor id [] (evaluatedProposal "yield drift" 800) plan := by
  obtain ⟨plan, hplan, hrunbook, -⟩ := plan_of_decisionsAndCaps
    (show decisionsAndCaps (evaluatedProposal "yield drift" 800) =
        some (.rb002, [(js "APPROVED_WITH_LIMITS", some (.u32 800))]) by
      decide +kernel)
  refine ⟨plan, hplan, hrunbook, (outcome_kept_iff hplan).mpr ⟨?_, ?_⟩⟩
  · obtain ⟨_, -, hactual, -⟩ := plan_ok hplan
    rw [← hactual, hrunbook]
    exact nofun
  · intro policy hpolicy hzero
    obtain rfl := Option.some.inj hpolicy
    cases hzero

/-- The pause of a drained vault reaches the receipt as approved, and with all of the allocation
that was asked for in place of the nothing that was approved. -/
theorem pause_reaches_receipt_approved : ∃ plan,
    buildResponsePlan sampleExecutor id [] (evaluatedProposal "exploit" 0) bareInput = .ok plan ∧
    plan.runbook = .rb006 ∧
    (¬ ∀ envelope ∈ plan.envelopes, (receiptOf sampleExecutor [] [] [] envelope).decision =
      js "PAUSED") ∧
    (¬ ∀ envelope ∈ plan.envelopes, ∀ m : Nat,
      allocationArg sampleExecutor (receiptOf sampleExecutor [] [] [] envelope) = .ok (.u32 m) →
      m ≤ 0) ∧
    ¬ Kept sampleExecutor id [] (evaluatedProposal "exploit" 0) plan := by
  obtain ⟨plan, hplan, hrunbook, hreceipts⟩ := plan_of_decisionsAndCaps
    (show decisionsAndCaps (evaluatedProposal "exploit" 0) =
        some (.rb006, [(js "APPROVED_WITH_LIMITS", some (.u32 3000))]) by
      decide +kernel)
  obtain ⟨envelope, henvelopes, hreceipt⟩ := List.map_eq_singleton_iff.mp hreceipts
  have hmem : envelope ∈ plan.envelopes := by simp [henvelopes]
  obtain ⟨hdecision, hcap⟩ := Prod.mk.inj hreceipt
  have hrefused : ¬ ∀ e ∈ plan.envelopes, (receiptOf sampleExecutor [] [] [] e).decision =
      js "PAUSED" := by
    intro hpaused
    have hsame := hdecision.symm.trans (hpaused envelope hmem)
    revert hsame
    decide
  refine ⟨plan, hplan, hrunbook, hrefused, fun hbounded => ?_, fun hkept => hrefused ?_⟩
  · have harg : allocationArg sampleExecutor (receiptOf sampleExecutor [] [] [] envelope) =
        .ok (.u32 3000) := by
      cases hvalue : allocationArg sampleExecutor (receiptOf sampleExecutor [] [] [] envelope) with
      | error text =>
        rw [hvalue] at hcap
        cases hcap
      | ok value =>
        rw [hvalue] at hcap
        rw [Option.some.inj hcap]
    exact absurd (hbounded envelope hmem 3000 harg) (by decide)
  · intro e he
    exact (hkept.refusal (js "PAUSED") (by rw [hrunbook]; rfl) e he).2 [] [] []

end Sample

end Concordia.Alden
