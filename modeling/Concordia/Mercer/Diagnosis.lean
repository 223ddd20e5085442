import Concordia.Verity.Review

/-! Mercer's diagnosis. A triage decision opens a context for its proposal, and a challenge opens
it again under the next revision. Five evidence tools fill the context, one submission closes it. -/
namespace Concordia.Mercer
open Concordia.Python Concordia.Shared.CardIntake
open Concordia.Verity (Message Saga Severity Numbers hasSealFields textOf isNumber)
open Concordia.Js hiding Value

section Evidence

inductive Tool where
  | treasuryMetrics | riskEvents | governanceEvents | policyCompliance | casperNodeStatus
  deriving DecidableEq, Repr

/-- `REQUIRED_TOOLS`, in the order in which `run_local_diagnosis` calls them. -/
def requiredTools : List Tool :=
  [.treasuryMetrics, .riskEvents, .governanceEvents, .policyCompliance, .casperNodeStatus]

theorem mem_requiredTools (tool : Tool) : tool ∈ requiredTools := by
  cases tool with
  | treasuryMetrics | riskEvents | governanceEvents | policyCompliance | casperNodeStatus => decide

/-- `ctx.tool_results`. -/
abbrev Results := Tool → Option Dict

/-- `ctx.tool_results.get(tool, {})`. -/
def Results.of (results : Results) (tool : Tool) : Dict := (results tool).getD []

/-- `a >= b`; a value that is no number raises an error. -/
def reaches (numbers : Numbers) (a b : Value) : Option Bool :=
  if isNumber a then some (numbers.atLeast a b) else none

def below (numbers : Numbers) (a b : Value) : Option Bool :=
  if isNumber a then some (numbers.less a b) else none

/-- `a or b`, where `b` is looked at only when `a` is false. -/
def orElse (a b : Option Bool) : Option Bool := do
  if ← a then some true else b

/-- `derive_severity`. -/
def deriveSeverity (numbers : Numbers) (treasuryMetrics policyCompliance : Dict) : Option Severity :=
  let exposure := getOr treasuryMetrics "risk_exposure_pct" (.float (js "0.0"))
  let volatility := getOr treasuryMetrics "volatility_bps" (.int 0)
  let compliance := getOr policyCompliance "policy_compliance_percentage" (.float (js "100.0"))
  do
    if ← orElse (reaches numbers exposure (.float (js "25.0")))
        (below numbers compliance (.float (js "95.0"))) then some .p1
    else if ← orElse (reaches numbers exposure (.float (js "10.0")))
        (reaches numbers volatility (.int 5000)) then some .p2
    else if ← orElse (reaches numbers exposure (.float (js "2.0")))
        (reaches numbers volatility (.int 2000)) then some .p3
    else some .p4

end Evidence

structure ProposalContext where
  proposalId : Str
  roomId : Str
  roomMessageId : Str
  sourceCardHash : Str
  toolResults : Results
  toolsCompleted : List Tool
  submitted : Bool
  revision : Nat
  challengeRequest : Option Str

/-- A tool has answered. -/
def ProposalContext.cache (ctx : ProposalContext) (tool : Tool) (data : Dict) : ProposalContext :=
  { ctx with
    toolResults := Function.update ctx.toolResults tool (some data)
    toolsCompleted := ctx.toolsCompleted.insert tool }

/-- What a diagnosis is worded with, by the rules or by a language model. -/
structure Wording where
  rootCauseHypothesis : Str
  recommendedAction : Str
  blastRadius : List Str

/-- The card; `signals` are the anomalies that the tools report. -/
structure Assessment where
  proposalId : Str
  severity : Severity
  evidenceStrength : Str
  wording : Wording
  revision : Nat
  signals : List (Tool × Value)
  toolsCompleted : List Tool
  challengeResponse : Option Str

/-- An assessment in the room, what it was made of, and whether its confirmation was answered. -/
structure Publication where
  assessment : Assessment
  results : Results
  answered : Bool

structure TriageDecision where
  proposalId : Str
  suppress : Bool

structure Verdict where
  proposalId : Str
  challenge : Bool
  challengeRequest : Option Str

/-- `contexts` is `_trusted_context`; `published` records what the rooms have seen. -/
structure State where
  contexts : Str → Option ProposalContext
  published : List Publication

namespace State

def initial : State where
  contexts _ := none
  published := []

variable (s : State) (ctx : ProposalContext)

def store : State :=
  { s with contexts := Function.update s.contexts ctx.proposalId (some ctx) }

/-- Prepare, post and confirm; only a confirmation that answers closes the context. -/
def submit (a : Assessment) (saga : Saga) : State :=
  let posted := { s with
    published := s.published ++
      if saga.posts then [⟨a, ctx.toolResults, saga = .confirmed⟩] else [] }
  if saga = .confirmed then posted.store { ctx with submitted := true } else posted

def publishedOf (p : Str) : List Publication :=
  s.published.filter fun e => e.assessment.proposalId = p

end State

/-- The configuration of the agent. The validations are those of the cards' models; floating-point
arithmetic stays with `evidenceStrength`. -/
structure Agent where
  floats : FloatFormat
  numbers : Numbers
  diagnosisAgentId : Str
  triageAgentId : Str
  safetyReviewerAgentId : Str
  activeProposals : List Str
  validateTriage : Dict → Option TriageDecision
  validateVerdict : Dict → Option Verdict
  evidenceStrength : Results → Str
  triage_proposalId : ∀ card t, validateTriage card = some t →
    card.lookup (js "proposal_id") = some (.str t.proposalId)
  verdict_proposalId : ∀ card v, validateVerdict card = some v →
    card.lookup (js "proposal_id") = some (.str v.proposalId)
  verdict_decision : ∀ card v, validateVerdict card = some v → v.challenge = true →
    card.lookup (js "decision") = some (.str (js "CHALLENGE"))

namespace Agent
variable (agent : Agent)

/-- The card that `handle_submit_assessment` builds; `none` where an error is raised. -/
def assess (ctx : ProposalContext) (wording : Wording) : Option Assessment :=
  (deriveSeverity agent.numbers (ctx.toolResults.of .treasuryMetrics)
    (ctx.toolResults.of .policyCompliance)).map fun severity =>
    { proposalId := ctx.proposalId
      severity := severity
      evidenceStrength := agent.evidenceStrength ctx.toolResults
      wording := wording
      revision := ctx.revision
      signals := requiredTools.map fun tool =>
        (tool, getOr (ctx.toolResults.of tool) "anomaly_detected" (.bool false))
      toolsCompleted := ctx.toolsCompleted
      challengeResponse := ctx.challengeRequest }

/-- `handle_query_…`; a failed query leaves the context alone. -/
def handleQuery (s : State) (proposalId : Str) (tool : Tool) (outcome : Option Dict) : State :=
  match s.contexts proposalId, outcome with
  | some ctx, some data => s.store (ctx.cache tool data)
  | _, _ => s

/-- `handle_submit_assessment`. Without a reviewer to recruit nothing is posted. -/
def handleSubmitAssessment (s : State) (proposalId : Str) (wording : Wording) (saga : Saga) :
    State :=
  match s.contexts proposalId with
  | none => s
  | some ctx =>
    if ctx.submitted then s
    else if requiredTools.any fun tool => tool ∉ ctx.toolsCompleted then s
    else
      match agent.assess ctx wording with
      | none => s
      | some a => s.submit ctx a (saga.within !agent.safetyReviewerAgentId.isEmpty)

/-- A message with what the tools answer, the wording, and how far the submission gets. -/
structure Delivery where
  message : Message
  stale : Bool
  outcomes : Tool → Option Dict
  wording : Wording
  saga : Saga

/-- The queries of `run_local_diagnosis`, one behind the other. -/
def query (s : State) (proposalId : Str) (outcomes : Tool → Option Dict) : State :=
  requiredTools.foldl (fun s tool => handleQuery s proposalId tool (outcomes tool)) s

/-- The proposal that a card is about, where it asks for a diagnosis. -/
def askedFor (card : Dict) : Option Str :=
  let proposalId := textOf (getOr card "proposal_id" (.str []))
  let cardType := textOf (getOr card "card_type" .none)
  if cardType = js "TriageDecision" then some proposalId
  else if cardType = js "Verdict" && textOf (getOr card "decision" .none) = js "CHALLENGE" then
    some proposalId
  else none

/-- `run_local_diagnosis`. -/
def runLocalDiagnosis (s : State) (card : Dict) (d : Delivery) : State :=
  match askedFor card with
  | none => s
  | some proposalId =>
    match s.contexts proposalId with
    | none => s
    | some ctx =>
      if ctx.submitted then s
      else agent.handleSubmitAssessment (query s proposalId d.outcomes) proposalId d.wording d.saga

/-- A proposal is left to other agents when there is a list of active ones without it. -/
def active (proposalId : Str) : Bool :=
  agent.activeProposals.isEmpty || proposalId ∈ agent.activeProposals

/-- `_handle_challenge`, with whether the message is left to the diagnosis. -/
def handleChallenge (s : State) (m : Message) (card : Dict) : State × Bool :=
  if m.senderType = js "Agent" && !agent.safetyReviewerAgentId.isEmpty &&
      m.senderId = agent.safetyReviewerAgentId then
    match agent.validateVerdict card with
    | none => (s, false)
    | some verdict =>
      if !verdict.challenge || !agent.active verdict.proposalId then (s, false)
      else
        match s.contexts verdict.proposalId with
        | none => (s, false)
        | some existing =>
          if existing.submitted then
            (s.store { existing with
              submitted := false
              toolResults := fun _ => none
              toolsCompleted := []
              revision := existing.revision + 1
              challengeRequest := verdict.challengeRequest
              roomMessageId := m.id
              sourceCardHash := textOf (getOr card "card_hash" (.str [])) }, true)
          else (s, false)
  else (s, false)

/-- The sender is the triage agent, and the card a sealed decision on an active proposal. -/
def guards (m : Message) (card : Dict) (stale : Bool) : Bool :=
  let proposalId := textOf (getOr card "proposal_id" (.str []))
  m.senderType = js "Agent" && !agent.triageAgentId.isEmpty && m.senderId = agent.triageAgentId &&
    hasSealFields card && agent.active proposalId && !(!proposalId.isEmpty && stale)

/-- What a triage decision does, behind the guards. -/
def takeTriage (s : State) (m : Message) (card : Dict) : State × Bool :=
  match agent.validateTriage card with
  | none => (s, false)
  | some triage =>
    if triage.suppress then (s, false)
    else
      match s.contexts triage.proposalId with
      | some _ => (s, false)
      | none =>
        (s.store
          { proposalId := triage.proposalId
            roomId := m.roomId
            roomMessageId := m.id
            sourceCardHash := textOf (getOr card "card_hash" (.str []))
            toolResults := fun _ => none
            toolsCompleted := []
            submitted := false
            revision := 1
            challengeRequest := none }, true)

/-- `DiagnosisPreprocessor.process` on a sealed card. Other messages reach no diagnosis. -/
def process (s : State) (m : Message) (card : Dict) (stale : Bool) : State × Bool :=
  let cardType := textOf (getOr card "card_type" .none)
  if m.senderId = agent.diagnosisAgentId then (s, false)
  else if cardType = js "Verdict" then agent.handleChallenge s m card
  else if cardType = js "TriageDecision" && agent.guards m card stale then agent.takeTriage s m card
  else (s, false)

/-- The diagnosis of what `process` leaves to it. -/
def delegate (card : Dict) (d : Delivery) : State × Bool → State
  | (t, true) => agent.runLocalDiagnosis t card d
  | (t, false) => t

def step (s : State) (d : Delivery) : State :=
  match extractSealedCard agent.floats d.message.content with
  | none => s
  | some card => agent.delegate card d (agent.process s d.message card d.stale)

def run (deliveries : List Delivery) : State := deliveries.foldl agent.step .initial

end Agent
end Concordia.Mercer
