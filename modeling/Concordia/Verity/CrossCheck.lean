import Concordia.Shared.CardMessages
import Concordia.Gateway.Confirmation

/-! Verity's deterministic cross-check of an assessment, and the cap that lets a challenged revision
go on to a plan. Comparisons of Python numbers are a parameter. -/
namespace Concordia.Verity
open Concordia.Python Concordia.Locke Concordia.Shared.CardIntake
open Concordia.Gateway (isTrue)
open Concordia.Js hiding Value

inductive Severity where
  | critical | high | medium | low | p1 | p2 | p3 | p4
  deriving DecidableEq, Repr

/-- The fields of an assessment that the review reads. -/
structure Assessment where
  proposalId : Str
  severity : Severity
  evidenceStrength : Str
  rootCauseHypothesis : Str
  evidence : Dict
  revision : Int

/-- `a >= b` and `a < b` between numbers. -/
structure Numbers where
  atLeast : Value → Value → Bool
  less : Value → Value → Bool

def requiredEvidenceSources : List String :=
  ["casper_node_status", "governance_events", "policy_compliance", "risk_events",
    "treasury_metrics"]

/-- `SEVERITY_EVIDENCE_THRESHOLDS`. -/
def threshold : Severity → Str
  | .p1 => js "0.6"
  | .p2 => js "0.4"
  | .p3 => js "0.2"
  | _ => js "0.0"

/-- The issues, by what their texts are made of. -/
inductive Issue where
  | missingSources (missing : List String) (completed : List Value)
  | weakEvidence (strength threshold : Str) (severity : Severity)
  | noRootCause
  | noAnomalies (severity : Severity)
  | fewAnomalies (count : Nat)
  | noRelevance (severity : Severity)
  | constitution (ruleIds : List Value)

structure CrossCheck where
  missingSources : List String
  evidenceSeverityCoherent : Bool
  anomalyCount : Nat
  hasRootCause : Bool
  hasTemporalCorrelation : Bool
  policyEvaluation : Dict
  hasPolicyRevision : Bool
  dissentHash : Value
  issues : List Issue

section Values

def asDict : Value → Option Dict
  | .dict items => some items
  | _ => none

def isNumber : Value → Bool
  | .int _ | .float _ | .bool _ => true
  | _ => false

def isText : Value → Bool
  | .str _ => true
  | _ => false

def isNone : Value → Bool
  | .none => true
  | _ => false

def isDict : Value → Bool
  | .dict _ => true
  | _ => false

/-- The elements of `set(value)` where `sorted` can order them: texts, numbers or `None` alone. -/
def sortedSet : Value → Option (List Value)
  | .list elements =>
    if elements.all isText || elements.all isNumber || elements.all isNone then some elements
    else none
  | .dict items => some (items.map fun item => .str item.1)
  | .str s => some (s.map fun u => .str [u])
  | _ => none

/-- What a `for` loop runs over. -/
def iterated : Value → Option (List Value)
  | .list elements => some elements
  | .dict items => some (items.map fun item => .str item.1)
  | .str s => some (s.map fun u => .str [u])
  | _ => none

def holdsText (elements : List Value) (text : String) : Bool :=
  elements.any fun
    | .str s => s = js text
    | _ => false

end Values

variable (numbers : Numbers)

def isTop (severity : Severity) : Bool := severity = .p1 || severity = .p2

def issueIf (found : Bool) (issue : Issue) : List Issue := if found then [issue] else []

theorem mem_issueIf {found : Bool} {issue i : Issue} :
    i ∈ issueIf found issue ↔ found = true ∧ i = issue := by
  cases found <;> simp [issueIf]

/-- Whether a source reports an anomaly; a signal that is no dictionary raises an error. -/
def anomalyDetected (signals : Dict) (source : String) : Option Bool := do
  let signal ← asDict (getOr signals source (.dict []))
  some (isTrue (getOr signal "anomaly_detected" (.bool false)))

def highRelevance (score : Value) : Bool :=
  isNumber score && numbers.atLeast score (.float (js "0.7"))

def ruleIds (rules : List Value) : List Value :=
  (rules.filterMap asDict).map fun rule => getOr rule "rule_id" (.str (js "UNKNOWN"))

/-- The rules that the issue about the constitution names. -/
def rulesOf (violated : Bool) (violatedRules : Value) : Option (List Value) :=
  if violated then iterated violatedRules else some []

/-- `cross_check_assessment`; `none` where evidence of another shape raises an error. -/
def crossCheckAssessment (a : Assessment) : Option CrossCheck := do
  let signals ← asDict (getOr a.evidence "signals" (.dict []))
  let completed ← sortedSet (getOr a.evidence "tools_completed" (.list []))
  let policy := a.evidence.get "policy_evaluation"
  let policyEvaluation ← asDict (if isTrue policy then policy else .dict [])
  let anomalies ← requiredEvidenceSources.mapM (anomalyDetected signals)
  let relevanceScores ← asDict (getOr a.evidence "relevance_scores" (.dict []))
  let missingSources := requiredEvidenceSources.filter fun source => !holdsText completed source
  let anomalyCount := anomalies.countP id
  let coherent := numbers.atLeast (.float a.evidenceStrength) (.float (threshold a.severity))
  let hasRootCause := 10 < (codePoints (strip a.rootCauseHypothesis)).length
  let highRelevanceCount := relevanceScores.countP fun item => highRelevance numbers item.2
  let hasPolicyRevision := isTrue (a.evidence.get "challenge_response") &&
    isTrue (policyEvaluation.get "approved_allocation_bps")
  let violatedRules := getOr policyEvaluation "violated_rules" (.list [])
  let violated := isTrue violatedRules && !hasPolicyRevision
  let rules ← rulesOf violated violatedRules
  some {
    missingSources
    evidenceSeverityCoherent := coherent
    anomalyCount
    hasRootCause
    hasTemporalCorrelation := !isNone (a.evidence.get "temporal_gap_minutes")
    policyEvaluation
    hasPolicyRevision
    dissentHash := policyEvaluation.get "dissent_hash"
    issues :=
      issueIf (!missingSources.isEmpty) (.missingSources missingSources completed) ++
      issueIf (!coherent) (.weakEvidence a.evidenceStrength (threshold a.severity) a.severity) ++
      issueIf (!hasRootCause) .noRootCause ++
      issueIf (anomalyCount = 0 && isTop a.severity) (.noAnomalies a.severity) ++
      issueIf (a.severity = .p1 && anomalyCount < 2) (.fewAnomalies anomalyCount) ++
      issueIf (highRelevanceCount = 0 && isTop a.severity) (.noRelevance a.severity) ++
      issueIf violated (.constitution (ruleIds rules)) }

/-- `revised_policy_cap_ready_for_human_plan`. -/
def revisedPolicyCapReady (check : CrossCheck) (challengeCount : Nat) : Bool :=
  let approved := check.policyEvaluation.get "approved_allocation_bps"
  let requested := check.policyEvaluation.get "requested_allocation_bps"
  1 ≤ challengeCount && check.hasPolicyRevision &&
    isTrue (check.policyEvaluation.get "dissent_hash") &&
    isTrue (check.policyEvaluation.get "dissent_receipt") &&
    isNumber approved && isNumber requested &&
    numbers.less (.int 0) approved && numbers.less approved requested

/-- The constitution violation that a capped revision answers. -/
def Issue.isConstitution : Issue → Bool
  | .constitution _ => true
  | _ => false

/-- A revision that answers the constitution is not charged with it: what its cap waives is
something else. -/
theorem constitution_answered {a : Assessment} {check : CrossCheck}
    (h : crossCheckAssessment numbers a = some check) (hrevised : check.hasPolicyRevision = true)
    {issue : Issue} (hissue : issue ∈ check.issues) : issue.isConstitution = false := by
  simp only [crossCheckAssessment, Option.bind_eq_bind, Option.bind_eq_some_iff] at h
  obtain ⟨signals, -, completed, -, policy, -, anomalies, -, scores, -, rules, -, hcheck⟩ := h
  obtain rfl := Option.some.inj hcheck
  simp only at hrevised
  simp only [hrevised, Bool.not_true, Bool.and_false, List.mem_append, mem_issueIf] at hissue
  rcases hissue with (((((⟨-, rfl⟩ | ⟨-, rfl⟩) | ⟨-, rfl⟩) | ⟨-, rfl⟩) | ⟨-, rfl⟩) | ⟨-, rfl⟩) | h
  · rfl
  · rfl
  · rfl
  · rfl
  · rfl
  · rfl
  · cases h.1

end Concordia.Verity
