import Concordia.Locke.Execution
import Concordia.Shared.CardMessages
import Concordia.Shared.X402Payments

/-! DAO constitution checks of a proposal: the facts that are read from its payload, and the
allocation that the policy approves. -/
namespace Concordia.Shared.DaoPolicy
open Concordia.Python Concordia.Locke Concordia.Shared.X402Payments Concordia.Shared.CardIntake
open Concordia.Js hiding Value

/-- Library functions. A raised exception is its text. -/
structure Runtime where
  sha256 : List UInt8 → Contract.Bytes32
  lower : Str → Str
  str : Value → Str
  /-- `\d`, on a code point. -/
  isDecimal : Nat → Bool
  /-- `int(value)` of a float. -/
  truncate : Str → Except String Int
  /-- `int(text)`. -/
  parseInt : Str → Except String Int
  /-- `int(round(float(text)))`, or of a hundred times the number. -/
  rounded : List Nat → Bool → Except String Int

variable (rt : Runtime)

section Facts

/-- `-?\d+(?:\.\d+)?` at the head of the code points. -/
def matchNumeral (points : List Nat) : Option (List Nat) :=
  let sign := if points.head? = some 0x2d then [0x2d] else []
  let rest := points.drop sign.length
  let digits := rest.takeWhile rt.isDecimal
  let behind := rest.drop digits.length
  let fraction := behind.tail.takeWhile rt.isDecimal
  if digits.isEmpty then none
  else if behind.head? = some 0x2e ∧ ¬ fraction.isEmpty then some (sign ++ digits ++ 0x2e :: fraction)
  else some (sign ++ digits)

/-- `re.search`. -/
def searchNumeral (text : Str) : Option (List Nat) :=
  (codePoints text).tails.findSome? (matchNumeral rt)

def safeInt (value : Value) (default : Int) : Except String Int :=
  match value with
  | .int n => .ok n
  | .float text => rt.truncate text
  | .str text =>
    match searchNumeral rt text with
    | some numeral => rt.rounded numeral (text.contains 0x25)
    | none => .ok default
  | _ => .ok default

/-- `value or other`. -/
def orElse (value other : Value) : Value := if truth value then value else other

/-- `str(value or "").strip()`. -/
def textOf (value : Value) : Str := strip (shown rt.str (orElse value (.str [])))

structure ProposalFacts where
  proposalId : Str
  proposalType : Str
  requestedAllocationBps : Int
  targetProtocol : Str
  assetClass : Str
  evidenceHash : Str
  casperNetwork : Str
  requestedAction : Str
  riskScore : Int

def defiTreasuryReallocation : Str := js "DEFI_TREASURY_REALLOCATION"
def rwaInvoicePoolOnboarding : Str := js "RWA_INVOICE_POOL_ONBOARDING"

def inferredFrom : List String :=
  ["proposal_summary", "requested_action", "recommended_action", "dao_target", "source"]

/-- The type of a proposal that names none. -/
def inferredType (payload : Dict) : Str :=
  let text := rt.lower ((js " ").intercalate
    (inferredFrom.map fun key => shown rt.str (getOr payload key (.str []))))
  if occurs (js "rwa") text || occurs (js "invoice") text || occurs (js "receivable") text then
    rwaInvoicePoolOnboarding
  else defiTreasuryReallocation

def normalizeProposalPayload (payload : Dict) : Except String ProposalFacts := do
  let proposalType := textOf rt (payload.get "proposal_type")
  let requestedBps ← safeInt rt (orElse (payload.get "treasury_allocation_bps")
    (orElse (payload.get "requested_allocation_bps")
      (orElse (payload.get "allocation_bps") (payload.get "current_allocation")))) 0
  let riskScore ← safeInt rt
    (orElse (payload.get "risk_score") (payload.get "risk_exposure_pct")) 0
  return {
    proposalId := textOf rt (payload.get "proposal_id")
    proposalType := if proposalType.isEmpty then inferredType rt payload else proposalType
    requestedAllocationBps := requestedBps
    targetProtocol := textOf rt (orElse (payload.get "target_protocol") (payload.get "dao_target"))
    assetClass := textOf rt (payload.get "asset_class")
    evidenceHash := textOf rt (payload.get "evidence_hash")
    casperNetwork :=
      shown rt.str (orElse (payload.get "casper_network") (.str (js "casper-testnet")))
    requestedAction :=
      textOf rt (orElse (payload.get "requested_action") (payload.get "proposal_summary"))
    riskScore }

end Facts

section Evaluation

def hashPayload (payload : Value) : Str :=
  js "sha256:" ++ toHex (rt.sha256 (utf8 (dumpsCompact (sortKeys payload)))).toList

/-- `int(value)`. -/
def toInt : Value → Except String Int
  | .int n => .ok n
  | .bool b => .ok (if b then 1 else 0)
  | .float text => rt.truncate text
  | .str text => rt.parseInt text
  | _ => .error "int() argument must be a string, a bytes-like object or a real number"

structure ViolatedRule where
  ruleId : Str
  observed : Value
  allowed : Value
  message : Str

/-- The rule as the evaluation lists it. -/
def ViolatedRule.dump (rule : ViolatedRule) : Value :=
  .dict [(js "rule_id", .str rule.ruleId), (js "severity", .str (js "HIGH")),
    (js "observed", rule.observed), (js "allowed", rule.allowed), (js "message", .str rule.message)]

def maxSingleAllocation (requestedBps maxSingle : Int) : ViolatedRule where
  ruleId := js "MAX_SINGLE_ALLOCATION_BPS"
  observed := .int requestedBps
  allowed := .int maxSingle
  message := js "Requested allocation " ++ dumpsInt requestedBps ++ js " bps exceeds " ++
    dumpsInt maxSingle ++ js " bps DAO cap."

def rwaEvidenceRequired : ViolatedRule where
  ruleId := js "RWA_EVIDENCE_HASH_REQUIRED"
  observed := .str (js "missing")
  allowed := .str (js "sha256 evidence hash")
  message := js "RWA onboarding requires an evidence hash before approval."

def violatedRules (facts : ProposalFacts) (maxSingle : Int) (requiresRwaHash : Bool) :
    List ViolatedRule :=
  (if facts.proposalType = defiTreasuryReallocation ∧ maxSingle < facts.requestedAllocationBps then
    [maxSingleAllocation facts.requestedAllocationBps maxSingle] else []) ++
  if facts.proposalType = rwaInvoicePoolOnboarding ∧ requiresRwaHash ∧ facts.evidenceHash.isEmpty
    then [rwaEvidenceRequired] else []

def approvedBps (facts : ProposalFacts) (maxSingle : Int) : Int :=
  if facts.proposalType = defiTreasuryReallocation ∧ maxSingle < facts.requestedAllocationBps then
    maxSingle
  else if facts.requestedAllocationBps ≠ 0 then facts.requestedAllocationBps
  else maxSingle

def decisionOf (facts : ProposalFacts) (rules : List ViolatedRule) : Str :=
  if ¬ rules.isEmpty ∧ facts.proposalType = rwaInvoicePoolOnboarding then js "NEEDS_HUMAN"
  else if ¬ rules.isEmpty ∧ facts.proposalType = defiTreasuryReallocation then
    js "APPROVED_WITH_LIMITS"
  else js "APPROVED"

/-- `thresholds.get(name, default)`, which only a dictionary has. -/
def threshold (thresholds : Value) (name : String) (default : Int) : Except String Int :=
  match thresholds with
  | .dict items => toInt rt (getOr items name (.int default))
  | _ => .error "thresholds has no attribute 'get'"

def riskLevel (score : Int) (rules : List ViolatedRule) (constitution : Dict) :
    Except String Str :=
  if rules.isEmpty then do
    let thresholds := getOr constitution "risk_thresholds" (.dict [])
    let high ← threshold rt thresholds "high" 85
    let medium ← threshold rt thresholds "medium" 65
    let low ← threshold rt thresholds "low" 35
    return if high ≤ score then js "HIGH" else if medium ≤ score then js "MEDIUM"
      else if low ≤ score then js "LOW" else js "INFO"
  else .ok (js "HIGH")

def dissentReceipt (facts : ProposalFacts) (rules : List ViolatedRule) (constitution : Dict)
    (policyHash proposalHash now : Str) : Value :=
  .dict [
    (js "proposal_id", .str facts.proposalId),
    (js "dissenting_agent", .str (js "Verity")),
    (js "dissent_type", .str ((rules.head?.map (·.ruleId)).getD (js "NONE"))),
    (js "policy_hash", .str policyHash),
    (js "policy_version", getOr constitution "policy_version" (.str [])),
    (js "proposal_hash", .str proposalHash),
    (js "challenged_plan_hash", .str (hashPayload rt (.dict [
      (js "requested_allocation_bps", .int facts.requestedAllocationBps),
      (js "target_protocol", .str facts.targetProtocol),
      (js "proposal_type", .str facts.proposalType)]))),
    (js "reason_hash", .str (hashPayload rt (.list (rules.map fun rule => .str rule.message)))),
    (js "severity", .str (if rules.isEmpty then js "LOW" else js "HIGH")),
    (js "violated_rules", .list (rules.map ViolatedRule.dump)),
    (js "created_at", .str now)]

structure PolicyEvaluation where
  daoName : Value
  policyVersion : Value
  policyHash : Str
  proposalHash : Str
  proposalType : Str
  requestedAllocationBps : Int
  approvedAllocationBps : Int
  allowedExecutionNetwork : Value
  allowedReceiptEntryPoint : Value
  riskScore : Int
  riskLevel : Str
  decision : Str
  passed : Bool
  violatedRules : List ViolatedRule
  dissentReceipt : Option Value
  dissentHash : Str
  humanApprovalRequired : Bool

/-- `int(constitution.get("max_single_allocation_bps", 0))`. -/
def allocationCap (constitution : Dict) : Except String Int :=
  toInt rt (getOr constitution "max_single_allocation_bps" (.int 0))

/-- The constitution is the one that is loaded, and `now` the time in ISO format. -/
def evaluateProposalPolicy (constitution payload : Dict) (now : Str) :
    Except String PolicyEvaluation := do
  let facts ← normalizeProposalPayload rt payload
  let policyHash := hashPayload rt (.dict constitution)
  let proposalHash := hashPayload rt (.dict payload)
  let maxSingle ← allocationCap rt constitution
  let requiresRwaHash := truth (getOr constitution "requires_rwa_evidence_hash" (.bool true))
  let rules := violatedRules facts maxSingle requiresRwaHash
  let receipt := dissentReceipt rt facts rules constitution policyHash proposalHash now
  let level ← riskLevel rt facts.riskScore rules constitution
  return {
    daoName := getOr constitution "dao_name" (.str (js "Concordia Treasury DAO"))
    policyVersion := getOr constitution "policy_version" (.str [])
    policyHash, proposalHash
    proposalType := facts.proposalType
    requestedAllocationBps := facts.requestedAllocationBps
    approvedAllocationBps := approvedBps facts maxSingle
    allowedExecutionNetwork :=
      getOr constitution "allowed_execution_network" (.str (js "casper-test"))
    allowedReceiptEntryPoint :=
      getOr constitution "allowed_receipt_entry_point" (.str (js "store_governance_receipt"))
    riskScore := facts.riskScore
    riskLevel := level
    decision := decisionOf facts rules
    passed := rules.isEmpty
    violatedRules := rules
    dissentReceipt := if rules.isEmpty then none else some receipt
    dissentHash := if rules.isEmpty then [] else hashPayload rt receipt
    humanApprovalRequired :=
      truth (getOr constitution "requires_multisig_for_execution" (.bool true)) }

/-- The evaluation as the dictionary that is returned. -/
def PolicyEvaluation.dump (evaluation : PolicyEvaluation) : Dict := [
  (js "dao_name", evaluation.daoName),
  (js "policy_version", evaluation.policyVersion),
  (js "policy_hash", .str evaluation.policyHash),
  (js "proposal_hash", .str evaluation.proposalHash),
  (js "proposal_type", .str evaluation.proposalType),
  (js "requested_allocation_bps", .int evaluation.requestedAllocationBps),
  (js "approved_allocation_bps", .int evaluation.approvedAllocationBps),
  (js "allowed_execution_network", evaluation.allowedExecutionNetwork),
  (js "allowed_receipt_entry_point", evaluation.allowedReceiptEntryPoint),
  (js "risk_score", .int evaluation.riskScore),
  (js "risk_level", .str evaluation.riskLevel),
  (js "decision", .str evaluation.decision),
  (js "passed", .bool evaluation.passed),
  (js "violated_rules", .list (evaluation.violatedRules.map ViolatedRule.dump)),
  (js "dissent_receipt", evaluation.dissentReceipt.getD .none),
  (js "dissent_hash", .str evaluation.dissentHash),
  (js "human_approval_required", .bool evaluation.humanApprovalRequired)]

end Evaluation

/-! The cap on a single allocation. -/
section Cap
variable {rt} {constitution payload : Dict} {now : Str} {evaluation : PolicyEvaluation}

/-- Where an evaluation has its numbers from. -/
theorem evaluation_ok (h : evaluateProposalPolicy rt constitution payload now = .ok evaluation) :
    ∃ facts maxSingle, normalizeProposalPayload rt payload = .ok facts ∧
      allocationCap rt constitution = .ok maxSingle ∧
      evaluation.proposalType = facts.proposalType ∧
      evaluation.requestedAllocationBps = facts.requestedAllocationBps ∧
      evaluation.approvedAllocationBps = approvedBps facts maxSingle ∧
      evaluation.violatedRules = violatedRules facts maxSingle
        (truth (getOr constitution "requires_rwa_evidence_hash" (.bool true))) ∧
      evaluation.passed = evaluation.violatedRules.isEmpty ∧
      evaluation.decision = decisionOf facts evaluation.violatedRules := by
  unfold evaluateProposalPolicy at h
  cases hfacts : normalizeProposalPayload rt payload with
  | error text =>
    rw [hfacts] at h
    cases h
  | ok facts =>
    cases hcap : allocationCap rt constitution with
    | error text =>
      rw [hfacts, hcap] at h
      cases h
    | ok maxSingle =>
      rw [hfacts, hcap] at h
      simp only [bind, Except.bind] at h
      split at h
      · cases h
      · obtain rfl := Except.ok.inj h
        exact ⟨facts, maxSingle, rfl, rfl, rfl, rfl, rfl, rfl, rfl, rfl⟩

variable {facts : ProposalFacts} {maxSingle : Int}

theorem rwa_ne_defi : rwaInvoicePoolOnboarding ≠ defiTreasuryReallocation := by decide

/-- A reallocation breaks a rule exactly by asking for more than the cap. -/
theorem violatedRules_reallocation (htype : facts.proposalType = defiTreasuryReallocation)
    (requiresRwaHash : Bool) :
    (violatedRules facts maxSingle requiresRwaHash).isEmpty = true ↔
      facts.requestedAllocationBps ≤ maxSingle := by
  have hother : ¬ (facts.proposalType = rwaInvoicePoolOnboarding ∧ requiresRwaHash = true ∧
      facts.evidenceHash.isEmpty = true) := by
    rintro ⟨hrwa, -⟩
    rw [htype] at hrwa
    exact rwa_ne_defi hrwa.symm
  rw [violatedRules, if_neg hother, List.append_nil]
  by_cases hover : maxSingle < facts.requestedAllocationBps
  · rw [if_pos ⟨htype, hover⟩]
    exact ⟨nofun, fun h => absurd hover (by omega)⟩
  · rw [if_neg fun h => hover h.2]
    exact ⟨fun _ => by omega, fun _ => rfl⟩

theorem approvedBps_reallocation (htype : facts.proposalType = defiTreasuryReallocation)
    (hcap : 0 ≤ maxSingle) : approvedBps facts maxSingle =
      if facts.requestedAllocationBps = 0 then maxSingle
      else min facts.requestedAllocationBps maxSingle := by
  unfold approvedBps
  by_cases hzero : facts.requestedAllocationBps = 0
  · rw [if_neg (by omega), if_neg (by omega), if_pos hzero]
  · rw [if_neg hzero]
    by_cases hover : maxSingle < facts.requestedAllocationBps
    · rw [if_pos ⟨htype, hover⟩, min_eq_right (by omega)]
    · rw [if_neg fun h => hover h.2, if_pos hzero, min_eq_left (by omega)]

theorem approvedBps_other (htype : facts.proposalType ≠ defiTreasuryReallocation) :
    approvedBps facts maxSingle =
      if facts.requestedAllocationBps = 0 then maxSingle else facts.requestedAllocationBps := by
  unfold approvedBps
  rw [if_neg fun h => htype h.1]
  by_cases hzero : facts.requestedAllocationBps = 0
  · rw [if_neg (by omega), if_pos hzero]
  · rw [if_pos hzero, if_neg hzero]

/-- What the cap of the constitution does to an allocation: a treasury reallocation gets what it
asks for up to the cap, and the cap where it asks for nothing; the other types are not capped. -/
structure Capped (cap : Int) (evaluation : PolicyEvaluation) : Prop where
  le_cap : evaluation.proposalType = defiTreasuryReallocation →
    evaluation.approvedAllocationBps ≤ cap
  nonneg : 0 ≤ evaluation.requestedAllocationBps → 0 ≤ evaluation.approvedAllocationBps
  le_requested : evaluation.requestedAllocationBps ≠ 0 →
    evaluation.approvedAllocationBps ≤ evaluation.requestedAllocationBps
  unrequested : evaluation.requestedAllocationBps = 0 → evaluation.approvedAllocationBps = cap
  passes : evaluation.proposalType = defiTreasuryReallocation →
    (evaluation.passed = true ↔ evaluation.requestedAllocationBps ≤ cap)
  passed : evaluation.passed = true → evaluation.requestedAllocationBps ≠ 0 →
    evaluation.approvedAllocationBps = evaluation.requestedAllocationBps
  uncapped : evaluation.proposalType ≠ defiTreasuryReallocation →
    evaluation.requestedAllocationBps ≠ 0 →
    evaluation.approvedAllocationBps = evaluation.requestedAllocationBps

/-- An evaluation approves or asks for a human; it never rejects. -/
theorem evaluation_decision (h : evaluateProposalPolicy rt constitution payload now =
    .ok evaluation) : evaluation.decision ∈
      [js "NEEDS_HUMAN", js "APPROVED_WITH_LIMITS", js "APPROVED"] := by
  obtain ⟨facts, maxSingle, -, -, -, -, -, -, -, hdecision⟩ := evaluation_ok h
  rw [hdecision, decisionOf]
  split_ifs <;> simp

/-- The three risk thresholds are numbers, or missing. -/
def ThresholdsRead (rt : Runtime) (constitution : Dict) : Prop :=
  ∀ entry ∈ [("high", (85 : Int)), ("medium", 65), ("low", 35)], ∃ n,
    threshold rt (getOr constitution "risk_thresholds" (.dict [])) entry.1 entry.2 = .ok n

theorem riskLevel_returns (h : ThresholdsRead rt constitution) (score : Int)
    (rules : List ViolatedRule) : ∃ level, riskLevel rt score rules constitution = .ok level := by
  obtain ⟨high, hhigh⟩ := h ("high", 85) (by simp)
  obtain ⟨medium, hmedium⟩ := h ("medium", 65) (by simp)
  obtain ⟨low, hlow⟩ := h ("low", 35) (by simp)
  simp only at hhigh hmedium hlow
  unfold riskLevel
  split
  · simp only [hhigh, hmedium, hlow]
    exact ⟨_, rfl⟩
  · exact ⟨_, rfl⟩

theorem evaluation_returns (hfacts : ∃ facts, normalizeProposalPayload rt payload = .ok facts)
    (hcap : ∃ cap, allocationCap rt constitution = .ok cap) (h : ThresholdsRead rt constitution) :
    ∃ evaluation, evaluateProposalPolicy rt constitution payload now = .ok evaluation := by
  obtain ⟨facts, hfacts⟩ := hfacts
  obtain ⟨cap, hcap⟩ := hcap
  unfold evaluateProposalPolicy
  rw [hfacts, hcap]
  simp only [bind, Except.bind]
  obtain ⟨level, hlevel⟩ := riskLevel_returns h facts.riskScore (violatedRules facts cap
    (truth (getOr constitution "requires_rwa_evidence_hash" (.bool true))))
  rw [hlevel]
  exact ⟨_, rfl⟩

theorem capped (h : evaluateProposalPolicy rt constitution payload now = .ok evaluation)
    {cap : Int} (hcap : allocationCap rt constitution = .ok cap) (hnonneg : 0 ≤ cap) :
    Capped cap evaluation := by
  obtain ⟨facts, maxSingle, -, hmax, htype, hrequested, happroved, hrules, hpassed, -⟩ :=
    evaluation_ok h
  obtain rfl : cap = maxSingle := Except.ok.inj (hcap.symm.trans hmax)
  rw [hrules] at hpassed
  by_cases hdefi : facts.proposalType = defiTreasuryReallocation
  · rw [approvedBps_reallocation hdefi hnonneg] at happroved
    have hpasses := @violatedRules_reallocation facts cap hdefi
      (truth (getOr constitution "requires_rwa_evidence_hash" (.bool true)))
    rw [← hpassed, ← hrequested] at hpasses
    rw [← hrequested] at happroved
    constructor
    case passes => exact fun _ => hpasses
    case passed =>
      intro hpass hasked
      rw [happroved, if_neg hasked, min_eq_left (hpasses.mp hpass)]
    case uncapped => exact fun hother => absurd (htype.trans hdefi) hother
    all_goals
      intros
      rw [happroved]
      split_ifs <;> omega
  · rw [approvedBps_other hdefi, ← hrequested] at happroved
    constructor
    case le_cap => exact fun hother => absurd (htype.symm.trans hother) hdefi
    case passes => exact fun hother => absurd (htype.symm.trans hother) hdefi
    all_goals
      intros
      rw [happroved]
      split_ifs <;> omega

/-- With a cap that is not negative the evaluation of every payload is capped, and there is one
wherever the numbers can be read. -/
theorem policy_cap (rt : Runtime) (constitution payload : Dict) (now : Str) (cap : Int)
    (hcap : allocationCap rt constitution = .ok cap) (hnonneg : 0 ≤ cap) :
    (∀ evaluation, evaluateProposalPolicy rt constitution payload now = .ok evaluation →
      Capped cap evaluation) ∧
    ((∃ facts, normalizeProposalPayload rt payload = .ok facts) → ThresholdsRead rt constitution →
      ∃ evaluation, evaluateProposalPolicy rt constitution payload now = .ok evaluation) :=
  ⟨fun _ h => capped h hcap hnonneg, fun hfacts h => evaluation_returns hfacts ⟨cap, hcap⟩ h⟩

end Cap

/-! The demo constitution. -/
section Sample

def sampleRuntime : Runtime where
  sha256 := fun _ => Vector.replicate 32 0
  lower := id
  str := fun _ => []
  isDecimal := fun n => 0x30 ≤ n && n ≤ 0x39
  truncate := fun _ => .ok 0
  parseInt := fun _ => .ok 0
  rounded := fun _ _ => .ok 0

def sampleConstitution : Dict := [(js "max_single_allocation_bps", .int 800)]

def proposal (proposalType : String) : Dict :=
  [(js "proposal_type", .str (js proposalType)), (js "treasury_allocation_bps", .int 3000),
    (js "evidence_hash", .str (js "sha256:00"))]

/-- The numbers of an evaluation. -/
def numbers (payload : Dict) : Option (Int × Int × Bool) :=
  (evaluateProposalPolicy sampleRuntime sampleConstitution payload []).toOption.map fun e =>
    (e.requestedAllocationBps, e.approvedAllocationBps, e.passed)

theorem evaluation_of_numbers {payload : Dict} {n : Int × Int × Bool}
    (h : numbers payload = some n) : ∃ evaluation,
      evaluateProposalPolicy sampleRuntime sampleConstitution payload [] = .ok evaluation ∧
      evaluation.requestedAllocationBps = n.1 ∧ evaluation.approvedAllocationBps = n.2.1 ∧
      evaluation.passed = n.2.2 := by
  unfold numbers at h
  cases hresult : evaluateProposalPolicy sampleRuntime sampleConstitution payload [] with
  | error text =>
    rw [hresult] at h
    cases h
  | ok evaluation =>
    rw [hresult] at h
    obtain rfl := Option.some.inj h
    exact ⟨evaluation, rfl, rfl, rfl, rfl⟩

/-- Thirty percent of the treasury are cut to eight. -/
theorem policy_cap_sample : ∃ evaluation,
    evaluateProposalPolicy sampleRuntime sampleConstitution
      (proposal "DEFI_TREASURY_REALLOCATION") [] = .ok evaluation ∧
    evaluation.approvedAllocationBps = 800 ∧ Capped 800 evaluation := by
  obtain ⟨evaluation, h, -, happroved, -⟩ := evaluation_of_numbers
    (show numbers (proposal "DEFI_TREASURY_REALLOCATION") = some (3000, 800, false) by
      decide +kernel)
  exact ⟨evaluation, h, happroved,
    (policy_cap sampleRuntime sampleConstitution _ [] 800 rfl (by decide)).1 evaluation h⟩

/-- The cap is for treasury reallocations: another type passes with all that it asks for. -/
theorem other_type_uncapped : ∃ evaluation,
    evaluateProposalPolicy sampleRuntime sampleConstitution
      (proposal "RWA_INVOICE_POOL_ONBOARDING") [] = .ok evaluation ∧
    allocationCap sampleRuntime sampleConstitution = .ok 800 ∧
    evaluation.passed = true ∧ ¬ evaluation.approvedAllocationBps ≤ 800 := by
  obtain ⟨evaluation, h, -, happroved, hpassed⟩ := evaluation_of_numbers
    (show numbers (proposal "RWA_INVOICE_POOL_ONBOARDING") = some (3000, 3000, true) by
      decide +kernel)
  refine ⟨evaluation, h, rfl, hpassed, ?_⟩
  rw [happroved]
  decide

end Sample
end Concordia.Shared.DaoPolicy
