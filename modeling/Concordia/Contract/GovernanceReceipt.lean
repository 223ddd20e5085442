import Concordia.Contract.History

/-! The first governance receipt contract: a quorum of configured signers approves an envelope
hash, and then anyone may store the receipt text of the proposal. -/
namespace Concordia.Contract.GovernanceReceipt
open Concordia.Lib.Transition
open GovernanceReceiptV3 (set)

inductive Error where
  | quorumAlreadyConfigured
  | invalidQuorum
  | quorumNotConfigured
  | unauthorizedSigner
  | envelopeAlreadyProposed
  | envelopeMissing
  | alreadyApproved
  | quorumNotMet
  deriving DecidableEq, Repr

structure State where
  owner : Option Address
  quorumConfigured : Option Bool
  quorumThreshold : Option UInt32
  signerCount : Option UInt32
  signers : Address → Option Bool
  proposedEnvelopes : String → Option String
  approvalCounts : String → Option UInt32
  approvals : String × Address → Option Bool
  receipts : String → Option String

/-- Storage right after the deployment, which takes no arguments. -/
def State.deployed : State where
  owner := none
  quorumConfigured := none
  quorumThreshold := none
  signerCount := none
  signers _ := none
  proposedEnvelopes _ := none
  approvalCounts _ := none
  approvals _ := none
  receipts _ := none

def lut (n : UInt8) : Char := "0123456789abcdef".toList.getD n.toNat '0'

def hex32 (bytes : Bytes32) : String :=
  String.ofList (bytes.toList.flatMap fun (byte : UInt8) => [lut (byte >>> 4), lut (byte &&& 0x0f)])

structure ReceiptArgs where
  proposalId : String
  proposalType : String
  proposalHash : Bytes32
  finalCardHash : Bytes32
  planHash : Bytes32
  decision : String
  riskLevel : String
  riskScore : UInt32
  treasuryAction : String
  policyHash : Bytes32
  policyVersion : String
  dissentHash : Bytes32
  approvedAllocationBps : UInt32
  casperNetwork : String
  agentCouncilVersion : String
  evidenceUri : String
  agentActionHash : Bytes32
  deriving DecidableEq

/-- The `format!` of `store_governance_receipt`: texts are pasted in as they come. -/
def receiptText (a : ReceiptArgs) : String :=
  "\x7b\"proposal_id\":\"" ++ a.proposalId ++ "\",\"proposal_type\":\"" ++ a.proposalType ++
  "\",\"proposal_hash\":\"" ++ hex32 a.proposalHash ++ "\",\"final_card_hash\":\"" ++
  hex32 a.finalCardHash ++ "\",\"plan_hash\":\"" ++ hex32 a.planHash ++ "\",\"decision\":\"" ++
  a.decision ++ "\",\"risk_level\":\"" ++ a.riskLevel ++ "\",\"risk_score\":" ++
  toString a.riskScore ++ ",\"treasury_action\":\"" ++ a.treasuryAction ++
  "\",\"policy_hash\":\"" ++ hex32 a.policyHash ++ "\",\"policy_version\":\"" ++
  a.policyVersion ++ "\",\"dissent_hash\":\"" ++ hex32 a.dissentHash ++
  "\",\"approved_allocation_bps\":" ++ toString a.approvedAllocationBps ++
  ",\"casper_network\":\"" ++ a.casperNetwork ++ "\",\"agent_council_version\":\"" ++
  a.agentCouncilVersion ++ "\",\"evidence_uri\":\"" ++ a.evidenceUri ++
  "\",\"agent_action_hash\":\"" ++ hex32 a.agentActionHash ++ "\"\x7d"

namespace State

def configured (s : State) : Bool := s.quorumConfigured.getD false
def threshold (s : State) : UInt32 := s.quorumThreshold.getD 0
def storedSignerCount (s : State) : UInt32 := s.signerCount.getD 0
def isSigner (s : State) (x : Address) : Bool := (s.signers x).getD false
def approvalCount (s : State) (proposalId : String) : UInt32 :=
  (s.approvalCounts proposalId).getD 0
def hasApproved (s : State) (proposalId : String) (x : Address) : Bool :=
  (s.approvals (proposalId, x)).getD false

def quorumMet (s : State) (proposalId : String) : Bool :=
  0 < s.threshold && s.threshold ≤ s.approvalCount proposalId

end State

def configureQuorum (s : State) (caller signerA signerB signerC : Address) (threshold : UInt32) :
    Except Error State :=
  if s.configured then .error .quorumAlreadyConfigured
  else if threshold = 0 ∨ 3 < threshold then .error .invalidQuorum
  else .ok { s with
    owner := some caller
    signers := set (set (set s.signers signerA true) signerB true) signerC true
    signerCount := some 3
    quorumThreshold := some threshold
    quorumConfigured := some true }

def requireSigner (s : State) (caller : Address) : Except Error Unit :=
  if ¬ s.configured then .error .quorumNotConfigured
  else if ¬ s.isSigner caller then .error .unauthorizedSigner
  else .ok ()

def proposeEnvelope (s : State) (caller : Address) (proposalId : String)
    (envelopeHash : Bytes32) : Except Error State := do
  requireSigner s caller
  if (s.proposedEnvelopes proposalId).isSome then .error .envelopeAlreadyProposed
  else .ok { s with
    proposedEnvelopes := set s.proposedEnvelopes proposalId (hex32 envelopeHash)
    approvalCounts := set s.approvalCounts proposalId 0 }

def approveEnvelope (s : State) (caller : Address) (proposalId : String) :
    Except Error State := do
  requireSigner s caller
  if (s.proposedEnvelopes proposalId).isNone then .error .envelopeMissing
  else if s.hasApproved proposalId caller then .error .alreadyApproved
  else .ok { s with
    approvals := set s.approvals (proposalId, caller) true
    approvalCounts := set s.approvalCounts proposalId (s.approvalCount proposalId + 1) }

def requireQuorum (s : State) (proposalId : String) : Except Error Unit :=
  if ¬ s.configured then .error .quorumNotConfigured
  else if (s.proposedEnvelopes proposalId).isNone then .error .envelopeMissing
  else if ¬ s.quorumMet proposalId then .error .quorumNotMet
  else .ok ()

/-- No signer is asked for here, and the text replaces whatever was stored. -/
def storeGovernanceReceipt (s : State) (args : ReceiptArgs) : Except Error State := do
  requireQuorum s args.proposalId
  return { s with receipts := set s.receipts args.proposalId (receiptText args) }

inductive Call where
  | configureQuorum (signerA signerB signerC : Address) (threshold : UInt32)
  | proposeEnvelope (proposalId : String) (envelopeHash : Bytes32)
  | approveEnvelope (proposalId : String)
  | storeGovernanceReceipt (args : ReceiptArgs)
  deriving DecidableEq

def execute (s : State) (caller : Address) : Call → Except Error State
  | .configureQuorum signerA signerB signerC threshold =>
    configureQuorum s caller signerA signerB signerC threshold
  | .proposeEnvelope proposalId envelopeHash => proposeEnvelope s caller proposalId envelopeHash
  | .approveEnvelope proposalId => approveEnvelope s caller proposalId
  | .storeGovernanceReceipt args => storeGovernanceReceipt s args

/-- A step of a run: who calls, and what. A reverted call is refused. -/
def step (s : State) (action : Address × Call) : Option State :=
  (execute s action.1 action.2).toOption

namespace State

def withQuorum (s : State) (caller a b c : Address) (threshold : UInt32) : State :=
  { s with
    owner := some caller
    signers := set (set (set s.signers a true) b true) c true
    signerCount := some 3
    quorumThreshold := some threshold
    quorumConfigured := some true }

def withProposal (s : State) (p : String) (h : Bytes32) : State :=
  { s with
    proposedEnvelopes := set s.proposedEnvelopes p (hex32 h)
    approvalCounts := set s.approvalCounts p 0 }

def withApproval (s : State) (p : String) (x : Address) : State :=
  { s with
    approvals := set s.approvals (p, x) true
    approvalCounts := set s.approvalCounts p (s.approvalCount p + 1) }

def withReceipt (s : State) (args : ReceiptArgs) : State :=
  { s with receipts := set s.receipts args.proposalId (receiptText args) }

end State

/-- Accepted calls: what they were checked for and what they wrote. -/
inductive Effect (s : State) : Address × Call → State → Prop
  | configured {caller a b c : Address} {threshold : UInt32} (fresh : s.configured = false)
      (positive : threshold ≠ 0) (bounded : threshold ≤ 3) :
      Effect s (caller, .configureQuorum a b c threshold) (s.withQuorum caller a b c threshold)
  | proposed {x : Address} {p : String} {h : Bytes32} (configured : s.configured = true)
      (signer : s.isSigner x = true) (fresh : s.proposedEnvelopes p = none) :
      Effect s (x, .proposeEnvelope p h) (s.withProposal p h)
  | approved {x : Address} {p : String} (configured : s.configured = true)
      (signer : s.isSigner x = true) (proposed : (s.proposedEnvelopes p).isSome = true)
      (fresh : s.hasApproved p x = false) :
      Effect s (x, .approveEnvelope p) (s.withApproval p x)
  | stored {caller : Address} {args : ReceiptArgs} (configured : s.configured = true)
      (proposed : (s.proposedEnvelopes args.proposalId).isSome = true)
      (quorum : s.quorumMet args.proposalId = true) :
      Effect s (caller, .storeGovernanceReceipt args) (s.withReceipt args)

section Effects
variable {s t : State} {caller : Address} {p : String}

private theorem requireSigner_bind_ok {f : Unit → Except Error State} :
    (requireSigner s caller >>= f) = .ok t ↔
      s.configured = true ∧ s.isSigner caller = true ∧ f () = .ok t := by
  unfold requireSigner
  cases s.configured <;> cases s.isSigner caller <;> simp [bind, Except.bind]

private theorem requireQuorum_bind_ok {f : Unit → Except Error State} :
    (requireQuorum s p >>= f) = .ok t ↔ s.configured = true ∧
      (s.proposedEnvelopes p).isSome = true ∧ s.quorumMet p = true ∧ f () = .ok t := by
  unfold requireQuorum
  cases s.configured <;> cases s.proposedEnvelopes p <;> cases s.quorumMet p <;>
    simp [bind, Except.bind]

theorem configureQuorum_ok {a b c : Address} {threshold : UInt32} :
    configureQuorum s caller a b c threshold = .ok t ↔
      s.configured = false ∧ threshold ≠ 0 ∧ threshold ≤ 3 ∧
        s.withQuorum caller a b c threshold = t := by
  unfold configureQuorum
  cases s.configured with
  | true => simp
  | false =>
    by_cases h : threshold = 0 ∨ 3 < threshold
    · simp only [if_pos h, Bool.false_eq_true, if_false, reduceCtorEq, false_iff]
      rintro ⟨-, hne, hle, -⟩
      rcases h with h | h
      · exact hne h
      · exact absurd hle (UInt32.not_le.mpr h)
    · obtain ⟨hne, hle⟩ := not_or.mp h
      simp [hne, hle, UInt32.not_lt.mp hle, State.withQuorum]

theorem proposeEnvelope_ok {h : Bytes32} :
    proposeEnvelope s caller p h = .ok t ↔ s.configured = true ∧ s.isSigner caller = true ∧
      s.proposedEnvelopes p = none ∧ s.withProposal p h = t := by
  simp only [proposeEnvelope, requireSigner_bind_ok]
  cases s.proposedEnvelopes p <;> simp [State.withProposal]

theorem approveEnvelope_ok :
    approveEnvelope s caller p = .ok t ↔ s.configured = true ∧ s.isSigner caller = true ∧
      (s.proposedEnvelopes p).isSome = true ∧ s.hasApproved p caller = false ∧
        s.withApproval p caller = t := by
  simp only [approveEnvelope, requireSigner_bind_ok]
  cases s.proposedEnvelopes p <;> cases s.hasApproved p caller <;>
    simp [State.withApproval]

theorem storeGovernanceReceipt_ok {args : ReceiptArgs} :
    storeGovernanceReceipt s args = .ok t ↔ s.configured = true ∧
      (s.proposedEnvelopes args.proposalId).isSome = true ∧ s.quorumMet args.proposalId = true ∧
        s.withReceipt args = t := by
  simp [storeGovernanceReceipt, requireQuorum_bind_ok, pure, Except.pure, State.withReceipt]

theorem step_iff_effect {action : Address × Call} :
    step s action = some t ↔ Effect s action t := by
  obtain ⟨caller, call⟩ := action
  have hstep : step s (caller, call) = some t ↔ execute s caller call = .ok t := by
    unfold step
    cases execute s caller call <;> simp [Except.toOption]
  rw [hstep]
  cases call with
  | configureQuorum a b c threshold =>
    refine configureQuorum_ok.trans ⟨?_, ?_⟩
    · rintro ⟨hf, hp, hb, rfl⟩
      exact .configured hf hp hb
    · rintro ⟨hf, hp, hb⟩
      exact ⟨hf, hp, hb, rfl⟩
  | proposeEnvelope p h =>
    refine proposeEnvelope_ok.trans ⟨?_, ?_⟩
    · rintro ⟨hc, hs, hf, rfl⟩
      exact .proposed hc hs hf
    · intro he
      cases he with
      | proposed hc hs hf => exact ⟨hc, hs, hf, rfl⟩
  | approveEnvelope p =>
    refine approveEnvelope_ok.trans ⟨?_, ?_⟩
    · rintro ⟨hc, hs, hp, hf, rfl⟩
      exact .approved hc hs hp hf
    · intro he
      cases he with
      | approved hc hs hp hf => exact ⟨hc, hs, hp, hf, rfl⟩
  | storeGovernanceReceipt args =>
    refine storeGovernanceReceipt_ok.trans ⟨?_, ?_⟩
    · rintro ⟨hc, hp, hq, rfl⟩
      exact .stored hc hp hq
    · intro he
      cases he with
      | stored hc hp hq => exact ⟨hc, hp, hq, rfl⟩

end Effects
end Concordia.Contract.GovernanceReceipt
