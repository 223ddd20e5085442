import Concordia.Contract.GovernanceReceipt
import Concordia.Contract.Provenance

/-! Stored receipts. The contract gates the store call by a quorum on the envelope hash, but takes
the receipt from the caller and stores it over an earlier one: a receipt is final, and determined
by the approved hash, as long as the callers themselves keep to what the hash stands for. -/
namespace Concordia.Contract.GovernanceReceipt
open Concordia.Lib.Transition
open GovernanceReceiptV3 (set set_self set_other set_apply filled)

/-- A store call carries, for the hash committed to its proposal, the receipt arguments that
`content` has for it. -/
def StoresContent (content : String → Bytes32 → ReceiptArgs) (s : State)
    (action : Address × Call) : Prop :=
  ∀ args h, action.2 = .storeGovernanceReceipt args →
    s.proposedEnvelopes args.proposalId = some (hex32 h) → args = content args.proposalId h

/-- Every step of the run stores such receipts only. -/
abbrev KeepsContent (content : String → Bytes32 → ReceiptArgs) (s : State)
    (log : List (Address × Call)) : Prop :=
  EveryStep step s log (StoresContent content)

/-- Stored receipts say what their proposal's committed hash stands for. -/
def HoldsContent (content : String → Bytes32 → ReceiptArgs) (s : State) : Prop :=
  ∀ p r, s.receipts p = some r → (s.proposedEnvelopes p).isSome = true ∧
    ∀ h, s.proposedEnvelopes p = some (hex32 h) → r = receiptText (content p h)

section Runs
variable {content : String → Bytes32 → ReceiptArgs} {s t : State} {a : Address × Call}
  {log : List (Address × Call)} {p : String} {e : String}

/-- A proposed envelope is never replaced. -/
theorem Effect.proposed_eq (he : Effect s a t) (hp : s.proposedEnvelopes p = some e) :
    t.proposedEnvelopes p = some e := by
  cases he with
  | configured => exact hp
  | @proposed x q h _ _ fresh =>
    have hq : p ≠ q := by
      rintro rfl
      simp [fresh] at hp
    exact (set_other hq).trans hp
  | approved => exact hp
  | stored => exact hp

theorem accepts_proposed (hp : s.proposedEnvelopes p = some e) (h : Accepts step s log t) :
    t.proposedEnvelopes p = some e :=
  h.invariant (P := fun v => v.proposedEnvelopes p = some e) hp
    fun _ _ _ hv hstep => (step_iff_effect.mp hstep).proposed_eq hv

/-- Only hashes are ever proposed. -/
theorem accepts_hashed (h : Accepts step .deployed log s) (hp : s.proposedEnvelopes p = some e) :
    ∃ g, e = hex32 g := by
  have hall : ∀ q f, s.proposedEnvelopes q = some f → ∃ g, f = hex32 g := by
    refine h.invariant
      (P := fun v : State => ∀ q f, v.proposedEnvelopes q = some f → ∃ g, f = hex32 g) ?_ ?_
    · intro q f hq
      cases hq
    · intro v b w hv hstep q f hq
      cases step_iff_effect.mp hstep with
      | configured => exact hv q f hq
      | @proposed x r g =>
        by_cases hqr : q = r
        · subst hqr
          exact ⟨g, Option.some.inj (hq.symm.trans (set_self ..))⟩
        · exact hv q f ((set_other hqr).symm.trans hq)
      | approved => exact hv q f hq
      | stored => exact hv q f hq
  exact hall p e hp

theorem HoldsContent.deployed : HoldsContent content .deployed := by
  intro p r hr
  cases hr

theorem HoldsContent.step (hh : HoldsContent content s) (ha : StoresContent content s a)
    (he : Effect s a t) : HoldsContent content t := by
  intro p r hr
  cases he with
  | configured => exact hh p r hr
  | @proposed x q g _ _ fresh =>
    obtain ⟨hsome, hcontent⟩ := hh p r hr
    have hq : p ≠ q := by
      rintro rfl
      simp [fresh] at hsome
    have hsame : (s.withProposal q g).proposedEnvelopes p = s.proposedEnvelopes p := set_other hq
    rw [hsame]
    exact ⟨hsome, hcontent⟩
  | approved => exact hh p r hr
  | @stored caller args _ proposed =>
    by_cases hp : p = args.proposalId
    · subst hp
      have htext : r = receiptText args := Option.some.inj (hr.symm.trans (set_self ..))
      refine ⟨proposed, fun g hg => ?_⟩
      rw [htext, ← ha args g rfl hg]
    · exact hh p r ((set_other hp).symm.trans hr)

theorem accepts_content (h : Accepts step s log t) (hs : HoldsContent content s)
    (hkeep : KeepsContent content s log) : HoldsContent content t :=
  h.guarded hkeep hs fun _ _ _ _ _ hv hok hstep => hv.step hok (step_iff_effect.mp hstep)

/-- A receipt is never taken away. -/
theorem accepts_receipt (h : Accepts step s log t) (hr : (s.receipts p).isSome = true) :
    (t.receipts p).isSome = true := by
  refine h.invariant (P := fun v => (v.receipts p).isSome = true) hr ?_
  intro v b w hv hstep
  cases step_iff_effect.mp hstep with
  | configured => exact hv
  | proposed => exact hv
  | approved => exact hv
  | @stored caller args =>
    change (set v.receipts args.proposalId (receiptText args) p).isSome = true
    rw [set_apply]
    split
    · rfl
    · exact hv

end Runs

/-- In the runs whose store calls keep to what the committed hashes stand for: a stored receipt
is the text of that content and never changes, and continuations with the same committed hash
store the same receipt. -/
theorem receipts_determined (content : String → Bytes32 → ReceiptArgs)
    (calls : List (Address × Call)) (s : State) (log : List (Address × Call))
    (hrun : run step .deployed calls = (s, log)) (hkeep : KeepsContent content .deployed log) :
    (∀ p r, s.receipts p = some r → ∃ h, s.proposedEnvelopes p = some (hex32 h) ∧
      r = receiptText (content p h)) ∧
    (∀ later, KeepsContent content s (run step s later).2 → ∀ p r, s.receipts p = some r →
      (run step s later).1.receipts p = some r) ∧
    ∀ later₁ later₂, KeepsContent content s (run step s later₁).2 →
      KeepsContent content s (run step s later₂).2 → ∀ p h r₁ r₂,
      s.proposedEnvelopes p = some (hex32 h) → (run step s later₁).1.receipts p = some r₁ →
      (run step s later₂).1.receipts p = some r₂ → r₁ = r₂ := by
  have haccepts : Accepts step .deployed log s := by
    simpa [hrun] using run_accepts step .deployed calls
  have hholds : HoldsContent content s := accepts_content haccepts .deployed hkeep
  have hlater : ∀ later, KeepsContent content s (run step s later).2 → ∀ p h r,
      s.proposedEnvelopes p = some (hex32 h) → (run step s later).1.receipts p = some r →
        r = receiptText (content p h) := by
    intro later hk p h r hp hr
    have hl := run_accepts step s later
    exact (accepts_content hl hholds hk p r hr).2 h (accepts_proposed hp hl)
  have hstored : ∀ p r, s.receipts p = some r → ∃ h, s.proposedEnvelopes p = some (hex32 h) ∧
      r = receiptText (content p h) := by
    intro p r hr
    obtain ⟨hsome, hcontent⟩ := hholds p r hr
    obtain ⟨e, hp⟩ := Option.isSome_iff_exists.mp hsome
    obtain ⟨h, rfl⟩ := accepts_hashed haccepts hp
    exact ⟨h, hp, hcontent h hp⟩
  refine ⟨hstored, ?_, ?_⟩
  · intro later hk p r hr
    obtain ⟨h, hp, rfl⟩ := hstored p r hr
    obtain ⟨r', hr'⟩ := Option.isSome_iff_exists.mp
      (accepts_receipt (run_accepts step s later) (by rw [hr]; rfl : (s.receipts p).isSome = true))
    rw [hr', hlater later hk p h r' hp hr']
  · intro later₁ later₂ hk₁ hk₂ p h r₁ r₂ hp hr₁ hr₂
    exact (hlater later₁ hk₁ p h r₁ hp hr₁).trans (hlater later₂ hk₂ p h r₂ hp hr₂).symm

/-- The receipt of the contract's own tests, for an allocation of 800 basis points. -/
def sampleReceipt : ReceiptArgs where
  proposalId := "DAO-PROP-6CB25C"
  proposalType := "DEFI_TREASURY_REALLOCATION"
  proposalHash := filled 1
  finalCardHash := filled 2
  planHash := filled 3
  decision := "APPROVED_WITH_LIMITS"
  riskLevel := "MEDIUM"
  riskScore := 61
  treasuryAction := "cap_to_800_bps"
  policyHash := filled 4
  policyVersion := "2026.06.cas-v1"
  dissentHash := filled 5
  approvedAllocationBps := 800
  casperNetwork := "casper-test"
  agentCouncilVersion := "concordia-dao-council-2026.06"
  evidenceUri := "ipfs://bafkrei..."
  agentActionHash := filled 6

def signer (byte : UInt8) : Address := .account (filled byte)

/-- Two of three signers approve the envelope of the sample proposal. -/
def approvalCalls : List (Address × Call) :=
  [(signer 1, .configureQuorum (signer 1) (signer 2) (signer 3) 2),
    (signer 1, .proposeEnvelope "DAO-PROP-6CB25C" (filled 9)),
    (signer 1, .approveEnvelope "DAO-PROP-6CB25C"),
    (signer 2, .approveEnvelope "DAO-PROP-6CB25C")]

/-- Anyone's call to store the sample receipt, with this decision in it. -/
def storeCall (decision : String) : Address × Call :=
  (signer 7, .storeGovernanceReceipt { sampleReceipt with decision := decision })

/-- The approved run, the sample receipt stored at its end. -/
def storedRun : State × List (Address × Call) :=
  run step .deployed (approvalCalls ++ [storeCall "APPROVED_WITH_LIMITS"])

private theorem keepsContent_sample {s : State} {calls : List (Address × Call)}
    (h : ∀ b ∈ calls, ∀ args, b.2 = .storeGovernanceReceipt args → args = sampleReceipt) :
    KeepsContent (fun _ _ => sampleReceipt) s (run step s calls).2 := by
  intro before b after v heq _ args g hb _
  have hmem : b ∈ (run step s calls).2 := by
    rw [heq]
    exact List.mem_append_right _ List.mem_cons_self
  exact h b (mem_of_mem_run hmem) args hb

theorem receipts_determined_sample :
    storedRun.1.receipts "DAO-PROP-6CB25C" = some (receiptText sampleReceipt) ∧
    (run step storedRun.1 [storeCall "APPROVED_WITH_LIMITS",
      (signer 3, .approveEnvelope "DAO-PROP-6CB25C")]).1.receipts "DAO-PROP-6CB25C" =
        some (receiptText sampleReceipt) := by
  have hstored : storedRun.1.receipts "DAO-PROP-6CB25C" = some (receiptText sampleReceipt) := by
    decide +kernel
  refine ⟨hstored, ?_⟩
  refine (receipts_determined (fun _ _ => sampleReceipt) _ storedRun.1 storedRun.2
    (Prod.eta storedRun).symm (keepsContent_sample ?_)).2.1 _ (keepsContent_sample ?_) _ _ hstored
  · simp [approvalCalls, storeCall, sampleReceipt]
  · simp [storeCall, sampleReceipt]

/-- After one and the same approved envelope a stranger stores either decision, and replaces
the stored one by the other. -/
theorem receipt_replaced :
    let s := (run step .deployed approvalCalls).1
    let p := "DAO-PROP-6CB25C"
    s.proposedEnvelopes p = some (hex32 (filled 9)) ∧ s.quorumMet p = true ∧
    (run step s [storeCall "APPROVED"]).1.receipts p ≠
      (run step s [storeCall "REJECTED"]).1.receipts p ∧
    (run step s [storeCall "APPROVED", storeCall "REJECTED"]).1.receipts p ≠
      (run step s [storeCall "APPROVED"]).1.receipts p ∧
    (run step s [storeCall "APPROVED"]).1.receipts p ≠ none := by
  decide +kernel

end Concordia.Contract.GovernanceReceipt
