import Concordia.Contract.History
import Mathlib.Data.Set.Card

/-! Authorization provenance: behind every authorized action stand a proposal, a
quorum of distinct signers for the committed hash, and the finalizer's call. -/
namespace Concordia.Contract.GovernanceReceiptV3
open Concordia.Lib.Transition

/-- The configured signers recorded as having approved the committed hash of `p`. -/
def State.approvers (s : State) (p : String) : Finset Bytes32 :=
  s.roles.signerSet.filter fun x => s.hasApproved p x = true

theorem State.hasApproved_committed {s : State} {p : String} {h : Bytes32}
    (hc : s.proposedEnvelopes p = some h) (x : Bytes32) :
    s.hasApproved p x = (s.approvals (p, h, x)).getD false := by
  simp [State.hasApproved, hc]

theorem State.hasApproved_missing {s : State} {p : String} (hc : s.proposedEnvelopes p = none)
    (x : Bytes32) : s.hasApproved p x = false := by
  simp [State.hasApproved, hc]

/-- The counter of `p` counts exactly the marks on the committed hash of `p`. -/
structure Tally (s : State) : Prop where
  marks : ∀ p h x, (s.approvals (p, h, x)).getD false = true →
    s.proposedEnvelopes p = some h ∧ x ∈ s.roles.signerSet
  counted : ∀ p, (s.approvalCount p).toNat = (s.approvers p).card

section Counting
variable {blake2b256 : List UInt8 → Bytes32} {s s₀ t : State} {a : Address × Call}
  {log : List (Address × Call)} {p : String}

theorem Tally.count_le (ht : Tally s) (p : String) : (s.approvalCount p).toNat ≤ 3 := by
  rw [ht.counted]
  exact (Finset.card_filter_le _ _).trans s.roles.card_signerSet_le

theorem Tally.coe_approvers (ht : Tally s) (p : String) :
    {x | s.hasApproved p x = true} = (s.approvers p : Set Bytes32) := by
  ext x
  simp only [Set.mem_ofPred_eq, State.approvers, Finset.coe_filter, iff_and_self]
  intro hx
  cases hc : s.proposedEnvelopes p with
  | none => simp [State.hasApproved_missing hc] at hx
  | some h => exact (ht.marks p h x (by rwa [State.hasApproved_committed hc] at hx)).2

theorem Tally.count_eq_ncard (ht : Tally s) (p : String) :
    (s.approvalCount p).toNat = {x | s.hasApproved p x = true}.ncard := by
  rw [ht.coe_approvers, Set.ncard_coe_finset, ht.counted]

theorem Installed.tally (h : Installed s) : Tally s := by
  refine ⟨?_, ?_⟩
  · simp [h.approvals]
  · intro p
    simp [State.approvalCount, h.counts, State.approvers, State.hasApproved_missing (h.proposed p)]

private theorem Tally.proposal (ht : Tally s) {h : Bytes32}
    (fresh : s.proposedEnvelopes p = none) : Tally (s.withProposal p h) := by
  refine ⟨?_, ?_⟩
  · intro q g x hm
    have hold := ht.marks q g x hm
    have hq : q ≠ p := by
      rintro rfl
      simp [fresh] at hold
    exact ⟨(set_other hq).trans hold.1, hold.2⟩
  · intro q
    by_cases hq : q = p
    · subst hq
      have hnone : ∀ x, (s.withProposal q h).hasApproved q x = false := by
        intro x
        have hx := ht.marks q h x
        simpa [State.hasApproved, State.withProposal, fresh] using hx
      have hcount : (s.withProposal q h).approvalCount q = 0 := by
        simp [State.approvalCount, State.withProposal]
      simp [State.approvers, hnone, hcount]
    · have hsame : ∀ x, (s.withProposal p h).hasApproved q x = s.hasApproved q x := by
        intro x
        simp [State.hasApproved, State.withProposal, set_other hq]
      have hcount : (s.withProposal p h).approvalCount q = s.approvalCount q := by
        simp [State.approvalCount, State.withProposal, set_other hq]
      have hroles : (s.withProposal p h).roles = s.roles := rfl
      simp only [State.approvers, hsame, hcount, hroles]
      exact ht.counted q

private theorem approvers_insert {h x : Bytes32} (hc : s.proposedEnvelopes p = some h)
    (hx : x ∈ s.roles.signerSet) :
    (s.withApproval p h x).approvers p = insert x (s.approvers p) := by
  ext y
  have hroles : (s.withApproval p h x).roles = s.roles := rfl
  have hcommit : (s.withApproval p h x).proposedEnvelopes p = some h := hc
  simp only [State.approvers, hroles, Finset.mem_filter, Finset.mem_insert,
    State.hasApproved_committed hc, State.hasApproved_committed hcommit]
  by_cases hy : y = x
  · simp [hy, hx, State.withApproval]
  · have hk : (p, h, y) ≠ (p, h, x) := by simp [hy]
    simp [hy, State.withApproval, set_other hk]

private theorem Tally.approval (ht : Tally s) (hsound : s.roles.Sound) {h x : Bytes32}
    (signer : (s.signers x).getD false = true) (hc : s.proposedEnvelopes p = some h)
    (fresh : (s.approvals (p, h, x)).getD false = false) : Tally (s.withApproval p h x) := by
  have hx : x ∈ s.roles.signerSet := (hsound.marked_iff x).mp signer
  refine ⟨?_, ?_⟩
  · intro q g y hm
    by_cases hk : (q, g, y) = (p, h, x)
    · simp only [Prod.mk.injEq] at hk
      obtain ⟨rfl, rfl, rfl⟩ := hk
      exact ⟨hc, hx⟩
    · exact ht.marks q g y (by simpa [State.withApproval, set_other hk] using hm)
  · intro q
    by_cases hq : q = p
    · subst hq
      have hnew : x ∉ s.approvers q := by
        simp [State.approvers, State.hasApproved_committed hc, fresh]
      have hle := ht.count_le q
      have hcount : (s.withApproval q h x).approvalCount q = s.approvalCount q + 1 := by
        simp [State.approvalCount, State.withApproval]
      rw [approvers_insert hc hx, Finset.card_insert_of_notMem hnew, ← ht.counted, hcount,
        UInt8.toNat_add]
      exact Nat.mod_eq_of_lt (by simp; omega)
    · have hsame : ∀ y, (s.withApproval p h x).hasApproved q y = s.hasApproved q y := by
        intro y
        have hk : ∀ g, (q, g, y) ≠ (p, h, x) := by simp [hq]
        simp [State.hasApproved, State.withApproval, set_other (hk _)]
      have hcount : (s.withApproval p h x).approvalCount q = s.approvalCount q := by
        simp [State.approvalCount, State.withApproval, set_other hq]
      have hroles : (s.withApproval p h x).roles = s.roles := rfl
      simp only [State.approvers, hsame, hcount, hroles]
      exact ht.counted q

theorem Tally.step (ht : Tally s) (hsound : s.roles.Sound) (he : Effect blake2b256 s a t) :
    Tally t := by
  cases he with
  | proposed _ fresh => exact ht.proposal fresh
  | approved signer _ hc _ fresh => exact ht.approval hsound signer hc fresh
  | finalized => exact ⟨ht.marks, ht.counted⟩

theorem accepts_tally (hs : Installed s₀) (h : Accepts (step blake2b256) s₀ log s) : Tally s := by
  have hboth := h.invariant (P := fun v => v.roles = s₀.roles ∧ Tally v) ⟨rfl, hs.tally⟩ ?_
  · exact hboth.2
  · rintro v b w ⟨hroles, ht⟩ hstep
    have he := step_effect hstep
    exact ⟨he.roles_eq.trans hroles, ht.step (hroles ▸ hs.sound) he⟩

/-- A finalization of `p` with action `i` in the log, behind it the proposer's call for some
hash and, in between, a quorum of distinct signers approving that very hash. -/
def Provenance (blake2b256 : List UInt8 → Bytes32) (s₀ : State) (log : List (Address × Call))
    (p : String) (i : Bytes32) : Prop :=
  ∃ h before between after call args v, ∃ quorum : List Bytes32,
    log = before ++ (.account s₀.proposer, .proposeEnvelope p h) :: between ++
      (.account s₀.finalizer, call) :: after ∧
    quorum.Nodup ∧ s₀.threshold.toNat ≤ quorum.length ∧
    (∀ x ∈ quorum, x ∈ s₀.roles.signerSet ∧ (.account x, .approveEnvelope p h) ∈ between) ∧
    call.finalization = some args ∧ args.proposalId = p ∧ args.actionId = i ∧
    Accepts (step blake2b256) s₀
      (before ++ (.account s₀.proposer, .proposeEnvelope p h) :: between) v ∧
    v.proposedEnvelopes p = some h ∧ checkFinalize blake2b256 v call = .ok h

/-- An approval of `p` is accepted only after the proposal of `p`. -/
private theorem approval_after_proposal (hs : Installed s₀)
    {before between : List (Address × Call)} {caller : Address} {h g x : Bytes32}
    (hrun : Accepts (step blake2b256) s₀ (before ++ (caller, .proposeEnvelope p h) :: between) s)
    (hx : (.account x, .approveEnvelope p g) ∈
      before ++ (caller, Call.proposeEnvelope p h) :: between) :
    (.account x, .approveEnvelope p g) ∈ between := by
  obtain ⟨v, w, hv, hstep, -⟩ := hrun.split
  have hnone : v.proposedEnvelopes p = none := by
    cases step_effect hstep with
    | proposed _ fresh => exact fresh
    | finalized header => cases header
  have hbefore : (.account x, .approveEnvelope p g) ∉ before := by
    intro hm
    have := ((accepts_tally hs hv).marks p g x (((accepts_recorded hs hv).approved p g x).mpr hm)).1
    simp [hnone] at this
  simpa [hbefore] using hx

theorem accepts_provenance (hs : Installed s₀) (h : Accepts (step blake2b256) s₀ log s)
    {i : Bytes32} (ha : s.AuthorizedFor p i) : Provenance blake2b256 s₀ log p i := by
  obtain ⟨args, hmem, rfl, rfl⟩ := ((accepts_recorded hs h).announced p i).mp ha
  obtain ⟨⟨caller, call⟩, hcall, header⟩ := List.mem_filterMap.mp hmem
  obtain ⟨earlier, after, rfl⟩ := List.append_of_mem hcall
  obtain ⟨v, w, hv, hstep, -⟩ := h.split
  have hroles : v.roles = s₀.roles := accepts_roles_eq hv
  cases step_effect hstep with
  | proposed => cases header
  | approved => cases header
  | @finalized _ args' e header' _ committed _ quorum matching =>
    obtain rfl : args' = args := Option.some.inj (header'.symm.trans header)
    have hprop := ((accepts_recorded hs hv).proposed _ _).mp committed
    obtain ⟨before, between, rfl⟩ := List.append_of_mem hprop
    have hproposer : v.proposer = s₀.proposer := congrArg Roles.proposer hroles
    have hfinalizer : v.finalizer = s₀.finalizer := congrArg Roles.finalizer hroles
    have hthreshold : v.threshold = s₀.threshold := congrArg Roles.threshold hroles
    rw [hproposer] at hv
    refine ⟨e, before, between, after, call, args', v, (v.approvers args'.proposalId).toList,
      ?_, Finset.nodup_toList _, ?_, ?_, header, rfl, rfl, hv, committed, matching⟩
    · rw [hproposer, hfinalizer]
    · rw [Finset.length_toList, ← (accepts_tally hs hv).counted, ← hthreshold]
      simpa [State.quorumMet, committed, UInt8.le_iff_toNat_le] using quorum
    · intro x hx
      obtain ⟨hsigner, happroved⟩ := Finset.mem_filter.mp (Finset.mem_toList.mp hx)
      rw [State.hasApproved_committed committed, (accepts_recorded hs hv).approved] at happroved
      exact ⟨hroles ▸ hsigner, approval_after_proposal hs hv happroved⟩

/-- The accounts the constructor configures. -/
def Roles.accounts (r : Roles) : List Bytes32 :=
  [r.proposer, r.finalizer, r.signerA, r.signerB, r.signerC]

theorem step_caller (hsound : s.roles.Sound) {caller : Address} {call : Call}
    (h : step blake2b256 s (caller, call) = some t) :
    ∃ x ∈ s.roles.accounts, caller = .account x := by
  cases step_effect h with
  | proposed => exact ⟨_, by simp [Roles.accounts, State.roles], rfl⟩
  | approved signer =>
    have hx := (hsound.marked_iff _).mp signer
    exact ⟨_, by simp_all [Roles.accounts, Roles.signerSet], rfl⟩
  | finalized => exact ⟨_, by simp [Roles.accounts, State.roles], rfl⟩

end Counting

/-- Every authorization has its provenance, every counter counts the signers behind it, and
only the configured accounts change anything. -/
theorem authorization_provenance (blake2b256 : List UInt8 → Bytes32) (caller : Address)
    (args : InitArgs) (s₀ : State) (hinit : init blake2b256 caller args = .ok s₀)
    (calls : List (Address × Call)) (s : State) (log : List (Address × Call))
    (hrun : run (step blake2b256) s₀ calls = (s, log)) :
    2 ≤ s₀.threshold.toNat ∧ s₀.roles.signerSet = {args.signerA, args.signerB, args.signerC} ∧
    (∀ i, s.actionAuthorized i = true ↔ ∃ p, s.AuthorizedFor p i) ∧
    (∀ p i, s.AuthorizedFor p i → Provenance blake2b256 s₀ log p i) ∧
    (∀ p, (s.approvalCount p).toNat = {x | s.hasApproved p x = true}.ncard ∧
      (s.approvalCount p).toNat ≤ 3) ∧
    (∀ p h x, (s.approvals (p, h, x)).getD false = true →
      s.proposedEnvelopes p = some h ∧ x ∈ s₀.roles.signerSet) ∧
    (∀ outsider call, (∀ x ∈ s₀.roles.accounts, outsider ≠ .account x) →
      step blake2b256 s (outsider, call) = none) := by
  have hs := init_installed hinit
  have h : Accepts (step blake2b256) s₀ log s := by
    simpa [hrun] using run_accepts (step blake2b256) s₀ calls
  have ht := accepts_tally hs h
  refine ⟨?_, ?_, ?_, fun p i ha => accepts_provenance hs h ha, fun p => ⟨ht.count_eq_ncard p,
    ht.count_le p⟩, ?_, ?_⟩
  · have hth := hs.sound.threshold
    change 2 ≤ s₀.roles.threshold.toNat
    omega
  · exact (init_roles hinit).2.2.2
  · intro i
    simp only [(accepts_recorded hs h).authorized, (accepts_recorded hs h).announced]
    constructor
    · rintro ⟨args, hm, rfl⟩
      exact ⟨_, args, hm, rfl, rfl⟩
    · rintro ⟨p, args, hm, -, rfl⟩
      exact ⟨args, hm, rfl⟩
  · intro p g x hm
    exact (accepts_roles_eq h) ▸ ht.marks p g x hm
  · intro outsider call hout
    cases hstep : step blake2b256 s (outsider, call) with
    | none => rfl
    | some t =>
      obtain ⟨x, hx, rfl⟩ := step_caller ((accepts_roles_eq h) ▸ hs.sound) hstep
      exact absurd rfl (hout x ((accepts_roles_eq h) ▸ hx))

/-- The digests of the baseline vector's four preimages, told apart by their lengths. -/
def goldenBlake2b256 (preimage : List UInt8) : Bytes32 :=
  match preimage.length with
  | 102 => #v[
    0x40, 0x80, 0x4e, 0x79, 0x50, 0x4d, 0xf0, 0x11, 0xcc, 0xbe, 0x73, 0x26, 0x89, 0x8a, 0x9d, 0x7e,
    0x48, 0x9e, 0x01, 0xb4, 0x45, 0xf4, 0x83, 0xa1, 0x99, 0x46, 0x75, 0x84, 0xdd, 0xfb, 0x57, 0x26]
  | 312 => #v[
    0xad, 0xb7, 0xe7, 0xa9, 0x23, 0xb9, 0x60, 0xec, 0xe3, 0xd0, 0xf1, 0x22, 0xce, 0xfa, 0x0b, 0x05,
    0x2b, 0x75, 0x0f, 0x71, 0xec, 0x99, 0xfc, 0xaf, 0x67, 0xc2, 0x0f, 0x33, 0x9e, 0x14, 0xc9, 0xe1]
  | 108 => #v[
    0x21, 0x1e, 0xf0, 0x30, 0xc0, 0xbc, 0x32, 0xf3, 0x5e, 0x9c, 0x27, 0x4a, 0xe9, 0x9f, 0xac, 0xda,
    0x73, 0x44, 0xfd, 0x9d, 0x69, 0xdf, 0xb9, 0xab, 0xa0, 0x64, 0xc0, 0xcf, 0xaa, 0x95, 0x91, 0xe5]
  | _ => #v[
    0x9b, 0x3b, 0x6c, 0x9e, 0xc9, 0x1c, 0xbc, 0x6f, 0xfb, 0x65, 0x7a, 0xdd, 0xce, 0x26, 0xb4, 0x71,
    0x72, 0x83, 0x5e, 0x2a, 0x83, 0x37, 0xcf, 0x20, 0x9e, 0xca, 0x78, 0xac, 0x66, 0x4a, 0xb6, 0x46]

def filled (byte : UInt8) : Bytes32 := Vector.replicate 32 byte

def goldenInit : InitArgs where
  proposer := filled 1
  finalizer := filled 2
  signerA := filled 3
  signerB := filled 4
  signerC := filled 5
  threshold := 2
  casperChainName := "casper-test"
  installationNonce := filled 0xa5

def goldenHeader : HeaderArgs where
  proposalId := "DAO-PROP-V3-001"
  proposalNonce := filled 0x10
  decisionCode := 2
  requestedAllocationBps := 3000
  approvedAllocationBps := 800
  actionKind := 1
  actionVersion := 1
  actionId := goldenBlake2b256 (List.replicate 312 0)
  proposalHash := filled 0x31
  policyHash := filled 0x32
  planHash := filled 0x33
  finalCardHash := filled 0x34
  dissentHash := filled 0x35
  agentActionHash := filled 0x36
  preauthEvidenceRoot := filled 0x37
  authorizedMetadataRoot := filled 0x38

def goldenBody : NativeTransferV1 where
  assetKind := 0
  sourceAccount := filled 0x41
  recipientAccount := filled 0x42
  amountMotes := ⟨50000000000, by decide +kernel⟩
  treasurySnapshotBalanceMotes := ⟨625000000000, by decide +kernel⟩
  snapshotBlockHash := filled 0x43
  snapshotBlockHeight := 8590556
  transferId := 2386608944735597299
  actionNonce := filled 0x44
  executionTarget := "native-transfer"
  executionVersion := 1

/-- Proposal, two approvals and finalization of the baseline vector, by the right callers. -/
def goldenCalls : List (Address × Call) :=
  let envelopeHash := goldenBlake2b256 []
  [(.account (filled 1), .proposeEnvelope "DAO-PROP-V3-001" envelopeHash),
    (.account (filled 3), .approveEnvelope "DAO-PROP-V3-001" envelopeHash),
    (.account (filled 4), .approveEnvelope "DAO-PROP-V3-001" envelopeHash),
    (.account (filled 2), .finalizeNativeTransfer goldenHeader goldenBody)]

def goldenInstalled : State :=
  (init goldenBlake2b256 (.account (filled 9)) goldenInit).toOption.getD State.empty

def goldenRun : State × List (Address × Call) :=
  run (step goldenBlake2b256) goldenInstalled goldenCalls

theorem eq_ok_getD {E V : Type} {result : Except E V} {v : V}
    (h : result.toOption.isSome = true) : result = .ok (result.toOption.getD v) := by
  cases result <;> simp_all [Except.toOption]

theorem goldenInstalled_ok :
    init goldenBlake2b256 (.account (filled 9)) goldenInit = .ok goldenInstalled :=
  eq_ok_getD (by decide +kernel)

theorem authorization_provenance_golden :
    goldenRun.1.actionAuthorized goldenHeader.actionId = true ∧
      Provenance goldenBlake2b256 goldenInstalled goldenRun.2 "DAO-PROP-V3-001"
        goldenHeader.actionId := by
  have h := authorization_provenance goldenBlake2b256 _ _ _ goldenInstalled_ok goldenCalls
    goldenRun.1 goldenRun.2 (Prod.eta goldenRun).symm
  have hmem : State.AuthorizedFor goldenRun.1 "DAO-PROP-V3-001" goldenHeader.actionId := by
    exact ⟨goldenBlake2b256 [], filled 2, 2, 3, 1, by decide +kernel⟩
  exact ⟨(h.2.2.1 _).mpr ⟨_, hmem⟩, h.2.2.2.1 _ _ hmem⟩

end Concordia.Contract.GovernanceReceiptV3
