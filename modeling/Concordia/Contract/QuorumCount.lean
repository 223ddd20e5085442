import Concordia.Contract.StoredReceipts
import Mathlib.Data.Set.Card

/-! Quorum counting. Approvals are counted over distinct signers in every run, but the stored
signer count is the constant three: it is right, and quorum reachable, when the addresses
configured as signers are pairwise distinct. -/
namespace Concordia.Contract.GovernanceReceipt
open Concordia.Lib.Transition
open GovernanceReceiptV3 (set set_self set_other set_apply filled)

/-- The configuration a quorum was given, and the signers it really has. -/
structure Configuration (S : Finset Address) (threshold : UInt32) (s : State) : Prop where
  configured : s.configured = true
  count : s.storedSignerCount = 3
  threshold_eq : s.threshold = threshold
  signers : ∀ x, s.isSigner x = true ↔ x ∈ S

/-- What the approval marks say about the accepted calls, and the counters about the marks. -/
structure Tally (S : Finset Address) (log : List (Address × Call)) (s : State) : Prop where
  marks : ∀ p x, s.hasApproved p x = true ↔ (x, .approveEnvelope p) ∈ log
  valid : ∀ p x, s.hasApproved p x = true → x ∈ S ∧ (s.proposedEnvelopes p).isSome = true
  counted : ∀ p, (s.approvalCount p).toNat = (S.filter fun x => s.hasApproved p x = true).card

section Counting
variable {S : Finset Address} {threshold : UInt32} {s t : State} {a : Address × Call}
  {log : List (Address × Call)} {p : String}

/-- Before the quorum is configured nothing else is accepted. -/
theorem accepts_unconfigured (h : Accepts step .deployed log s) (hs : s.configured = false) :
    log = [] := by
  have hlog : s.configured = true ∨ log = [] := by
    refine h.history (P := fun l v => v.configured = true ∨ l = []) (.inr rfl) ?_
    intro l v b w _ hstep
    left
    cases step_iff_effect.mp hstep with
    | configured => rfl
    | proposed configured => exact configured
    | approved configured => exact configured
    | stored configured => exact configured
  rcases hlog with hlog | hlog
  · simp [hs] at hlog
  · exact hlog

theorem Configuration.step (hc : Configuration S threshold s) (he : Effect s a t) :
    Configuration S threshold t := by
  cases he with
  | configured fresh => simp [hc.configured] at fresh
  | proposed => exact ⟨hc.configured, hc.count, hc.threshold_eq, hc.signers⟩
  | approved => exact ⟨hc.configured, hc.count, hc.threshold_eq, hc.signers⟩
  | stored => exact ⟨hc.configured, hc.count, hc.threshold_eq, hc.signers⟩

theorem accepts_configuration (hc : Configuration S threshold s) (h : Accepts step s log t) :
    Configuration S threshold t :=
  h.invariant hc fun _ _ _ hv hstep => hv.step (step_iff_effect.mp hstep)

theorem withQuorum_configuration (caller x y z : Address) (threshold : UInt32) :
    Configuration {x, y, z} threshold (State.deployed.withQuorum caller x y z threshold) := by
  refine ⟨rfl, rfl, rfl, fun w => ?_⟩
  simp only [State.isSigner, State.withQuorum, State.deployed, set_apply, Finset.mem_insert,
    Finset.mem_singleton]
  split_ifs <;> simp_all

theorem withQuorum_tally (caller x y z : Address) (threshold : UInt32) :
    Tally S [(caller, .configureQuorum x y z threshold)]
      (State.deployed.withQuorum caller x y z threshold) := by
  refine ⟨?_, ?_, ?_⟩
  · simp [State.hasApproved, State.withQuorum, State.deployed]
  · simp [State.hasApproved, State.withQuorum, State.deployed]
  · simp [State.approvalCount, State.hasApproved, State.withQuorum, State.deployed]

@[simp] theorem withProposal_hasApproved {q : String} {h : Bytes32} {y : Address} :
    (s.withProposal p h).hasApproved q y = s.hasApproved q y := rfl

@[simp] theorem withReceipt_hasApproved {args : ReceiptArgs} {q : String} {y : Address} :
    (s.withReceipt args).hasApproved q y = s.hasApproved q y := rfl

private theorem Tally.proposal (ht : Tally S log s) {x : Address} {h : Bytes32}
    (fresh : s.proposedEnvelopes p = none) :
    Tally S (log ++ [(x, .proposeEnvelope p h)]) (s.withProposal p h) := by
  refine ⟨fun q y => ?_, fun q y hy => ?_, fun q => ?_⟩
  · simpa using ht.marks q y
  · obtain ⟨hS, hq⟩ := ht.valid q y hy
    refine ⟨hS, ?_⟩
    have hne : q ≠ p := by
      rintro rfl
      simp [fresh] at hq
    have hsame : (s.withProposal p h).proposedEnvelopes q = s.proposedEnvelopes q := set_other hne
    rwa [hsame]
  · by_cases hq : q = p
    · subst hq
      have hnone : ∀ y, s.hasApproved q y = false := by
        intro y
        by_contra hy
        have := (ht.valid q y (by simpa using hy)).2
        simp [fresh] at this
      have hcount : (s.withProposal q h).approvalCount q = 0 := by
        simp [State.approvalCount, State.withProposal]
      change _ = (S.filter fun y => s.hasApproved q y = true).card
      simp [hcount, hnone]
    · have hcount : (s.withProposal p h).approvalCount q = s.approvalCount q := by
        simp [State.approvalCount, State.withProposal, set_other hq]
      rw [hcount]
      exact ht.counted q

private theorem withApproval_hasApproved {q : String} {x y : Address} :
    (s.withApproval p x).hasApproved q y = true ↔ (q = p ∧ y = x) ∨ s.hasApproved q y = true := by
  simp only [State.hasApproved, State.withApproval, set_apply, Prod.mk.injEq]
  split_ifs with h <;> simp [h]

private theorem Tally.approval (ht : Tally S log s) (hS : S.card ≤ 3) {x : Address} (hx : x ∈ S)
    (proposed : (s.proposedEnvelopes p).isSome = true) (fresh : s.hasApproved p x = false) :
    Tally S (log ++ [(x, .approveEnvelope p)]) (s.withApproval p x) := by
  refine ⟨fun q y => ?_, fun q y hy => ?_, fun q => ?_⟩
  · rw [withApproval_hasApproved, ht.marks]
    simp only [List.mem_append, List.mem_singleton, Prod.mk.injEq, Call.approveEnvelope.injEq]
    tauto
  · rcases withApproval_hasApproved.mp hy with ⟨rfl, rfl⟩ | hold
    · exact ⟨hx, proposed⟩
    · exact ht.valid q y hold
  · by_cases hq : q = p
    · subst hq
      have hinsert : (S.filter fun y => (s.withApproval q x).hasApproved q y = true) =
          insert x (S.filter fun y => s.hasApproved q y = true) := by
        ext y
        simp only [Finset.mem_filter, Finset.mem_insert, withApproval_hasApproved, true_and]
        constructor
        · rintro ⟨hy, rfl | hold⟩
          · exact .inl rfl
          · exact .inr ⟨hy, hold⟩
        · rintro (rfl | ⟨hy, hold⟩)
          · exact ⟨hx, .inl rfl⟩
          · exact ⟨hy, .inr hold⟩
      have hcard : (S.filter fun y => s.hasApproved q y = true).card ≤ 3 :=
        (Finset.card_filter_le _ _).trans hS
      have hcount : (s.withApproval q x).approvalCount q = s.approvalCount q + 1 := by
        simp [State.approvalCount, State.withApproval]
      rw [hinsert, Finset.card_insert_of_notMem (by simp [fresh]), ← ht.counted, hcount,
        UInt32.toNat_add]
      have := ht.counted q
      change ((s.approvalCount q).toNat + 1) % 2 ^ 32 = (s.approvalCount q).toNat + 1
      omega
    · have hcount : (s.withApproval p x).approvalCount q = s.approvalCount q := by
        simp [State.approvalCount, State.withApproval, set_other hq]
      have hsame : ∀ y, (s.withApproval p x).hasApproved q y = true ↔ s.hasApproved q y = true := by
        intro y
        rw [withApproval_hasApproved]
        simp [hq]
      simp only [hcount, hsame]
      exact ht.counted q

theorem Tally.step (ht : Tally S log s) (hc : Configuration S threshold s) (hS : S.card ≤ 3)
    (he : Effect s a t) : Tally S (log ++ [a]) t := by
  cases he with
  | configured fresh => simp [hc.configured] at fresh
  | proposed _ _ fresh => exact ht.proposal fresh
  | approved _ signer proposed fresh =>
    exact ht.approval hS ((hc.signers _).mp signer) proposed fresh
  | stored =>
    refine ⟨fun q y => ?_, ht.valid, ht.counted⟩
    simpa using ht.marks q y

theorem accepts_tally {after : List (Address × Call)} (ht : Tally S log s)
    (hc : Configuration S threshold s) (hS : S.card ≤ 3) (h : Accepts step s after t) :
    Tally S (log ++ after) t := by
  induction h with
  | start => simpa using ht
  | accept hv hstep ih =>
    rw [← List.append_assoc]
    exact ih.step (accepts_configuration hc hv) hS (step_iff_effect.mp hstep)

theorem Tally.ncard_eq (ht : Tally S log s) (p : String) :
    {x | (x, Call.approveEnvelope p) ∈ log}.ncard = (s.approvalCount p).toNat := by
  have hset : {x | (x, Call.approveEnvelope p) ∈ log} =
      (S.filter fun x => s.hasApproved p x = true : Finset Address) := by
    ext x
    simp only [Set.mem_ofPred_eq, Finset.coe_filter, ← ht.marks, iff_and_self]
    exact fun hx => (ht.valid p x hx).1
  rw [hset, Set.ncard_coe_finset, ht.counted]

/-- Attempts to approve, one for each listed signer, leave all of them recorded. -/
theorem run_approvals (hc : Configuration S threshold s)
    (hp : (s.proposedEnvelopes p).isSome = true) (signers : List Address)
    (hsub : ∀ x ∈ signers, x ∈ S) : ∀ x ∈ signers,
      (run step s (signers.map fun y => (y, .approveEnvelope p))).1.hasApproved p x = true := by
  induction signers using List.reverseRecOn with
  | nil => simp
  | append_singleton signers y ih =>
    have ih := ih fun x hx => hsub x (List.mem_append_left _ hx)
    rw [List.map_append, List.map_singleton, run, List.foldl_append]
    change ∀ x ∈ signers ++ [y], (attempt step
      (run step s (signers.map fun y => (y, .approveEnvelope p))) (y, .approveEnvelope p)).1.hasApproved
        p x = true
    have hv := run_accepts step s (signers.map fun y => (y, .approveEnvelope p))
    generalize run step s (signers.map fun y => (y, .approveEnvelope p)) = c at ih hv
    have hcv := accepts_configuration hc hv
    have hpv : (c.1.proposedEnvelopes p).isSome = true := by
      obtain ⟨e, he⟩ := Option.isSome_iff_exists.mp hp
      rw [accepts_proposed he hv]
      rfl
    have hy : c.1.isSigner y = true := (hcv.signers y).mpr (hsub y (by simp))
    have hstate : (attempt step c (y, .approveEnvelope p)).1.hasApproved p y = true ∧
        ∀ x, c.1.hasApproved p x = true →
          (attempt step c (y, .approveEnvelope p)).1.hasApproved p x = true := by
      cases hold : c.1.hasApproved p y with
      | false =>
        have hstep := step_iff_effect.mpr (.approved hcv.configured hy hpv hold)
        simp only [attempt, hstep, withApproval_hasApproved]
        exact ⟨.inl ⟨trivial, trivial⟩, fun x hx => .inr hx⟩
      | true =>
        have hnone : step c.1 (y, .approveEnvelope p) = none := by
          refine Option.eq_none_iff_forall_ne_some.mpr fun t ht => ?_
          cases step_iff_effect.mp ht with
          | approved _ _ _ fresh => simp [hold] at fresh
        simp only [attempt, hnone]
        exact ⟨hold, fun x hx => hx⟩
    intro x hx
    rcases List.mem_append.mp hx with hin | hlast
    · exact hstate.2 x (ih x hin)
    · rw [List.mem_singleton.mp hlast]
      exact hstate.1

/-- Some run of approvals reaches quorum on `p`. -/
def QuorumReachable (s : State) (p : String) : Prop :=
  ∃ approvers : List Address,
    (run step s (approvers.map fun x => (x, .approveEnvelope p))).1.quorumMet p = true

theorem quorumMet_iff (hc : Configuration S threshold s) (hpos : threshold ≠ 0) :
    s.quorumMet p = true ↔ threshold.toNat ≤ (s.approvalCount p).toNat := by
  have hlt : (0 : UInt32) < threshold := by
    rw [UInt32.lt_iff_toNat_lt]
    exact Nat.pos_of_ne_zero fun h0 => hpos (UInt32.toNat_inj.mp h0)
  simp [State.quorumMet, hc.threshold_eq, hlt, UInt32.le_iff_toNat_le]

theorem quorumReachable_iff (ht : Tally S log s) (hc : Configuration S threshold s)
    (hS : S.card ≤ 3) (hpos : threshold ≠ 0) (hp : (s.proposedEnvelopes p).isSome = true) :
    QuorumReachable s p ↔ threshold.toNat ≤ S.card := by
  constructor
  · rintro ⟨approvers, hq⟩
    have hv := run_accepts step s (approvers.map fun x => (x, .approveEnvelope p))
    have htv := accepts_tally ht hc hS hv
    have hle := (quorumMet_iff (accepts_configuration hc hv) hpos).mp hq
    rw [htv.counted] at hle
    exact hle.trans (Finset.card_filter_le _ _)
  · intro hle
    refine ⟨S.toList, ?_⟩
    have hall := run_approvals hc hp S.toList fun x hx => Finset.mem_toList.mp hx
    have hv := run_accepts step s (S.toList.map fun x => (x, .approveEnvelope p))
    have htv := accepts_tally ht hc hS hv
    rw [quorumMet_iff (accepts_configuration hc hv) hpos, htv.counted,
      Finset.filter_true_of_mem fun x hx => hall x (Finset.mem_toList.mpr hx)]
    exact hle

/-- What a run in which the quorum was configured comes to. -/
theorem accepts_configured (h : Accepts step .deployed log s) {caller x y z : Address}
    (hconf : (caller, .configureQuorum x y z threshold) ∈ log) :
    threshold ≠ 0 ∧ threshold ≤ 3 ∧ Configuration {x, y, z} threshold s ∧
      Tally {x, y, z} log s := by
  obtain ⟨before, after, rfl⟩ := List.append_of_mem hconf
  obtain ⟨v, w, hv, hstep, hw⟩ := h.split
  cases step_iff_effect.mp hstep with
  | configured fresh positive bounded =>
    obtain rfl := accepts_unconfigured hv fresh
    obtain rfl := hv.eq_start
    have hc := withQuorum_configuration caller x y z threshold
    have ht := accepts_tally (withQuorum_tally caller x y z threshold) hc Finset.card_le_three hw
    exact ⟨positive, bounded, accepts_configuration hc hw, ht⟩

theorem Configuration.setOf_signers (hc : Configuration S threshold s) :
    {x | s.isSigner x = true} = (S : Set Address) := by
  ext x
  exact hc.signers x

end Counting

/-- The stored signer count, the threshold and the approval counters are about distinct signers,
and every proposed envelope can still reach its quorum. -/
structure CountsSigners (log : List (Address × Call)) (s : State) : Prop where
  signers : s.storedSignerCount.toNat = {x | s.isSigner x = true}.ncard
  positive : 1 ≤ s.threshold.toNat
  bounded : s.threshold.toNat ≤ {x | s.isSigner x = true}.ncard
  reachable : ∀ p, (s.proposedEnvelopes p).isSome = true → QuorumReachable s p
  approvals : ∀ p, (s.approvalCount p).toNat = {x | (x, Call.approveEnvelope p) ∈ log}.ncard

private theorem card_triple {a b c : Address} :
    ({a, b, c} : Finset Address).card = 3 ↔ a ≠ b ∧ a ≠ c ∧ b ≠ c := by
  constructor
  · intro h
    refine ⟨?_, ?_, ?_⟩
    · rintro rfl
      have hle := Finset.card_le_two (a := a) (b := c)
      simp only [Finset.mem_insert, true_or, Finset.insert_eq_of_mem] at h
      omega
    · rintro rfl
      have hle := Finset.card_le_two (a := b) (b := a)
      rw [Finset.insert_eq_of_mem (by simp)] at h
      omega
    · rintro rfl
      have hle := Finset.card_le_two (a := a) (b := b)
      rw [Finset.pair_eq_singleton] at h
      omega
  · rintro ⟨hab, hac, hbc⟩
    exact Finset.card_eq_three.mpr ⟨a, b, c, hab, hac, hbc, rfl⟩

/-- Whatever signers were configured, approvals are counted over distinct signers and quorum is
within reach exactly when the threshold is; the rest holds exactly of three distinct signers. -/
theorem quorum_counts_signers (calls : List (Address × Call)) (s : State)
    (log : List (Address × Call)) (hrun : run step .deployed calls = (s, log))
    (caller a b c : Address) (threshold : UInt32)
    (hconf : (caller, .configureQuorum a b c threshold) ∈ log) :
    {x | s.isSigner x = true} = {a, b, c} ∧ s.threshold = threshold ∧ 1 ≤ threshold.toNat ∧
    (∀ p, (s.approvalCount p).toNat = {x | (x, Call.approveEnvelope p) ∈ log}.ncard) ∧
    (∀ p, (s.proposedEnvelopes p).isSome = true →
      (QuorumReachable s p ↔ threshold.toNat ≤ ({a, b, c} : Set Address).ncard)) ∧
    (CountsSigners log s ↔ a ≠ b ∧ a ≠ c ∧ b ≠ c) := by
  have haccepts : Accepts step .deployed log s := by
    simpa [hrun] using run_accepts step .deployed calls
  obtain ⟨positive, bounded, hc, ht⟩ := accepts_configured haccepts hconf
  have hS : ({a, b, c} : Finset Address).card ≤ 3 := Finset.card_le_three
  have hcard : {x | s.isSigner x = true}.ncard = ({a, b, c} : Finset Address).card := by
    rw [hc.setOf_signers, Set.ncard_coe_finset]
  have htriple : ({a, b, c} : Set Address).ncard = ({a, b, c} : Finset Address).card := by
    rw [← Set.ncard_coe_finset]
    simp
  have hpos : 1 ≤ threshold.toNat :=
    Nat.one_le_iff_ne_zero.mpr fun h0 => positive (UInt32.toNat_inj.mp h0)
  have hcounts : ∀ p, (s.approvalCount p).toNat =
      {x | (x, Call.approveEnvelope p) ∈ log}.ncard :=
    fun p => (ht.ncard_eq p).symm
  refine ⟨by simpa using hc.setOf_signers, hc.threshold_eq, hpos, hcounts, ?_, ?_, ?_⟩
  · intro p hp
    rw [htriple]
    exact quorumReachable_iff ht hc hS positive hp
  · intro hclaim
    have hsigners := hclaim.signers
    rw [hc.count, hcard] at hsigners
    exact card_triple.mp hsigners.symm
  · intro hdistinct
    have hthree : ({a, b, c} : Finset Address).card = 3 := card_triple.mpr hdistinct
    have hle : threshold.toNat ≤ 3 := UInt32.le_iff_toNat_le.mp bounded
    refine ⟨?_, ?_, ?_, ?_, hcounts⟩
    · rw [hc.count, hcard, hthree]
      rfl
    · rw [hc.threshold_eq]
      exact hpos
    · rw [hc.threshold_eq, hcard, hthree]
      exact hle
    · intro p hp
      rw [quorumReachable_iff ht hc hS positive hp, hthree]
      exact hle

theorem quorum_counts_signers_sample :
    CountsSigners storedRun.2 storedRun.1 := by
  have h := quorum_counts_signers _ storedRun.1 storedRun.2 (Prod.eta storedRun).symm
    (signer 1) (signer 1) (signer 2) (signer 3) 2 (by decide +kernel)
  exact h.2.2.2.2.2.mpr (by decide +kernel)

/-- One address configured three times, and a threshold of two it can never reach. -/
def repeatedSigner : State × List (Address × Call) :=
  run step .deployed [(signer 1, .configureQuorum (signer 1) (signer 1) (signer 1) 2),
    (signer 1, .proposeEnvelope "DAO-PROP-6CB25C" (filled 9))]

theorem repeatedSigner_unreachable :
    repeatedSigner.1.storedSignerCount = 3 ∧ repeatedSigner.1.threshold = 2 ∧
    {x | repeatedSigner.1.isSigner x = true} = {signer 1} ∧
    (repeatedSigner.1.proposedEnvelopes "DAO-PROP-6CB25C").isSome = true ∧
    ¬ QuorumReachable repeatedSigner.1 "DAO-PROP-6CB25C" ∧
    ¬ CountsSigners repeatedSigner.2 repeatedSigner.1 := by
  have haccepts : Accepts step .deployed repeatedSigner.2 repeatedSigner.1 := run_accepts _ _ _
  have hconf : (signer 1, .configureQuorum (signer 1) (signer 1) (signer 1) 2) ∈
      repeatedSigner.2 := by
    decide +kernel
  obtain ⟨positive, -, hc, ht⟩ := accepts_configured haccepts hconf
  have hproposed : (repeatedSigner.1.proposedEnvelopes "DAO-PROP-6CB25C").isSome = true := by
    decide +kernel
  have hunreachable : ¬ QuorumReachable repeatedSigner.1 "DAO-PROP-6CB25C" := by
    rw [quorumReachable_iff ht hc Finset.card_le_three positive hproposed]
    decide +kernel
  refine ⟨hc.count, hc.threshold_eq, by simpa using hc.setOf_signers, hproposed, hunreachable, ?_⟩
  exact fun hclaim => hunreachable (hclaim.reachable _ hproposed)

end Concordia.Contract.GovernanceReceipt
