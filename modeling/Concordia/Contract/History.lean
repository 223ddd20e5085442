import Concordia.Contract.Effects
import Mathlib.Data.Finset.Card

/-! What the storage says about the accepted calls of a run, and what it says
about itself: the fixed roles, the marks behind each approval count. -/
namespace Concordia.Contract.GovernanceReceiptV3
open Concordia.Lib.Transition

@[simp] theorem set_self {K V : Type} [DecidableEq K] (m : K → Option V) (k : K) (v : V) :
    set m k v k = some v := by
  simp [set]

theorem set_other {K V : Type} [DecidableEq K] {m : K → Option V} {k l : K} {v : V} (h : l ≠ k) :
    set m k v l = m l := by
  simp [set, h]

theorem set_apply {K V : Type} [DecidableEq K] (m : K → Option V) (k l : K) (v : V) :
    set m k v l = if l = k then some v else m l := by
  simp [set, Function.update_apply]

/-- What `init` writes and no other entry point touches. -/
structure Roles where
  proposer : Bytes32
  finalizer : Bytes32
  signerA : Bytes32
  signerB : Bytes32
  signerC : Bytes32
  threshold : UInt8
  marked : Bytes32 → Option Bool
  deploymentDomain : Bytes32
  casperChainName : String

namespace State

def roles (s : State) : Roles where
  proposer := s.proposer
  finalizer := s.finalizer
  signerA := s.signerA
  signerB := s.signerB
  signerC := s.signerC
  threshold := s.threshold
  marked := s.signers
  deploymentDomain := s.deploymentDomain
  casperChainName := s.casperChainName

end State

namespace Roles

def signerSet (r : Roles) : Finset Bytes32 := {r.signerA, r.signerB, r.signerC}

theorem card_signerSet_le (r : Roles) : r.signerSet.card ≤ 3 := Finset.card_le_three

/-- The constructor's checks: three signers apart, marked as such, two or three of them needed. -/
structure Sound (r : Roles) : Prop where
  marked_iff : ∀ x, (r.marked x).getD false = true ↔ x ∈ r.signerSet
  distinct : r.signerSet.card = 3
  apart : r.proposer ≠ r.finalizer ∧ r.proposer ∉ r.signerSet ∧ r.finalizer ∉ r.signerSet
  threshold : r.threshold.toNat = 2 ∨ r.threshold.toNat = 3

end Roles

section Runs
variable {blake2b256 : List UInt8 → Bytes32} {s s₀ t : State} {a : Address × Call}
  {log : List (Address × Call)}

/-- An installed contract: sound roles, and nothing proposed yet. -/
structure Installed (s : State) : Prop where
  sound : s.roles.Sound
  proposed : ∀ p, s.proposedEnvelopes p = none
  counts : ∀ p, s.approvalCounts p = none
  approvals : ∀ k, s.approvals k = none
  finalized : ∀ p, s.finalizedProposals p = none
  envelopes : ∀ p, s.finalizedEnvelopes p = none
  authorized : ∀ i, s.authorizedActions i = none
  events : ∀ e ∈ s.events, ∀ p h i f n v k, e ≠ .envelopeFinalized p h i f n v k

theorem init_installed {caller : Address} {args : InitArgs}
    (h : init blake2b256 caller args = .ok s) : Installed s := by
  simp only [init, callerAccount_bind_ok, require_bind_ok, not_or, not_exists, not_and] at h
  simp only [except_bind_ok, orRevert_ok, pure, Except.pure, Except.ok.injEq] at h
  obtain ⟨owner, rfl, -, ⟨hpf, hrole⟩, ⟨hab, hac, hbc⟩, hth, domain, -, rfl⟩ := h
  simp only [List.mem_cons, List.not_mem_nil, or_false, forall_eq_or_imp, forall_eq] at hrole
  obtain ⟨⟨hap, haf⟩, ⟨hbp, hbf⟩, hcp, hcf⟩ := hrole
  refine ⟨⟨?_, ?_, ?_, ?_⟩, ?_, ?_, ?_, ?_, ?_, ?_, ?_⟩
  · intro x
    simp only [State.roles, set_apply, State.empty, Roles.signerSet, State.signerA, State.signerB,
      State.signerC, Option.getD_some, Finset.mem_insert, Finset.mem_singleton]
    split_ifs <;> simp_all
  · exact Finset.card_eq_three.mpr ⟨_, _, _, hab, hac, hbc, rfl⟩
  · simp only [State.roles, Roles.signerSet, State.proposer, State.finalizer, State.signerA,
      State.signerB, State.signerC, Option.getD_some, Finset.mem_insert, Finset.mem_singleton,
      not_or]
    exact ⟨hpf, ⟨Ne.symm hap, Ne.symm hbp, Ne.symm hcp⟩, Ne.symm haf, Ne.symm hbf, Ne.symm hcf⟩
  · rcases hth with h | h <;> simp [State.roles, State.threshold, h]
  all_goals simp [State.empty]

/-- The roles the constructor was given. -/
theorem init_roles {caller : Address} {args : InitArgs}
    (h : init blake2b256 caller args = .ok s) :
    s.proposer = args.proposer ∧ s.finalizer = args.finalizer ∧ s.threshold = args.threshold ∧
      s.roles.signerSet = {args.signerA, args.signerB, args.signerC} := by
  simp only [init, callerAccount_bind_ok, require_bind_ok] at h
  simp only [except_bind_ok, orRevert_ok, pure, Except.pure, Except.ok.injEq] at h
  obtain ⟨owner, rfl, -, -, -, -, domain, -, rfl⟩ := h
  exact ⟨rfl, rfl, rfl, rfl⟩

/-- No call touches the roles. -/
theorem Effect.roles_eq (h : Effect blake2b256 s a t) : t.roles = s.roles := by
  cases h <;> rfl

theorem accepts_roles_eq (h : Accepts (step blake2b256) s₀ log s) : s.roles = s₀.roles := by
  refine h.invariant (P := fun v => v.roles = s₀.roles) rfl ?_
  intro v b w hv hstep
  exact (step_effect hstep).roles_eq.trans hv

/-- The arguments of the accepted finalizations, in order. -/
def finalizations (log : List (Address × Call)) : List HeaderArgs :=
  log.filterMap (·.2.finalization)

/-- The contract has announced the finalization of `p` with action `i`. -/
def State.AuthorizedFor (s : State) (p : String) (i : Bytes32) : Prop :=
  ∃ h f n v k, .envelopeFinalized p h i f n v k ∈ s.events

/-- What the storage holds, told by the accepted calls alone. -/
structure Recorded (log : List (Address × Call)) (s : State) : Prop where
  proposed : ∀ p h, s.proposedEnvelopes p = some h ↔
    (.account s.proposer, .proposeEnvelope p h) ∈ log
  approved : ∀ p h x, (s.approvals (p, h, x)).getD false = true ↔
    (.account x, .approveEnvelope p h) ∈ log
  finalized : ∀ p, s.finalized p = true ↔ ∃ args ∈ finalizations log, args.proposalId = p
  authorized : ∀ i, s.actionAuthorized i = true ↔ ∃ args ∈ finalizations log, args.actionId = i
  announced : ∀ p i, s.AuthorizedFor p i ↔
    ∃ args ∈ finalizations log, args.proposalId = p ∧ args.actionId = i

theorem Installed.recorded (h : Installed s) : Recorded [] s := by
  refine ⟨?_, ?_, ?_, ?_, ?_⟩
  · simp [h.proposed]
  · simp [h.approvals]
  · simp [State.finalized, h.finalized, finalizations]
  · simp [State.actionAuthorized, h.authorized, finalizations]
  · intro p i
    refine ⟨?_, by simp [finalizations]⟩
    rintro ⟨e, f, n, v, k, hm⟩
    exact absurd rfl (h.events _ hm p e i f n v k)

private theorem Recorded.proposal (hr : Recorded log s) {p : String} {h : Bytes32}
    (fresh : s.proposedEnvelopes p = none) :
    Recorded (log ++ [(.account s.proposer, .proposeEnvelope p h)]) (s.withProposal p h) := by
  refine ⟨?_, ?_, ?_, ?_, ?_⟩
  · intro q g
    have hq : (.account s.proposer, .proposeEnvelope p g) ∉ log := by
      intro hm
      simpa [fresh] using (hr.proposed p g).mpr hm
    by_cases hqp : q = p
    · subst hqp
      simpa [State.withProposal, State.proposer, hq, eq_comm (a := h)] using
        fun hm => absurd hm hq
    · simpa [State.withProposal, State.proposer, set_apply, hqp] using hr.proposed q g
  · simpa [State.withProposal] using hr.approved
  · simpa [State.withProposal, State.finalized, finalizations, Call.finalization] using hr.finalized
  · simpa [State.withProposal, State.actionAuthorized, finalizations, Call.finalization]
      using hr.authorized
  · simpa [State.withProposal, State.AuthorizedFor, finalizations, Call.finalization]
      using hr.announced

private theorem Recorded.approval (hr : Recorded log s) {p : String} {h x : Bytes32} :
    Recorded (log ++ [(.account x, .approveEnvelope p h)]) (s.withApproval p h x) := by
  refine ⟨?_, ?_, ?_, ?_, ?_⟩
  · simpa [State.withApproval, State.proposer] using hr.proposed
  · intro q g y
    by_cases hk : (q, g, y) = (p, h, x)
    · simp_all [State.withApproval]
    · have hne : ¬(y = x ∧ q = p ∧ g = h) := by
        rintro ⟨rfl, rfl, rfl⟩
        exact hk rfl
      simpa [State.withApproval, set_other hk, hne] using hr.approved q g y
  · simpa [State.withApproval, State.finalized, finalizations, Call.finalization] using hr.finalized
  · simpa [State.withApproval, State.actionAuthorized, finalizations, Call.finalization]
      using hr.authorized
  · simpa [State.withApproval, State.AuthorizedFor, finalizations, Call.finalization]
      using hr.announced

private theorem Recorded.finalization (hr : Recorded log s) {call : Call} {args : HeaderArgs}
    {h x : Bytes32} (header : call.finalization = some args) :
    Recorded (log ++ [(.account x, call)]) (s.withFinalization args h) := by
  have hlog : finalizations (log ++ [(.account x, call)]) = finalizations log ++ [args] := by
    simp [finalizations, header]
  refine ⟨?_, ?_, ?_, ?_, ?_⟩
  · intro q g
    have hne : call ≠ .proposeEnvelope q g := by
      rintro rfl
      cases header
    simpa [State.withFinalization, State.proposer, hne.symm] using hr.proposed q g
  · intro q g y
    have hne : call ≠ .approveEnvelope q g := by
      rintro rfl
      cases header
    simpa [State.withFinalization, hne.symm] using hr.approved q g y
  · intro q
    simp only [hlog, List.mem_append, List.mem_singleton, or_and_right, exists_or,
      exists_eq_left, ← hr.finalized]
    by_cases hq : q = args.proposalId
    · simp [State.withFinalization, State.finalized, hq]
    · simp [State.withFinalization, State.finalized, set_other hq, Ne.symm hq]
  · intro i
    simp only [hlog, List.mem_append, List.mem_singleton, or_and_right, exists_or,
      exists_eq_left, ← hr.authorized]
    by_cases hi : i = args.actionId
    · simp [State.withFinalization, State.actionAuthorized, hi]
    · simp [State.withFinalization, State.actionAuthorized, set_other hi, Ne.symm hi]
  · intro q i
    simp only [hlog, List.mem_append, List.mem_singleton, or_and_right, exists_or,
      exists_eq_left, ← hr.announced]
    simp only [State.AuthorizedFor, State.withFinalization, List.mem_append, List.mem_singleton,
      Event.envelopeFinalized.injEq, exists_or]
    refine or_congr Iff.rfl ?_
    constructor
    · rintro ⟨-, -, -, -, -, rfl, -, rfl, -⟩
      exact ⟨rfl, rfl⟩
    · rintro ⟨rfl, rfl⟩
      exact ⟨_, _, _, _, _, rfl, rfl, rfl, rfl, rfl, rfl, rfl⟩

theorem Recorded.step (hr : Recorded log s) (he : Effect blake2b256 s a t) :
    Recorded (log ++ [a]) t := by
  cases he with
  | proposed _ fresh => exact hr.proposal fresh
  | approved => exact hr.approval
  | finalized header => exact hr.finalization header

theorem accepts_recorded (hs : Installed s₀) (h : Accepts (step blake2b256) s₀ log s) :
    Recorded log s :=
  h.history (P := Recorded) hs.recorded fun _ _ _ _ hr hstep => hr.step (step_effect hstep)

end Runs
end Concordia.Contract.GovernanceReceiptV3
