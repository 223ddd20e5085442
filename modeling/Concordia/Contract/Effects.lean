import Concordia.Contract.GovernanceReceiptV3
import Concordia.Contract.Injectivity
import Concordia.Lib.Transition

/-! What an accepted call can do, said once: its guards and its exact writes.
Every invariant of the contract is read off these three cases. -/
namespace Concordia.Contract.GovernanceReceiptV3
open Concordia.Lib.Transition

section Reverts
variable {V W : Type} {e : Error} {w : W}

@[simp] theorem require_bind_ok {c : Prop} [Decidable c] {f : Unit → Except Error W} :
    (require c e >>= f) = .ok w ↔ c ∧ f () = .ok w := by
  unfold require
  split <;> simp_all [bind, Except.bind]

@[simp] theorem require_ok {c : Prop} [Decidable c] : require c e = .ok () ↔ c := by
  unfold require
  split <;> simp_all

@[simp] theorem callerAccount_bind_ok {caller : Address} {f : Bytes32 → Except Error W} :
    (callerAccountOrRevert caller e >>= f) = .ok w ↔ ∃ x, caller = .account x ∧ f x = .ok w := by
  cases caller <;> simp [callerAccountOrRevert, Address.asAccountHash, bind, Except.bind]

@[simp] theorem unwrapOrRevert_bind_ok {o : Option V} {f : V → Except Error W} :
    (unwrapOrRevert o e >>= f) = .ok w ↔ ∃ v, o = some v ∧ f v = .ok w := by
  cases o <;> simp [unwrapOrRevert, bind, Except.bind]

@[simp] theorem orRevert_ok {result : Except ValidationError V} {v : V} :
    orRevert result = .ok v ↔ result = .ok v := by
  cases result <;> simp [orRevert, Except.mapError]

end Reverts

/-- The arguments of a finalization; `none` for the other entry points. -/
def Call.finalization : Call → Option HeaderArgs
  | .finalizeNativeTransfer args _ => some args
  | .finalizeOfficialX402 args _ => some args
  | _ => none

section Effects
variable (blake2b256 : List UInt8 → Bytes32)

/-- The envelope hash a finalize call recomputes, once it matches the committed one. -/
def checkFinalize (s : State) : Call → Except Error Bytes32
  | .finalizeNativeTransfer args body => checkNativeTransfer blake2b256 s args body
  | .finalizeOfficialX402 args body => checkOfficialX402 blake2b256 s args body
  | _ => .error .invalidActionField

/-- The checks a finalize call makes after its hash has matched. -/
def checkSemantics (s : State) : Call → Except Error Unit
  | .finalizeNativeTransfer args body => do
    orRevert (commonHeader s args).validateSemantics
    orRevert (body.validateSemantics args.approvedAllocationBps)
  | .finalizeOfficialX402 args body => do
    orRevert (commonHeader s args).validateSemantics
    orRevert body.validateSemantics
  | _ => .ok ()

namespace State

def withProposal (s : State) (p : String) (h : Bytes32) : State :=
  { s with
    proposedEnvelopes := set s.proposedEnvelopes p h
    approvalCounts := set s.approvalCounts p 0
    events := s.events ++ [.envelopeProposed p h s.proposer] }

def withApproval (s : State) (p : String) (h x : Bytes32) : State :=
  { s with
    approvals := set s.approvals (p, h, x) true
    approvalCounts := set s.approvalCounts p (s.approvalCount p + 1)
    events := s.events ++ [.envelopeApproved p h x (s.approvalCount p + 1)] }

def withFinalization (s : State) (args : HeaderArgs) (h : Bytes32) : State :=
  { s with
    finalizedProposals := set s.finalizedProposals args.proposalId true
    finalizedEnvelopes := set s.finalizedEnvelopes args.proposalId h
    authorizedActions := set s.authorizedActions args.actionId true
    events := s.events ++ [.envelopeFinalized args.proposalId h args.actionId s.finalizer
      (s.approvalCount args.proposalId) Contract.schemaVersion args.actionKind] }

end State

/-- Accepted calls: who made them, what they were checked for, what they wrote. -/
inductive Effect (s : State) : Address × Call → State → Prop
  | proposed {p : String} {h : Bytes32} (valid : validProposalId p = true)
      (fresh : s.proposedEnvelopes p = none) :
      Effect s (.account s.proposer, .proposeEnvelope p h) (s.withProposal p h)
  | approved {p : String} {h x : Bytes32} (signer : (s.signers x).getD false = true)
      (valid : validProposalId p = true) (committed : s.proposedEnvelopes p = some h)
      (open_ : s.finalized p = false) (fresh : (s.approvals (p, h, x)).getD false = false) :
      Effect s (.account x, .approveEnvelope p h) (s.withApproval p h x)
  | finalized {call : Call} {args : HeaderArgs} {h : Bytes32}
      (header : call.finalization = some args) (valid : validProposalId args.proposalId = true)
      (committed : s.proposedEnvelopes args.proposalId = some h)
      (open_ : s.finalized args.proposalId = false) (quorum : s.quorumMet args.proposalId = true)
      (matching : checkFinalize blake2b256 s call = .ok h)
      (semantics : checkSemantics s call = .ok ())
      (fresh : s.actionAuthorized args.actionId = false) :
      Effect s (.account s.finalizer, call) (s.withFinalization args h)

variable {blake2b256} {s t : State} {caller : Address}

theorem proposeEnvelope_ok {p : String} {h : Bytes32} :
    proposeEnvelope s caller p h = .ok t ↔
      caller = .account s.proposer ∧ validProposalId p = true ∧ s.proposedEnvelopes p = none ∧
        t = s.withProposal p h := by
  simp only [proposeEnvelope, callerAccount_bind_ok, require_bind_ok, pure, Except.pure,
    Except.ok.injEq]
  constructor
  · rintro ⟨x, rfl, rfl, hv, hf, rfl⟩
    exact ⟨rfl, hv, hf, rfl⟩
  · rintro ⟨rfl, hv, hf, rfl⟩
    exact ⟨_, rfl, rfl, hv, hf, rfl⟩

theorem approveEnvelope_ok {p : String} {h : Bytes32} :
    approveEnvelope s caller p h = .ok t ↔
      ∃ x, caller = .account x ∧ (s.signers x).getD false = true ∧ validProposalId p = true ∧
        s.proposedEnvelopes p = some h ∧ s.finalized p = false ∧
        (s.approvals (p, h, x)).getD false = false ∧ t = s.withApproval p h x := by
  simp only [approveEnvelope, callerAccount_bind_ok, require_bind_ok, unwrapOrRevert_bind_ok, pure,
    Except.pure, Except.ok.injEq, Bool.not_eq_true]
  constructor
  · rintro ⟨x, rfl, hs, hv, c, hc, ho, rfl, hf, rfl⟩
    exact ⟨x, rfl, hs, hv, hc, ho, hf, rfl⟩
  · rintro ⟨x, rfl, hs, hv, hc, ho, hf, rfl⟩
    exact ⟨x, rfl, hs, hv, h, hc, ho, rfl, hf, rfl⟩

theorem requireFinalizationPreconditions_ok {p : String} :
    requireFinalizationPreconditions s caller p = .ok () ↔
      caller = .account s.finalizer ∧ validProposalId p = true ∧
        (s.proposedEnvelopes p).isSome = true ∧ s.finalized p = false ∧ s.quorumMet p = true := by
  simp only [requireFinalizationPreconditions, callerAccount_bind_ok, require_bind_ok, require_ok,
    Bool.not_eq_true]
  constructor
  · rintro ⟨x, rfl, rfl, rest⟩
    exact ⟨rfl, rest⟩
  · rintro ⟨rfl, rest⟩
    exact ⟨_, rfl, rfl, rest⟩

theorem requireCommittedHash_ok {p : String} {h : Bytes32} :
    requireCommittedHash s p h = .ok () ↔ s.proposedEnvelopes p = some h := by
  simp only [requireCommittedHash, unwrapOrRevert_bind_ok, require_ok]
  constructor
  · rintro ⟨c, hc, rfl⟩
    exact hc
  · exact fun hc => ⟨h, hc, rfl⟩

theorem finishFinalization_ok {args : HeaderArgs} {h : Bytes32} :
    (Prod.fst <$> finishFinalization s args.proposalId h args.actionId args.actionKind) = .ok t ↔
      s.actionAuthorized args.actionId = false ∧ t = s.withFinalization args h := by
  cases ha : s.actionAuthorized args.actionId with
  | true => simp [finishFinalization, require, ha, Functor.map, Except.map, bind, Except.bind]
  | false =>
    simp [finishFinalization, require, ha, Functor.map, Except.map, bind, Except.bind, pure,
      Except.pure, State.withFinalization, eq_comm]

private theorem fst_bind_ok {V W : Type} {x : Except Error V} {f : V → Except Error (State × W)} :
    (Prod.fst <$> (x >>= f)) = .ok t ↔ ∃ v, x = .ok v ∧ (Prod.fst <$> f v) = .ok t := by
  cases x <;> simp [Functor.map, Except.map, bind, Except.bind]

theorem checkFinalize_committed {call : Call} {args : HeaderArgs} {h : Bytes32}
    (header : call.finalization = some args) (hc : checkFinalize blake2b256 s call = .ok h) :
    s.proposedEnvelopes args.proposalId = some h := by
  cases call with
  | proposeEnvelope => cases header
  | approveEnvelope => cases header
  | finalizeNativeTransfer a body =>
    cases header
    simp only [checkFinalize, checkNativeTransfer, except_bind_ok, pure, Except.pure,
      Except.ok.injEq] at hc
    obtain ⟨_, -, _, hm, rfl⟩ := hc
    exact requireCommittedHash_ok.mp hm
  | finalizeOfficialX402 a body =>
    cases header
    simp only [checkFinalize, checkOfficialX402, except_bind_ok, pure, Except.pure,
      Except.ok.injEq] at hc
    obtain ⟨_, -, _, hm, rfl⟩ := hc
    exact requireCommittedHash_ok.mp hm

/-- The two finalize entry points run the same guards around their own checks. -/
theorem finalize_ok {call : Call} {args : HeaderArgs} (header : call.finalization = some args) :
    execute blake2b256 s caller call = .ok t ↔
      ∃ h, requireFinalizationPreconditions s caller args.proposalId = .ok () ∧
        checkFinalize blake2b256 s call = .ok h ∧ checkSemantics s call = .ok () ∧
        s.actionAuthorized args.actionId = false ∧ t = s.withFinalization args h := by
  cases call with
  | proposeEnvelope => cases header
  | approveEnvelope => cases header
  | finalizeNativeTransfer a body =>
    cases header
    simp only [execute, finalizeNativeTransfer, checkFinalize, checkSemantics, fst_bind_ok,
      except_bind_ok, finishFinalization_ok]
    constructor
    · rintro ⟨⟨⟩, hp, h, hm, ⟨⟩, hs, ⟨⟩, hb, rest⟩
      exact ⟨h, hp, hm, ⟨(), hs, hb⟩, rest⟩
    · rintro ⟨h, hp, hm, ⟨⟨⟩, hs, hb⟩, rest⟩
      exact ⟨(), hp, h, hm, (), hs, (), hb, rest⟩
  | finalizeOfficialX402 a body =>
    cases header
    simp only [execute, finalizeOfficialX402, checkFinalize, checkSemantics, fst_bind_ok,
      except_bind_ok, finishFinalization_ok]
    constructor
    · rintro ⟨⟨⟩, hp, h, hm, ⟨⟩, hs, ⟨⟩, hb, rest⟩
      exact ⟨h, hp, hm, ⟨(), hs, hb⟩, rest⟩
    · rintro ⟨h, hp, hm, ⟨⟨⟩, hs, hb⟩, rest⟩
      exact ⟨(), hp, h, hm, (), hs, (), hb, rest⟩

private theorem step_some {action : Address × Call} :
    step blake2b256 s action = some t ↔ execute blake2b256 s action.1 action.2 = .ok t := by
  unfold step
  cases execute blake2b256 s action.1 action.2 <;> simp [Except.toOption]

private theorem finalize_effect {call : Call} {args : HeaderArgs}
    (header : call.finalization = some args) (h : execute blake2b256 s caller call = .ok t) :
    Effect blake2b256 s (caller, call) t := by
  obtain ⟨e, hp, hm, hs, ha, rfl⟩ := (finalize_ok header).mp h
  obtain ⟨rfl, hv, -, ho, hq⟩ := requireFinalizationPreconditions_ok.mp hp
  exact .finalized header hv (checkFinalize_committed header hm) ho hq hm hs ha

theorem step_effect {action : Address × Call} (h : step blake2b256 s action = some t) :
    Effect blake2b256 s action t := by
  obtain ⟨caller, call⟩ := action
  have h := step_some.mp h
  cases hc : call with
  | proposeEnvelope p e =>
    subst hc
    obtain ⟨rfl, hv, hf, rfl⟩ := proposeEnvelope_ok.mp h
    exact .proposed hv hf
  | approveEnvelope p e =>
    subst hc
    obtain ⟨x, rfl, hs, hv, hc, ho, hf, rfl⟩ := approveEnvelope_ok.mp h
    exact .approved hs hv hc ho hf
  | finalizeNativeTransfer args body => exact hc ▸ finalize_effect (by rw [hc]; rfl) h
  | finalizeOfficialX402 args body => exact hc ▸ finalize_effect (by rw [hc]; rfl) h

/-- The cases are exact: each of them is accepted. -/
theorem Effect.step {action : Address × Call} (h : Effect blake2b256 s action t) :
    step blake2b256 s action = some t := by
  rw [step_some]
  cases h with
  | proposed hv hf => exact proposeEnvelope_ok.mpr ⟨rfl, hv, hf, rfl⟩
  | approved hs hv hc ho hf => exact approveEnvelope_ok.mpr ⟨_, rfl, hs, hv, hc, ho, hf, rfl⟩
  | finalized header hv hc ho hq hm hs ha =>
    have hp := requireFinalizationPreconditions_ok.mpr ⟨rfl, hv, by simp [hc], ho, hq⟩
    exact (finalize_ok header).mpr ⟨_, hp, hm, hs, ha, rfl⟩

end Effects
end Concordia.Contract.GovernanceReceiptV3
