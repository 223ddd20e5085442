import Concordia.Contract.Binding

/-! An approved action cannot be griefed: once the exact finalize call of a proposal would
succeed, no other call takes that away, and no other finalize call for the proposal passes. -/
namespace Concordia.Contract.GovernanceReceiptV3
open Concordia.Lib.Transition

/-- Everything a finalize call is checked for, its caller apart. -/
structure Ready (blake2b256 : List UInt8 → Bytes32) (s : State) (call : Call) (args : HeaderArgs)
    (h : Bytes32) : Prop where
  header : call.finalization = some args
  valid : validProposalId args.proposalId = true
  committed : s.proposedEnvelopes args.proposalId = some h
  open_ : s.finalized args.proposalId = false
  quorum : s.quorumMet args.proposalId = true
  matching : checkFinalize blake2b256 s call = .ok h
  semantics : checkSemantics s call = .ok ()
  fresh : s.actionAuthorized args.actionId = false

section Stability
variable {blake2b256 : List UInt8 → Bytes32} {s s₀ t : State} {b : Address × Call}
  {log later : List (Address × Call)} {caller : Address} {call : Call} {args : HeaderArgs}
  {h : Bytes32} {p : String}

theorem Ready.step (hr : Ready blake2b256 s call args h) :
    step blake2b256 s (.account s.finalizer, call) = some (s.withFinalization args h) :=
  (Effect.finalized hr.header hr.valid hr.committed hr.open_ hr.quorum hr.matching hr.semantics
    hr.fresh).step

/-- A finalize call that would succeed is ready, and the finalizer's. -/
theorem step_ready (header : call.finalization = some args)
    (hok : (GovernanceReceiptV3.step blake2b256 s (caller, call)).isSome) :
    caller = .account s.finalizer ∧ ∃ h, Ready blake2b256 s call args h := by
  obtain ⟨t, ht⟩ := Option.isSome_iff_exists.mp hok
  cases step_effect ht with
  | proposed => cases header
  | approved => cases header
  | @finalized _ args' h header' valid committed open_ quorum matching semantics fresh =>
    obtain rfl : args' = args := Option.some.inj (header'.symm.trans header)
    exact ⟨rfl, h, header, valid, committed, open_, quorum, matching, semantics, fresh⟩

private theorem commonHeader_congr (hroles : t.roles = s.roles) (args : HeaderArgs) :
    commonHeader t args = commonHeader s args := by
  have hdomain : t.deploymentDomain = s.deploymentDomain := congrArg Roles.deploymentDomain hroles
  have hchain : t.casperChainName = s.casperChainName := congrArg Roles.casperChainName hroles
  simp only [commonHeader, hdomain, hchain]

/-- The checks of a finalize call read the roles and the committed hash, nothing else. -/
theorem checkFinalize_congr (hroles : t.roles = s.roles) (header : call.finalization = some args)
    (hc : t.proposedEnvelopes args.proposalId = s.proposedEnvelopes args.proposalId) :
    checkFinalize blake2b256 t call = checkFinalize blake2b256 s call := by
  cases call with
  | proposeEnvelope => cases header
  | approveEnvelope => cases header
  | finalizeNativeTransfer a body =>
    cases header
    simp only [checkFinalize, checkNativeTransfer, commonHeader_congr hroles, requireCommittedHash,
      hc]
  | finalizeOfficialX402 a body =>
    cases header
    simp only [checkFinalize, checkOfficialX402, commonHeader_congr hroles, requireCommittedHash,
      hc]

theorem checkSemantics_congr (hroles : t.roles = s.roles) :
    checkSemantics t call = checkSemantics s call := by
  cases call <;> simp only [checkSemantics, commonHeader_congr hroles]

/-- Late approvals cannot wrap the counter around: there are three signers at most. -/
theorem quorumMet_approval (ht : Tally s) {q : String} {g x : Bytes32}
    (hq : s.quorumMet p = true) : (s.withApproval q g x).quorumMet p = true := by
  simp only [State.quorumMet, Bool.and_eq_true, decide_eq_true_eq] at hq ⊢
  refine ⟨hq.1, ?_⟩
  by_cases hp : p = q
  · subst hp
    have hcount := ht.count_le p
    have hgrow : ((s.withApproval p g x).approvalCount p).toNat = (s.approvalCount p).toNat + 1 := by
      simp only [State.approvalCount, State.withApproval, set_self, Option.getD_some]
      rw [UInt8.toNat_add]
      change ((s.approvalCount p).toNat + 1) % 256 = (s.approvalCount p).toNat + 1
      omega
    have hle := UInt8.le_iff_toNat_le.mp hq.2
    refine UInt8.le_iff_toNat_le.mpr ?_
    rw [hgrow]
    exact Nat.le_succ_of_le hle
  · have hsame : (s.withApproval q g x).approvalCount p = s.approvalCount p := by
      simp [State.approvalCount, State.withApproval, set_other hp]
    rw [hsame]
    exact hq.2

theorem quorumMet_proposal {q : String} {g : Bytes32} (fresh : s.proposedEnvelopes q = none)
    (hq : s.quorumMet p = true) : (s.withProposal q g).quorumMet p = true := by
  simp only [State.quorumMet, Bool.and_eq_true, decide_eq_true_eq] at hq ⊢
  have hp : p ≠ q := by
    rintro rfl
    simp [fresh] at hq
  have hcount : (s.withProposal q g).approvalCount p = s.approvalCount p := by
    simp [State.approvalCount, State.withProposal, set_other hp]
  rw [hcount]
  refine ⟨?_, hq.2⟩
  simpa [State.withProposal, set_other hp] using hq.1

/-- `b` neither finalizes the proposal of `args` nor authorizes its action. -/
def Apart (args : HeaderArgs) (b : Address × Call) : Prop :=
  ∀ other, b.2.finalization = some other →
    other.proposalId ≠ args.proposalId ∧ other.actionId ≠ args.actionId

/-- One interfering call: whatever it was, the exact call is still ready. -/
theorem Ready.keep (hr : Ready blake2b256 s call args h) (ht : Tally s)
    (he : Effect blake2b256 s b t) (hb : Apart args b) : Ready blake2b256 t call args h := by
  have hroles := he.roles_eq
  have hcommit : t.proposedEnvelopes args.proposalId = some h :=
    accepts_committed hr.committed (Accepts.start.accept he.step)
  have hmatch : checkFinalize blake2b256 t call = .ok h :=
    (checkFinalize_congr hroles hr.header (hcommit.trans hr.committed.symm)).trans hr.matching
  have hsem : checkSemantics t call = .ok () := (checkSemantics_congr hroles).trans hr.semantics
  cases he with
  | proposed _ fresh =>
    exact ⟨hr.header, hr.valid, hcommit, hr.open_, quorumMet_proposal fresh hr.quorum, hmatch,
      hsem, hr.fresh⟩
  | approved =>
    exact ⟨hr.header, hr.valid, hcommit, hr.open_, quorumMet_approval ht hr.quorum, hmatch, hsem,
      hr.fresh⟩
  | @finalized _ other _ header =>
    obtain ⟨hp, hi⟩ := hb other header
    refine ⟨hr.header, hr.valid, hcommit, ?_, hr.quorum, hmatch, hsem, ?_⟩
    · simpa [State.finalized, State.withFinalization, set_other hp.symm] using hr.open_
    · simpa [State.actionAuthorized, State.withFinalization, set_other hi.symm] using hr.fresh

theorem accepts_ready (hs : Installed s₀)
    (hrun : Accepts (GovernanceReceiptV3.step blake2b256) s₀ log s)
    (hr : Ready blake2b256 s call args h)
    (hlater : Accepts (GovernanceReceiptV3.step blake2b256) s later t)
    (hapart : ∀ b ∈ later, Apart args b) : Ready blake2b256 t call args h := by
  induction hlater with
  | start => exact hr
  | @accept later v w b hv hstep ih =>
    have hready := ih fun x hx => hapart x (List.mem_append_left _ hx)
    exact hready.keep (accepts_tally hs (hrun.trans hv)) (step_effect hstep)
      (hapart b (List.mem_append_right _ (List.mem_singleton_self b)))

/-- A finalize call that passes carries the arguments the committed hash was made of. -/
theorem Ready.unique (hr : Ready blake2b256 s call args h)
    (hlater : Accepts (GovernanceReceiptV3.step blake2b256) s later t) {who : Address}
    {other : Call} {args' : HeaderArgs} (header : other.finalization = some args')
    (hp : args'.proposalId = args.proposalId)
    (hinj : ∀ x y, envelopePreimage s call = .ok x → envelopePreimage s other = .ok y →
      Set.InjOn blake2b256 {x, y})
    (hok : (GovernanceReceiptV3.step blake2b256 t (who, other)).isSome) : other = call := by
  obtain ⟨-, g, hready⟩ := step_ready header hok
  obtain ⟨hkind, x, hx, hxh⟩ := checkFinalize_preimage hr.matching
  obtain ⟨hkind', y, hy, hyg⟩ := checkFinalize_preimage hready.matching
  rw [envelopePreimage_congr (accepts_roles_eq hlater)] at hy
  have hsame : g = h := by
    have hcommit := accepts_committed hr.committed hlater
    rw [← hp, hready.committed] at hcommit
    exact Option.some.inj hcommit
  obtain rfl : y = x :=
    hinj x y hx hy (by simp) (by simp) (hyg.trans (hsame.trans hxh.symm))
  exact envelopePreimage_inj hy hx hkind' hkind

end Stability

/-- From any reachable state in which the exact finalize call of an approved proposal would
succeed: calls that neither finalize the proposal nor authorize the action leave it so, and
after whatever calls every other finalize call for the proposal is refused. -/
theorem approved_action_stable (blake2b256 : List UInt8 → Bytes32) (installer : Address)
    (initArgs : InitArgs) (s₀ : State) (hinit : init blake2b256 installer initArgs = .ok s₀)
    (calls : List (Address × Call)) (s : State) (log : List (Address × Call))
    (hrun : run (step blake2b256) s₀ calls = (s, log)) (caller : Address) (call : Call)
    (args : HeaderArgs) (header : call.finalization = some args)
    (hok : (step blake2b256 s (caller, call)).isSome) :
    ∃ h, s.proposedEnvelopes args.proposalId = some h ∧ ∀ later,
      ((∀ other ∈ finalizations (run (step blake2b256) s later).2,
          other.proposalId ≠ args.proposalId ∧ other.actionId ≠ args.actionId) →
        step blake2b256 (run (step blake2b256) s later).1 (caller, call) =
          some ((run (step blake2b256) s later).1.withFinalization args h)) ∧
      ∀ who other args', other.finalization = some args' →
        args'.proposalId = args.proposalId → other ≠ call →
        (∀ x y, envelopePreimage s call = .ok x → envelopePreimage s other = .ok y →
          Set.InjOn blake2b256 {x, y}) →
        (∃ error, execute blake2b256 (run (step blake2b256) s later).1 who other = .error error) ∧
        attempt (step blake2b256) (run (step blake2b256) s later) (who, other) =
          run (step blake2b256) s later := by
  have hs := init_installed hinit
  have h₀ : Accepts (step blake2b256) s₀ log s := by
    simpa [hrun] using run_accepts (step blake2b256) s₀ calls
  obtain ⟨rfl, h, hr⟩ := step_ready header hok
  refine ⟨h, hr.committed, fun later => ⟨fun hapart => ?_, ?_⟩⟩
  · have hlater := run_accepts (step blake2b256) s later
    have hready := accepts_ready hs h₀ hr hlater ?_
    · have hfinalizer : (run (step blake2b256) s later).1.finalizer = s.finalizer :=
        congrArg Roles.finalizer (accepts_roles_eq hlater)
      rw [← hfinalizer]
      exact hready.step
    · intro b hb other hother
      exact hapart other (List.mem_filterMap.mpr ⟨b, hb, hother⟩)
  · intro who other args' header' hp hne hinj
    have hnone : step blake2b256 (run (step blake2b256) s later).1 (who, other) = none := by
      refine Option.not_isSome_iff_eq_none.mp fun hsome => hne ?_
      exact hr.unique (run_accepts (step blake2b256) s later) header' hp hinj hsome
    refine ⟨?_, by simp [attempt, hnone]⟩
    cases hx : execute blake2b256 (run (step blake2b256) s later).1 who other with
    | error error => exact ⟨error, rfl⟩
    | ok v => simp [step, hx, Except.toOption] at hnone

/-- The baseline call with another allocation. -/
def inflatedCall : Call :=
  .finalizeNativeTransfer { goldenHeader with approvedAllocationBps := 3000 } goldenBody

/-- The baseline digests, and another one for the inflated envelope. -/
def inflatedBlake2b256 : List UInt8 → Bytes32 :=
  Function.update goldenBlake2b256
    ((envelopePreimage goldenInstalled inflatedCall).toOption.getD []) (filled 7)

def inflatedInstalled : State :=
  (init inflatedBlake2b256 (.account (filled 9)) goldenInit).toOption.getD State.empty

/-- The baseline vector approved by its quorum, under `inflatedBlake2b256`. -/
def inflatedApproved : State × List (Address × Call) :=
  run (step inflatedBlake2b256) inflatedInstalled (goldenCalls.take 3)

/-- A late approval, another proposal and the inflated finalization. -/
def interference : List (Address × Call) :=
  [(.account (filled 5), .approveEnvelope "DAO-PROP-V3-001" (goldenBlake2b256 [])),
    (.account (filled 1), .proposeEnvelope "DAO-PROP-V3-002" (filled 8)),
    (.account (filled 2), inflatedCall)]

theorem approved_action_stable_golden :
    (step inflatedBlake2b256 (run (step inflatedBlake2b256) inflatedApproved.1 interference).1
      (.account (filled 2), .finalizeNativeTransfer goldenHeader goldenBody)).isSome ∧
    ∃ error, execute inflatedBlake2b256
      (run (step inflatedBlake2b256) inflatedApproved.1 interference).1
      (.account (filled 2)) inflatedCall = .error error := by
  have hinit : init inflatedBlake2b256 (.account (filled 9)) goldenInit = .ok inflatedInstalled :=
    eq_ok_getD (by decide +kernel)
  obtain ⟨h, -, hstable⟩ := approved_action_stable inflatedBlake2b256 _ _ _ hinit
    (goldenCalls.take 3) inflatedApproved.1 inflatedApproved.2 (Prod.eta inflatedApproved).symm
    (.account (filled 2)) (.finalizeNativeTransfer goldenHeader goldenBody) goldenHeader rfl
    (by decide +kernel)
  obtain ⟨hsame, hother⟩ := hstable interference
  constructor
  · rw [hsame (by decide +kernel)]
    rfl
  · refine (hother _ inflatedCall _ rfl rfl (by decide +kernel) ?_).1
    intro x y hx hy
    have hdigests : (envelopePreimage inflatedApproved.1
        (.finalizeNativeTransfer goldenHeader goldenBody)).toOption.map inflatedBlake2b256 ≠
          (envelopePreimage inflatedApproved.1 inflatedCall).toOption.map inflatedBlake2b256 := by
      decide +kernel
    have hapart : inflatedBlake2b256 x ≠ inflatedBlake2b256 y := by
      rw [hx, hy] at hdigests
      simpa [Except.toOption] using hdigests
    intro u hu v hv heq
    simp only [Set.mem_insert_iff, Set.mem_singleton_iff] at hu hv
    rcases hu with rfl | rfl <;> rcases hv with rfl | rfl
    · rfl
    · exact absurd heq hapart
    · exact absurd heq.symm hapart
    · rfl

end Concordia.Contract.GovernanceReceiptV3
