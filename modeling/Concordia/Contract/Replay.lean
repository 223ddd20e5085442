import Concordia.Contract.Provenance

/-! Replay safety: no proposal and no action is finalized twice, by either entry
point, and a finalized proposal is frozen. -/
namespace Concordia.Contract.GovernanceReceiptV3
open Concordia.Lib.Transition

/-- `p` is finalized, for the hash `h` that was proposed. -/
structure Sealed (s : State) (p : String) (h : Bytes32) : Prop where
  finalized : s.finalized p = true
  proposed : s.proposedEnvelope p = some h
  envelope : s.finalizedEnvelope p = some h

/-- The storage about `p` is the same in both states. -/
structure SameRecord (p : String) (s t : State) : Prop where
  proposed : t.proposedEnvelope p = s.proposedEnvelope p
  envelope : t.finalizedEnvelope p = s.finalizedEnvelope p
  count : t.approvalCount p = s.approvalCount p
  approvals : ∀ h x, t.approvals (p, h, x) = s.approvals (p, h, x)

theorem SameRecord.refl (p : String) (s : State) : SameRecord p s s :=
  ⟨rfl, rfl, rfl, fun _ _ => rfl⟩

theorem SameRecord.trans {p : String} {s t u : State} (h : SameRecord p s t)
    (k : SameRecord p t u) : SameRecord p s u where
  proposed := k.proposed.trans h.proposed
  envelope := k.envelope.trans h.envelope
  count := k.count.trans h.count
  approvals e x := (k.approvals e x).trans (h.approvals e x)

section Replay
variable {blake2b256 : List UInt8 → Bytes32} {s s₀ t : State} {a : Address × Call}
  {log : List (Address × Call)} {p : String}

/-- A call about another proposal leaves the record of `p` alone. -/
theorem Effect.frame (he : Effect blake2b256 s a t) (hp : s.finalized p = true)
    (hc : s.proposedEnvelopes p ≠ none) : t.finalized p = true ∧ SameRecord p s t := by
  cases he with
  | @proposed q h _ fresh =>
    have hq : p ≠ q := by
      rintro rfl
      exact hc fresh
    refine ⟨hp, set_other hq, rfl, ?_, fun _ _ => rfl⟩
    simp [State.approvalCount, State.withProposal, set_other hq]
  | @approved q h x _ _ _ open_ =>
    have hq : p ≠ q := by
      rintro rfl
      simp [hp] at open_
    refine ⟨hp, rfl, rfl, ?_, fun g y => set_other (by simp [hq])⟩
    simp [State.approvalCount, State.withApproval, set_other hq]
  | @finalized call args h _ _ _ open_ =>
    have hq : p ≠ args.proposalId := by
      rintro rfl
      simp [hp] at open_
    refine ⟨?_, rfl, set_other hq, rfl, fun _ _ => rfl⟩
    simpa [State.finalized, State.withFinalization, set_other hq] using hp

theorem Effect.sealed (he : Effect blake2b256 s a t)
    (hs : ∀ q, s.finalized q = true → ∃ h, Sealed s q h) (hp : t.finalized p = true) :
    ∃ h, Sealed t p h := by
  cases hold : s.finalized p with
  | true =>
    obtain ⟨h, -, hc, henv⟩ := hs p hold
    have hsome : s.proposedEnvelopes p ≠ none := by
      change s.proposedEnvelope p ≠ none
      simp [hc]
    obtain ⟨hfin, hsame⟩ := he.frame hold hsome
    exact ⟨h, hfin, hsame.proposed.trans hc, hsame.envelope.trans henv⟩
  | false =>
    cases he with
    | proposed => exact absurd hp (by simpa [State.finalized, State.withProposal] using hold)
    | approved => exact absurd hp (by simpa [State.finalized, State.withApproval] using hold)
    | @finalized call args h _ _ hc =>
      by_cases hq : p = args.proposalId
      · subst hq
        exact ⟨h, hp, hc, set_self ..⟩
      · exact absurd hp (by
          simpa [State.finalized, State.withFinalization, set_other hq] using hold)

theorem accepts_sealed (hs : Installed s₀) (h : Accepts (step blake2b256) s₀ log s) :
    ∀ q, s.finalized q = true → ∃ h, Sealed s q h := by
  refine h.invariant (P := fun v => ∀ q, v.finalized q = true → ∃ h, Sealed v q h) ?_ ?_
  · intro q hq
    simp [State.finalized, hs.finalized] at hq
  · intro v b w hv hstep q
    exact (step_effect hstep).sealed hv

/-- Once finalized, a proposal's record survives every later call. -/
theorem accepts_frozen {h : Bytes32} (hseal : Sealed s p h)
    (hrun : Accepts (step blake2b256) s log t) : Sealed t p h ∧ SameRecord p s t := by
  refine hrun.invariant (P := fun v => Sealed v p h ∧ SameRecord p s v)
    ⟨hseal, .refl p s⟩ ?_
  rintro v b w ⟨hv, hsv⟩ hstep
  have hsome : v.proposedEnvelopes p ≠ none := by
    change v.proposedEnvelope p ≠ none
    simp [hv.proposed]
  obtain ⟨hfin, hsame⟩ := (step_effect hstep).frame hv.finalized hsome
  exact ⟨⟨hfin, hsame.proposed.trans hv.proposed, hsame.envelope.trans hv.envelope⟩,
    hsv.trans hsame⟩

/-- The finalizations of a run differ in their proposals and in their actions. -/
theorem accepts_nodup (hs : Installed s₀) (h : Accepts (step blake2b256) s₀ log s) :
    ((finalizations log).map HeaderArgs.proposalId).Nodup ∧
      ((finalizations log).map HeaderArgs.actionId).Nodup := by
  induction h with
  | start => simp [finalizations]
  | @accept log v w b hv hstep ih =>
    have hr := accepts_recorded hs hv
    cases step_effect hstep with
    | proposed => simpa [finalizations, Call.finalization] using ih
    | approved => simpa [finalizations, Call.finalization] using ih
    | @finalized call args e header _ _ open_ _ _ _ fresh =>
      have hp : args.proposalId ∉ (finalizations log).map HeaderArgs.proposalId := by
        intro hm
        obtain ⟨earlier, hmem, heq⟩ := List.mem_map.mp hm
        simp [(hr.finalized _).mpr ⟨earlier, hmem, heq⟩] at open_
      have hi : args.actionId ∉ (finalizations log).map HeaderArgs.actionId := by
        intro hm
        obtain ⟨earlier, hmem, heq⟩ := List.mem_map.mp hm
        simp [(hr.authorized _).mpr ⟨earlier, hmem, heq⟩] at fresh
      have hlog : finalizations (log ++ [(.account v.finalizer, call)]) =
          finalizations log ++ [args] := by
        simp [finalizations, header]
      rw [hlog]
      simp only [List.map_append, List.map_cons, List.map_nil]
      exact ⟨List.Nodup.append ih.1 (by simp) (by simpa using hp),
        List.Nodup.append ih.2 (by simp) (by simpa using hi)⟩

end Replay

/-- Finalizations never repeat a proposal or an action, account for everything that is
finalized or authorized, and freeze the record of their proposal. -/
theorem replay_safety (blake2b256 : List UInt8 → Bytes32) (caller : Address) (args : InitArgs)
    (s₀ : State) (hinit : init blake2b256 caller args = .ok s₀) (calls : List (Address × Call))
    (s : State) (log : List (Address × Call))
    (hrun : run (step blake2b256) s₀ calls = (s, log)) :
    ((finalizations log).map HeaderArgs.proposalId).Nodup ∧
    ((finalizations log).map HeaderArgs.actionId).Nodup ∧
    Set.BijOn HeaderArgs.proposalId {args | args ∈ finalizations log}
      {p | s.finalized p = true} ∧
    Set.BijOn HeaderArgs.actionId {args | args ∈ finalizations log}
      {i | s.actionAuthorized i = true} ∧
    ∀ p, s.finalized p = true → ∃ h, Sealed s p h ∧ ∀ later,
      Sealed (run (step blake2b256) s later).1 p h ∧
        SameRecord p s (run (step blake2b256) s later).1 := by
  have hs := init_installed hinit
  have h : Accepts (step blake2b256) s₀ log s := by
    simpa [hrun] using run_accepts (step blake2b256) s₀ calls
  have hr := accepts_recorded hs h
  obtain ⟨hp, hi⟩ := accepts_nodup hs h
  refine ⟨hp, hi, ⟨?_, ?_, ?_⟩, ⟨?_, ?_, ?_⟩, ?_⟩
  · exact fun args hm => (hr.finalized _).mpr ⟨args, hm, rfl⟩
  · exact fun args hm args' hm' heq => List.inj_on_of_nodup_map hp hm hm' heq
  · exact fun p hfin => (hr.finalized p).mp hfin
  · exact fun args hm => (hr.authorized _).mpr ⟨args, hm, rfl⟩
  · exact fun args hm args' hm' heq => List.inj_on_of_nodup_map hi hm hm' heq
  · exact fun i hauth => (hr.authorized i).mp hauth
  · intro p hfin
    obtain ⟨e, hseal⟩ := accepts_sealed hs h p hfin
    exact ⟨e, hseal, fun later => accepts_frozen hseal (run_accepts (step blake2b256) s later)⟩

theorem replay_safety_golden :
    (finalizations goldenRun.2).map HeaderArgs.proposalId = ["DAO-PROP-V3-001"] ∧
      ∃ h, Sealed goldenRun.1 "DAO-PROP-V3-001" h ∧ ∀ later,
        Sealed (run (step goldenBlake2b256) goldenRun.1 later).1 "DAO-PROP-V3-001" h ∧
          SameRecord "DAO-PROP-V3-001" goldenRun.1
            (run (step goldenBlake2b256) goldenRun.1 later).1 := by
  have h := replay_safety goldenBlake2b256 _ _ _ goldenInstalled_ok goldenCalls
    goldenRun.1 goldenRun.2 (Prod.eta goldenRun).symm
  exact ⟨by decide +kernel, h.2.2.2.2 _ (by decide +kernel)⟩

end Concordia.Contract.GovernanceReceiptV3
