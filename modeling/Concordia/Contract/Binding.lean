import Concordia.Contract.Replay

/-! Exact-envelope binding: the committed hash of a proposal fixes the finalize call
that can match it, entry point and every argument, unless blake2b-256 collides. -/
namespace Concordia.Contract.GovernanceReceiptV3
open Concordia.Lib.Transition

/-- The bytes a finalize call hashes into its envelope hash. -/
def envelopePreimage (s : State) : Call → Except ValidationError (List UInt8)
  | .finalizeNativeTransfer args body => do
    let header ← (commonHeader s args).canonicalBytes
    let bytes ← body.canonicalBytes
    return envelopeSeparator ++ header ++ bytes
  | .finalizeOfficialX402 args body => do
    let header ← (commonHeader s args).canonicalBytes
    let bytes ← body.canonicalBytes
    return envelopeSeparator ++ header ++ bytes
  | _ => .error .invalidActionField

/-- The header names the action kind of the entry point called. -/
def Call.KindMatches : Call → Prop
  | .finalizeNativeTransfer args _ => args.actionKind = nativeTransferKind
  | .finalizeOfficialX402 args _ => args.actionKind = officialX402Kind
  | _ => False

section Binding
variable {blake2b256 : List UInt8 → Bytes32} {s t : State} {c₁ c₂ : Call} {x y : List UInt8}

private theorem commonHeader_inj {a b : HeaderArgs} (h : commonHeader s a = commonHeader s b) :
    a = b := by
  obtain ⟨⟩ := a
  obtain ⟨⟩ := b
  simpa [commonHeader] using h

private theorem cut {hx hy bx by' : List UInt8} {a b : HeaderArgs}
    (h₁ : (commonHeader s a).canonicalBytes = .ok hx)
    (h₂ : (commonHeader s b).canonicalBytes = .ok hy)
    (e : envelopeSeparator ++ hx ++ bx = envelopeSeparator ++ hy ++ by') : a = b ∧ bx = by' := by
  rw [List.append_assoc, List.append_assoc] at e
  obtain ⟨hh, hb⟩ := CommonHeader.canonicalBytes_cut h₁ h₂ (List.append_cancel_left e)
  exact ⟨commonHeader_inj hh, hb⟩

/-- Equal preimages come from equal calls. -/
theorem envelopePreimage_inj (h₁ : envelopePreimage s c₁ = .ok x)
    (h₂ : envelopePreimage s c₂ = .ok x) (k₁ : c₁.KindMatches) (k₂ : c₂.KindMatches) :
    c₁ = c₂ := by
  cases c₁ with
  | proposeEnvelope => exact k₁.elim
  | approveEnvelope => exact k₁.elim
  | finalizeNativeTransfer a b =>
    cases c₂ with
    | proposeEnvelope => exact k₂.elim
    | approveEnvelope => exact k₂.elim
    | finalizeNativeTransfer a' b' =>
      simp only [envelopePreimage, except_bind_ok, pure, Except.pure, Except.ok.injEq] at h₁ h₂
      obtain ⟨hx, hhx, bx, hbx, rfl⟩ := h₁
      obtain ⟨hy, hhy, by', hby, e⟩ := h₂
      obtain ⟨rfl, rfl⟩ := cut hhx hhy e.symm
      rw [NativeTransferV1.canonicalBytes_inj hbx hby]
    | finalizeOfficialX402 a' b' =>
      simp only [envelopePreimage, except_bind_ok, pure, Except.pure, Except.ok.injEq] at h₁ h₂
      obtain ⟨hx, hhx, bx, hbx, rfl⟩ := h₁
      obtain ⟨hy, hhy, by', hby, e⟩ := h₂
      obtain ⟨rfl, rfl⟩ := cut hhx hhy e.symm
      exact absurd (k₁.symm.trans k₂) (by decide)
  | finalizeOfficialX402 a b =>
    cases c₂ with
    | proposeEnvelope => exact k₂.elim
    | approveEnvelope => exact k₂.elim
    | finalizeNativeTransfer a' b' =>
      simp only [envelopePreimage, except_bind_ok, pure, Except.pure, Except.ok.injEq] at h₁ h₂
      obtain ⟨hx, hhx, bx, hbx, rfl⟩ := h₁
      obtain ⟨hy, hhy, by', hby, e⟩ := h₂
      obtain ⟨rfl, rfl⟩ := cut hhx hhy e.symm
      exact absurd (k₁.symm.trans k₂) (by decide)
    | finalizeOfficialX402 a' b' =>
      simp only [envelopePreimage, except_bind_ok, pure, Except.pure, Except.ok.injEq] at h₁ h₂
      obtain ⟨hx, hhx, bx, hbx, rfl⟩ := h₁
      obtain ⟨hy, hhy, by', hby, e⟩ := h₂
      obtain ⟨rfl, rfl⟩ := cut hhx hhy e.symm
      rw [OfficialX402SettlementV1.canonicalBytes_inj hbx hby]

theorem validateHeaderBasic_ok {header : CommonHeader} {kind : UInt8} :
    validateHeaderBasic header kind = .ok () ↔ header.validateBasic = .ok () ∧
      header.actionKind = kind ∧ header.actionVersion = Contract.actionVersion := by
  simp only [validateHeaderBasic, except_bind_ok, orRevert_ok, require_ok, not_or, not_not]
  constructor
  · rintro ⟨⟨⟩, rest⟩
    exact rest
  · intro rest
    exact ⟨(), rest⟩

theorem deriveEnvelopeHash_ok {header : CommonHeader} {body : List UInt8} {h : Bytes32} :
    deriveEnvelopeHash blake2b256 header body = .ok h ↔
      ∃ bytes, header.canonicalBytes = .ok bytes ∧
        blake2b256 (envelopeSeparator ++ bytes ++ body) = h := by
  simp [deriveEnvelopeHash, except_bind_ok, pure, Except.pure]

theorem nativeEnvelopeHash_ok {header : CommonHeader} {body : NativeTransferV1} {h : Bytes32}
    (hc : nativeEnvelopeHash blake2b256 header body = .ok h) :
    header.actionKind = nativeTransferKind ∧ ∃ x y, header.canonicalBytes = .ok x ∧
      body.canonicalBytes = .ok y ∧ blake2b256 (envelopeSeparator ++ x ++ y) = h := by
  simp only [nativeEnvelopeHash, except_bind_ok, orRevert_ok, deriveEnvelopeHash_ok] at hc
  obtain ⟨⟨⟩, hkind, _, -, _, -, _, -, _, -, _, -, y, hy, x, hx, he⟩ := hc
  exact ⟨(validateHeaderBasic_ok.mp hkind).2.1, x, y, hx, hy, he⟩

theorem officialX402EnvelopeHash_ok {header : CommonHeader} {body : OfficialX402SettlementV1}
    {h : Bytes32} (hc : officialX402EnvelopeHash blake2b256 header body = .ok h) :
    header.actionKind = officialX402Kind ∧ ∃ x y, header.canonicalBytes = .ok x ∧
      body.canonicalBytes = .ok y ∧ blake2b256 (envelopeSeparator ++ x ++ y) = h := by
  simp only [officialX402EnvelopeHash, except_bind_ok, orRevert_ok, deriveEnvelopeHash_ok] at hc
  obtain ⟨⟨⟩, hkind, _, -, _, -, _, -, y, hy, x, hx, he⟩ := hc
  exact ⟨(validateHeaderBasic_ok.mp hkind).2.1, x, y, hx, hy, he⟩

/-- A matched call commits to its preimage, under its own kind. -/
theorem checkFinalize_preimage {call : Call} {h : Bytes32}
    (hc : checkFinalize blake2b256 s call = .ok h) :
    call.KindMatches ∧ ∃ x, envelopePreimage s call = .ok x ∧ blake2b256 x = h := by
  cases call with
  | proposeEnvelope => cases hc
  | approveEnvelope => cases hc
  | finalizeNativeTransfer args body =>
    simp only [checkFinalize, checkNativeTransfer, except_bind_ok, pure, Except.pure,
      Except.ok.injEq] at hc
    obtain ⟨e, hm, _, -, rfl⟩ := hc
    obtain ⟨hkind, x, y, hx, hy, he⟩ := nativeEnvelopeHash_ok hm
    refine ⟨hkind, _, ?_, he⟩
    simp [envelopePreimage, hx, hy, bind, Except.bind, pure, Except.pure]
  | finalizeOfficialX402 args body =>
    simp only [checkFinalize, checkOfficialX402, except_bind_ok, pure, Except.pure,
      Except.ok.injEq] at hc
    obtain ⟨e, hm, _, -, rfl⟩ := hc
    obtain ⟨hkind, x, y, hx, hy, he⟩ := officialX402EnvelopeHash_ok hm
    refine ⟨hkind, _, ?_, he⟩
    simp [envelopePreimage, hx, hy, bind, Except.bind, pure, Except.pure]

theorem envelopePreimage_congr (hroles : t.roles = s.roles) (call : Call) :
    envelopePreimage t call = envelopePreimage s call := by
  have hdomain : t.deploymentDomain = s.deploymentDomain := congrArg Roles.deploymentDomain hroles
  have hchain : t.casperChainName = s.casperChainName := congrArg Roles.casperChainName hroles
  cases call <;> simp [envelopePreimage, commonHeader, hdomain, hchain]

/-- A committed hash is never replaced. -/
theorem accepts_committed {p : String} {h : Bytes32} {log : List (Address × Call)}
    (hc : s.proposedEnvelopes p = some h) (hrun : Accepts (step blake2b256) s log t) :
    t.proposedEnvelopes p = some h := by
  refine hrun.invariant (P := fun v => v.proposedEnvelopes p = some h) hc ?_
  intro v b w hv hstep
  cases step_effect hstep with
  | @proposed q g _ fresh =>
    have hq : p ≠ q := by
      rintro rfl
      simp [hv] at fresh
    exact (set_other hq).trans hv
  | approved => exact hv
  | finalized => exact hv

end Binding

/-- Two finalize calls that match the committed hash of `p` are the same call; and once the
committed hash is that of a call's envelope, only that call ever finalizes `p`. No state is
excluded, reachable or not. -/
theorem exact_envelope_binding (blake2b256 : List UInt8 → Bytes32) (s : State) (p : String) :
    (∀ c₁ c₂ a₁ a₂ h₁ h₂ x₁ x₂,
      c₁.finalization = some a₁ → c₂.finalization = some a₂ → a₁.proposalId = p →
      a₂.proposalId = p → checkFinalize blake2b256 s c₁ = .ok h₁ →
      checkFinalize blake2b256 s c₂ = .ok h₂ → envelopePreimage s c₁ = .ok x₁ →
      envelopePreimage s c₂ = .ok x₂ → Set.InjOn blake2b256 {x₁, x₂} → c₁ = c₂) ∧
    (∀ c x, envelopePreimage s c = .ok x → c.KindMatches →
      s.proposedEnvelopes p = some (blake2b256 x) → ∀ later, ∀ who c' a' y,
      (who, c') ∈ (run (step blake2b256) s later).2 → c'.finalization = some a' →
      a'.proposalId = p → envelopePreimage s c' = .ok y → Set.InjOn blake2b256 {x, y} →
      c' = c) := by
  constructor
  · rintro c₁ c₂ a₁ a₂ h₁ h₂ x₁ x₂ f₁ f₂ rfl hp m₁ m₂ hx₁ hx₂ hinj
    obtain ⟨k₁, y₁, hy₁, rfl⟩ := checkFinalize_preimage m₁
    obtain ⟨k₂, y₂, hy₂, rfl⟩ := checkFinalize_preimage m₂
    obtain rfl : y₁ = x₁ := Except.ok.inj (hy₁.symm.trans hx₁)
    obtain rfl : y₂ = x₂ := Except.ok.inj (hy₂.symm.trans hx₂)
    have hcommit := checkFinalize_committed f₂ m₂
    rw [hp, checkFinalize_committed f₁ m₁] at hcommit
    obtain rfl : y₁ = y₂ := hinj (by simp) (by simp) (Option.some.inj hcommit)
    exact envelopePreimage_inj hx₁ hx₂ k₁ k₂
  · rintro c x hx hk hcommit later who c' a' y hmem hf rfl hy hinj
    obtain ⟨before, after, hlog⟩ := List.append_of_mem hmem
    have hrun' := run_accepts (step blake2b256) s later
    rw [hlog] at hrun'
    obtain ⟨v, w, hv, hstep, -⟩ := hrun'.split
    cases step_effect hstep with
    | proposed => cases hf
    | approved => cases hf
    | @finalized _ a'' h hf'' _ committed _ _ matching =>
      obtain rfl : a'' = a' := Option.some.inj (hf''.symm.trans hf)
      obtain ⟨hk', z, hz, rfl⟩ := checkFinalize_preimage matching
      rw [envelopePreimage_congr (accepts_roles_eq hv)] at hz
      obtain rfl : z = y := Except.ok.inj (hz.symm.trans hy)
      have hsame := accepts_committed hcommit hv
      rw [committed] at hsame
      obtain rfl : z = x := hinj (by simp) (by simp) (Option.some.inj hsame)
      exact envelopePreimage_inj hy hx hk' hk

/-- The baseline vector proposed and approved, its finalization still to come. -/
def goldenApproved : State :=
  (run (step goldenBlake2b256) goldenInstalled (goldenCalls.take 3)).1

theorem exact_envelope_binding_golden :
    ∀ entry ∈ (run (step goldenBlake2b256) goldenApproved (goldenCalls.drop 3)).2,
      entry.2 = .finalizeNativeTransfer goldenHeader goldenBody := by
  have hlog : (run (step goldenBlake2b256) goldenApproved (goldenCalls.drop 3)).2 =
      [(.account (filled 2), .finalizeNativeTransfer goldenHeader goldenBody)] := by
    decide +kernel
  have hx : envelopePreimage goldenApproved (.finalizeNativeTransfer goldenHeader goldenBody) =
      .ok ((envelopePreimage goldenApproved
        (.finalizeNativeTransfer goldenHeader goldenBody)).toOption.getD []) :=
    eq_ok_getD (by decide +kernel)
  intro entry hmem
  obtain rfl := List.mem_singleton.mp (hlog ▸ hmem)
  exact (exact_envelope_binding goldenBlake2b256 goldenApproved "DAO-PROP-V3-001").2
    (.finalizeNativeTransfer goldenHeader goldenBody) _ hx rfl (by decide +kernel)
    (goldenCalls.drop 3) _ _ goldenHeader _ hmem rfl rfl hx (by simp)

end Concordia.Contract.GovernanceReceiptV3
