import Concordia.Contract.Binding

/-! The arithmetic of a finalized native transfer: the amount is the approved share of the
treasury snapshot, rounded down, and every other relation of header and body holds. -/
namespace Concordia.Contract
open Concordia.Lib.Encoding

theorem isZero32_eq_true {bytes : Bytes32} :
    isZero32 bytes = true ↔ bytes = GovernanceReceiptV3.zero32 := by
  rw [← Vector.toList_inj, GovernanceReceiptV3.zero32, Vector.toList_replicate,
    List.eq_replicate_iff, isZero32, List.all_eq_true]
  simp only [beq_iff_eq, Bytes32.length_toList, true_and]

/-- What a native header says of its decision: in full exactly when nothing was cut. -/
structure CommonHeader.NativeDecision (h : CommonHeader) : Prop where
  approved_pos : 0 < h.approvedAllocationBps.toNat
  approved_le : h.approvedAllocationBps.toNat ≤ h.requestedAllocationBps.toNat
  requested_le : h.requestedAllocationBps.toNat ≤ 10000
  in_full : h.decisionCode = 1 ↔ h.approvedAllocationBps = h.requestedAllocationBps
  in_part : h.decisionCode = 2 ↔ h.approvedAllocationBps ≠ h.requestedAllocationBps

/-- The amounts and accounts of a body released for `bps` parts in ten thousand. -/
structure NativeTransferV1.Amounts (b : NativeTransferV1) (bps : UInt32) : Prop where
  product_fits : b.treasurySnapshotBalanceMotes.toNat * bps.toNat < 2 ^ 512
  amount_eq : b.amountMotes.toNat = b.treasurySnapshotBalanceMotes.toNat * bps.toNat / 10000
  amount_pos : 0 < b.amountMotes.toNat
  source_ne : b.sourceAccount ≠ GovernanceReceiptV3.zero32
  recipient_ne : b.recipientAccount ≠ GovernanceReceiptV3.zero32
  distinct : b.sourceAccount ≠ b.recipientAccount

theorem CommonHeader.nativeDecision_of_ok {h : CommonHeader} (hbasic : h.validateBasic = .ok ())
    (hkind : h.actionKind = nativeTransferKind) (hsem : h.validateSemantics = .ok ()) :
    h.NativeDecision := by
  have requested : h.requestedAllocationBps ≤ 10000 := by
    unfold validateBasic at hbasic
    split_ifs at hbasic with _ bounds
    simp only [not_or, gt_iff_lt, UInt32.not_lt] at bounds
    exact bounds.2.2.2.1
  rw [UInt32.le_iff_toNat_le] at requested
  unfold validateSemantics at hsem
  rw [if_pos hkind] at hsem
  split_ifs at hsem with full part
  · obtain ⟨code, pos, same⟩ := full
    refine ⟨UInt32.lt_iff_toNat_lt.mp pos, by rw [same], requested, ?_, ?_⟩
    · simp [code, same]
    · simp [code, same]
  · obtain ⟨code, pos, less⟩ := part
    have less' := UInt32.lt_iff_toNat_lt.mp less
    have ne : h.approvedAllocationBps ≠ h.requestedAllocationBps := by
      intro same
      rw [same] at less'
      omega
    refine ⟨UInt32.lt_iff_toNat_lt.mp pos, by omega, requested, ?_, ?_⟩
    · simp [code, ne]
    · simp [code, ne]

theorem NativeTransferV1.amounts_of_ok {b : NativeTransferV1} {bps : UInt32}
    (h : b.validateSemantics bps = .ok ()) : b.Amounts bps := by
  unfold validateSemantics at h
  split_ifs at h with fields
  simp only [not_or, Bool.not_eq_true] at fields
  obtain ⟨-, source, recipient, distinct, amount, -, -, -⟩ := fields
  unfold Unsigned.checkedMul at h
  by_cases fits : b.treasurySnapshotBalanceMotes.toNat * (U512.fromU32 bps).toNat < 2 ^ 512
  · simp only [dif_pos fits] at h
    split_ifs at h with same
    rw [ne_eq, not_not] at same
    refine ⟨fits, ?_, ?_, ?_, ?_, distinct⟩
    · rw [same]
      rfl
    · rw [Unsigned.isZero, beq_eq_false_iff_ne] at amount
      omega
    · exact fun z => by simp [isZero32_eq_true.mpr z] at source
    · exact fun z => by simp [isZero32_eq_true.mpr z] at recipient
  · rw [dif_neg fits] at h
    cases h

/-- A share of at most ten thousand parts never exceeds the balance. -/
theorem NativeTransferV1.Amounts.amount_le {b : NativeTransferV1} {bps : UInt32}
    (h : b.Amounts bps) (hbps : bps.toNat ≤ 10000) :
    b.amountMotes.toNat ≤ b.treasurySnapshotBalanceMotes.toNat := by
  rw [h.amount_eq]
  apply Nat.div_le_of_le_mul
  rw [Nat.mul_comm]
  exact Nat.mul_le_mul_right _ hbps

namespace GovernanceReceiptV3
open Concordia.Lib.Transition

section Transfer
variable (blake2b256 : List UInt8 → Bytes32)

/-- The identifiers a native body and its header carry are the derived ones. -/
structure DerivedIds (header : CommonHeader) (body : NativeTransferV1) : Prop where
  transfer_id : deriveTransferId blake2b256 header.proposalId header.proposalNonce
    header.actionId = .ok body.transferId
  action_id : ∃ core, body.actionCoreBytes = .ok core ∧
    deriveActionId blake2b256 header.actionKind body.actionNonce core = header.actionId

/-- Everything a native transfer must satisfy to be finalized. -/
structure TransferRules (header : CommonHeader) (body : NativeTransferV1) : Prop where
  decision : header.NativeDecision
  amounts : body.Amounts header.approvedAllocationBps
  amount_le : body.amountMotes.toNat ≤ body.treasurySnapshotBalanceMotes.toNat
  ids : DerivedIds blake2b256 header body

variable {blake2b256} {s t : State} {caller : Address} {args : HeaderArgs}
  {body : NativeTransferV1}

theorem nativeEnvelopeHash_ids {header : CommonHeader} {h : Bytes32}
    (hc : nativeEnvelopeHash blake2b256 header body = .ok h) :
    header.validateBasic = .ok () ∧ header.actionKind = nativeTransferKind ∧
      DerivedIds blake2b256 header body := by
  simp only [nativeEnvelopeHash, except_bind_ok, orRevert_ok] at hc
  obtain ⟨⟨⟩, hheader, _, -, core, hcore, ⟨⟩, haction, transfer, htransfer, ⟨⟩, hsame, -⟩ := hc
  obtain ⟨hbasic, hkind, -⟩ := validateHeaderBasic_ok.mp hheader
  rw [require_ok] at haction hsame
  exact ⟨hbasic, hkind, hsame ▸ htransfer, core, hcore, haction⟩

theorem finalizeNativeTransfer_rules {result : State × Bytes32}
    (h : finalizeNativeTransfer blake2b256 s caller args body = .ok result) :
    TransferRules blake2b256 (commonHeader s args) body := by
  simp only [finalizeNativeTransfer, checkNativeTransfer, except_bind_ok, orRevert_ok] at h
  obtain ⟨⟨⟩, -, _, ⟨e, he, -⟩, ⟨⟩, hheader, ⟨⟩, hbody, -⟩ := h
  obtain ⟨hbasic, hkind, ids⟩ := nativeEnvelopeHash_ids he
  have decision := CommonHeader.nativeDecision_of_ok hbasic hkind hheader
  have amounts := NativeTransferV1.amounts_of_ok hbody
  have share : args.approvedAllocationBps.toNat ≤ 10000 :=
    decision.approved_le.trans decision.requested_le
  exact ⟨decision, amounts, amounts.amount_le share, ids⟩

theorem run_refused {call : Call} (h : step blake2b256 s (caller, call) = none) :
    run (step blake2b256) s [(caller, call)] = (s, []) := by
  simp [run, attempt, h]

end Transfer

/-- A finalized native transfer obeys every rule; arguments that break one are refused and
leave the storage as it was. -/
theorem native_transfer_arithmetic (blake2b256 : List UInt8 → Bytes32) (s : State)
    (caller : Address) (args : HeaderArgs) (body : NativeTransferV1) :
    (∀ result, finalizeNativeTransfer blake2b256 s caller args body = .ok result →
      TransferRules blake2b256 (commonHeader s args) body) ∧
    (¬ TransferRules blake2b256 (commonHeader s args) body →
      (∃ error, finalizeNativeTransfer blake2b256 s caller args body = .error error) ∧
      run (step blake2b256) s [(caller, .finalizeNativeTransfer args body)] = (s, [])) := by
  refine ⟨fun result => finalizeNativeTransfer_rules, fun broken => ?_⟩
  cases h : finalizeNativeTransfer blake2b256 s caller args body with
  | ok result => exact absurd (finalizeNativeTransfer_rules h) broken
  | error error =>
    refine ⟨⟨error, rfl⟩, run_refused ?_⟩
    simp [step, execute, h, Functor.map, Except.map, Except.toOption]

/-- The baseline vector, and the same vector asking for one mote more. -/
theorem native_transfer_arithmetic_golden :
    TransferRules goldenBlake2b256 (commonHeader goldenApproved goldenHeader) goldenBody ∧
      ∃ error, finalizeNativeTransfer goldenBlake2b256 goldenApproved (.account (filled 2))
        goldenHeader { goldenBody with amountMotes := ⟨50000000001, by decide +kernel⟩ } =
          .error error := by
  constructor
  · have accepted : (finalizeNativeTransfer goldenBlake2b256 goldenApproved
        (.account (filled 2)) goldenHeader goldenBody).toOption.isSome = true := by
      decide +kernel
    exact (native_transfer_arithmetic goldenBlake2b256 goldenApproved (.account (filled 2))
      goldenHeader goldenBody).1 _ (@eq_ok_getD _ _ _ (goldenApproved, zero32) accepted)
  · refine ((native_transfer_arithmetic goldenBlake2b256 goldenApproved (.account (filled 2))
      goldenHeader _).2 fun rules => ?_).1
    exact absurd rules.amounts.amount_eq (by decide +kernel)

end GovernanceReceiptV3
end Concordia.Contract
