import Concordia.Verify.X402Agreement

/-! Where contract and verifier agree on an envelope: everywhere but on bodies with a zero
account, which only the contract refuses. -/
namespace Concordia.Verify
open Concordia.Js Concordia.Contract Concordia.Contract.GovernanceReceiptV3 Concordia.Lib.Encoding

section Agreement
variable (blake2b256 : List UInt8 → Bytes32)

/-- Both sides accept or neither does, and what they accept they report alike. -/
def NativeAgrees (h : CommonHeader) (b : NativeTransferV1) (r : HeaderRecord) (q : NativeRecord) :
    Prop :=
  ((∃ m, verifyNativeEnvelopeMaterialV3 blake2b256 r q = .ok m) ↔
    ∃ m, contractNativeMaterial blake2b256 h b = .ok m) ∧
  ∀ m n, verifyNativeEnvelopeMaterialV3 blake2b256 r q = .ok m →
    contractNativeMaterial blake2b256 h b = .ok n → m = n.render

def X402Agrees (h : CommonHeader) (b : OfficialX402SettlementV1) (r : HeaderRecord)
    (q : X402Record) : Prop :=
  ((∃ m, x402MaterialFromInput blake2b256 r q = .ok m) ↔
    ∃ m, contractX402Material blake2b256 h b = .ok m) ∧
  ∀ m n, x402MaterialFromInput blake2b256 r q = .ok m →
    contractX402Material blake2b256 h b = .ok n → m = n

variable {blake2b256} {h : CommonHeader} {r : HeaderRecord}

theorem nativeAgrees_iff {b : NativeTransferV1} {q : NativeRecord} (hr : r.Denotes h)
    (hq : q.Denotes b) :
    NativeAgrees blake2b256 h b r q ↔ AccountsSet b ∨ ¬ NativeRules blake2b256 h b := by
  simp only [NativeAgrees, verifyNative_ok hr hq, contractNative_ok, exists_and_left,
    exists_eq, and_true]
  constructor
  · rintro ⟨hsame, -⟩
    by_cases hrules : NativeRules blake2b256 h b
    · exact .inl (hsame.mp hrules).2
    · exact .inr hrules
  · intro hcond
    refine ⟨⟨fun hrules => ⟨hrules, hcond.resolve_right (not_not.mpr hrules)⟩, fun hboth =>
      hboth.1⟩, ?_⟩
    rintro m n ⟨-, rfl⟩ ⟨-, -, rfl⟩
    rfl

theorem x402Agrees_iff {b : OfficialX402SettlementV1} {q : X402Record} (hr : r.Denotes h)
    (hq : q.Denotes b) :
    X402Agrees blake2b256 h b r q ↔ PartiesSet b ∨ ¬ X402Rules blake2b256 h b := by
  simp only [X402Agrees, verifyX402_ok hr hq, contractX402_ok, exists_and_left, exists_eq,
    and_true]
  constructor
  · rintro ⟨hsame, -⟩
    by_cases hrules : X402Rules blake2b256 h b
    · exact .inl (hsame.mp hrules).2
    · exact .inr hrules
  · intro hcond
    refine ⟨⟨fun hrules => ⟨hrules, hcond.resolve_right (not_not.mpr hrules)⟩, fun hboth =>
      hboth.1⟩, ?_⟩
    rintro m n ⟨-, rfl⟩ ⟨-, -, rfl⟩
    rfl

/-- A finalization that the contract accepts has passed the envelope checks compared here. -/
theorem finalizeNativeTransfer_material {s t : State} {caller : Contract.Address} {args : HeaderArgs}
    {b : NativeTransferV1} {e : Bytes32}
    (hf : finalizeNativeTransfer blake2b256 s caller args b = .ok (t, e)) :
    ∃ m, contractNativeMaterial blake2b256 (commonHeader s args) b = .ok m ∧
      m.envelopeHash = e := by
  simp only [finalizeNativeTransfer, checkNativeTransfer, except_bind_ok, exists_unit, pure,
    Except.pure, Except.ok.injEq] at hf
  obtain ⟨-, e', ⟨_, henv, -, rfl⟩, hsem, hbsem, hfin⟩ := hf
  simp only [finishFinalization, except_bind_ok, exists_unit, pure, Except.pure, Except.ok.injEq,
    Prod.mk.injEq] at hfin
  obtain ⟨-, -, rfl⟩ := hfin
  obtain ⟨-, x, y, hx, hy, -⟩ := nativeEnvelopeHash_ok henv
  have hcore : ∃ core, b.actionCoreBytes = .ok core := by
    simp only [nativeEnvelopeHash, except_bind_ok, orRevert_ok] at henv
    obtain ⟨-, -, -, -, core, hcore, -⟩ := henv
    exact ⟨core, hcore⟩
  obtain ⟨core, hcore⟩ := hcore
  have happ : (commonHeader s args).approvedAllocationBps = args.approvedAllocationBps := rfl
  refine ⟨⟨args.actionId, b.transferId, _, x, y, core⟩, ?_, rfl⟩
  simp only [contractNativeMaterial, henv, hsem, hbsem, happ, orRevert_ok.mpr hx,
    orRevert_ok.mpr hy, orRevert_ok.mpr hcore, bind, Except.bind]
  rfl

end Agreement

/-- Fields as the golden vectors write them: decimal strings and hexadecimal. -/
def HeaderRecord.ofHeader (h : CommonHeader) : HeaderRecord where
  schemaVersion := .string (decimal h.schemaVersion.toNat)
  deploymentDomain := .string (toHex h.deploymentDomain.toList)
  casperChainName := .string (js h.casperChainName)
  proposalId := .string (js h.proposalId)
  proposalNonce := .string (toHex h.proposalNonce.toList)
  decisionCode := .string (decimal h.decisionCode.toNat)
  requestedAllocationBps := .string (decimal h.requestedAllocationBps.toNat)
  approvedAllocationBps := .string (decimal h.approvedAllocationBps.toNat)
  actionKind := .string (decimal h.actionKind.toNat)
  actionVersion := .string (decimal h.actionVersion.toNat)
  actionId := .string (toHex h.actionId.toList)
  proposalHash := .string (toHex h.proposalHash.toList)
  policyHash := .string (toHex h.policyHash.toList)
  planHash := .string (toHex h.planHash.toList)
  finalCardHash := .string (toHex h.finalCardHash.toList)
  dissentHash := .string (toHex h.dissentHash.toList)
  agentActionHash := .string (toHex h.agentActionHash.toList)
  preauthEvidenceRoot := .string (toHex h.preauthEvidenceRoot.toList)
  authorizedMetadataRoot := .string (toHex h.authorizedMetadataRoot.toList)

def NativeRecord.ofBody (b : NativeTransferV1) : NativeRecord where
  assetKind := .string (decimal b.assetKind.toNat)
  sourceAccount := .string (toHex b.sourceAccount.toList)
  recipientAccount := .string (toHex b.recipientAccount.toList)
  amountMotes := .string (decimal b.amountMotes.toNat)
  treasurySnapshotBalanceMotes := .string (decimal b.treasurySnapshotBalanceMotes.toNat)
  snapshotBlockHash := .string (toHex b.snapshotBlockHash.toList)
  snapshotBlockHeight := .string (decimal b.snapshotBlockHeight.toNat)
  transferId := .string (decimal b.transferId.toNat)
  actionNonce := .string (toHex b.actionNonce.toList)
  executionTarget := .string (js b.executionTarget)
  executionVersion := .string (decimal b.executionVersion.toNat)

theorem HeaderRecord.ofHeader_denotes (h : CommonHeader) : (HeaderRecord.ofHeader h).Denotes h := by
  constructor <;> first | exact .decimal | rfl

theorem NativeRecord.ofBody_denotes (b : NativeTransferV1) : (NativeRecord.ofBody b).Denotes b := by
  constructor <;> first | exact .decimal | rfl

/-- Contract and verifier agree on an envelope exactly when its two accounts are set or it breaks
another rule that both of them check. -/
theorem envelope_agreement (blake2b256 : List UInt8 → Bytes32) (h : CommonHeader)
    (r : HeaderRecord) (hr : r.Denotes h) :
    (∀ b q, NativeRecord.Denotes q b →
      (NativeAgrees blake2b256 h b r q ↔ AccountsSet b ∨ ¬ NativeRules blake2b256 h b)) ∧
    (∀ b q, X402Record.Denotes q b →
      (X402Agrees blake2b256 h b r q ↔ PartiesSet b ∨ ¬ X402Rules blake2b256 h b)) :=
  ⟨fun _ _ hq => nativeAgrees_iff hr hq, fun _ _ hq => x402Agrees_iff hr hq⟩

theorem envelope_agreement_golden :
    NativeAgrees goldenBlake2b256 (commonHeader goldenInstalled goldenHeader) goldenBody
      (.ofHeader (commonHeader goldenInstalled goldenHeader)) (.ofBody goldenBody) :=
  ((envelope_agreement goldenBlake2b256 _ _ (HeaderRecord.ofHeader_denotes _)).1 goldenBody _
    (NativeRecord.ofBody_denotes _)).mpr (.inl (by decide +kernel))

/-- The digests of the baseline vector once its source account is zero. -/
def zeroSourceBlake2b256 (preimage : List UInt8) : Bytes32 :=
  match preimage.length with
  | 312 => #v[
    0x99, 0xc2, 0xad, 0x68, 0x55, 0xf3, 0x40, 0xe4, 0xf1, 0xd9, 0xb6, 0xb6, 0xd3, 0x49, 0x7f, 0x20,
    0x5c, 0x3c, 0xaa, 0xe1, 0x5c, 0x9c, 0xf8, 0x70, 0x8a, 0x47, 0x3b, 0x2f, 0x8f, 0xde, 0x57, 0x86]
  | 108 => #v[
    0xb5, 0x44, 0xb4, 0x6a, 0x26, 0x59, 0x75, 0xd6, 0x0f, 0xa0, 0xc1, 0x88, 0xfa, 0x75, 0xad, 0xa7,
    0x53, 0x29, 0xda, 0x87, 0x1e, 0xc0, 0x3e, 0x15, 0x02, 0xaf, 0x5c, 0x32, 0x51, 0x8a, 0x58, 0x82]
  | _ => #v[
    0x10, 0xf8, 0xdc, 0xe6, 0x96, 0x7e, 0x40, 0xae, 0x17, 0x02, 0x64, 0xeb, 0xa9, 0xe6, 0xc2, 0xaa,
    0x9d, 0x37, 0xab, 0xc2, 0xfe, 0xe8, 0xe0, 0x14, 0x9d, 0x14, 0x0c, 0xf9, 0x67, 0x34, 0x34, 0xe2]

def zeroSourceHeader : CommonHeader :=
  { commonHeader goldenInstalled goldenHeader with
    actionId := zeroSourceBlake2b256 (List.replicate 312 0) }

def zeroSourceBody : NativeTransferV1 :=
  { goldenBody with sourceAccount := zero32, transferId := 13061763187284211158 }

theorem zeroSource_rules : NativeRules zeroSourceBlake2b256 zeroSourceHeader zeroSourceBody where
  header := ⟨by decide, by decide +kernel, by decide +kernel, by decide, by decide, by decide,
    by decide⟩
  body := ⟨by decide, by decide, by decide +kernel, by decide +kernel, by decide +kernel,
    by decide +kernel, by decide +kernel, by decide +kernel, by decide +kernel, by decide⟩
  actionId := by decide +kernel
  transferId := by decide +kernel

/-- The verifier vouches for an envelope that the contract refuses. -/
theorem envelope_agreement_zero_source :
    ¬ NativeAgrees zeroSourceBlake2b256 zeroSourceHeader zeroSourceBody
      (.ofHeader zeroSourceHeader) (.ofBody zeroSourceBody) := by
  rw [nativeAgrees_iff (HeaderRecord.ofHeader_denotes _) (NativeRecord.ofBody_denotes _)]
  rintro (hset | hrules)
  · exact absurd hset (by decide +kernel)
  · exact hrules zeroSource_rules

end Concordia.Verify
