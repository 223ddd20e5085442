import Concordia.Contract.Binding
import Concordia.Verify.Rendering

/-! Typed headers and bodies, the untyped records that stand for them, and the header rules
that the contract and the verifier share. -/
namespace Concordia.Verify
open Concordia.Js Concordia.Contract Concordia.Contract.GovernanceReceiptV3 Concordia.Lib.Encoding

structure HeaderRecord.Denotes (r : HeaderRecord) (h : CommonHeader) : Prop where
  schemaVersion : DenotesNat r.schemaVersion h.schemaVersion.toNat
  deploymentDomain : DenotesBytes r.deploymentDomain h.deploymentDomain
  casperChainName : DenotesString r.casperChainName h.casperChainName
  proposalId : DenotesString r.proposalId h.proposalId
  proposalNonce : DenotesBytes r.proposalNonce h.proposalNonce
  decisionCode : DenotesNat r.decisionCode h.decisionCode.toNat
  requestedAllocationBps : DenotesNat r.requestedAllocationBps h.requestedAllocationBps.toNat
  approvedAllocationBps : DenotesNat r.approvedAllocationBps h.approvedAllocationBps.toNat
  actionKind : DenotesNat r.actionKind h.actionKind.toNat
  actionVersion : DenotesNat r.actionVersion h.actionVersion.toNat
  actionId : DenotesBytes r.actionId h.actionId
  proposalHash : DenotesBytes r.proposalHash h.proposalHash
  policyHash : DenotesBytes r.policyHash h.policyHash
  planHash : DenotesBytes r.planHash h.planHash
  finalCardHash : DenotesBytes r.finalCardHash h.finalCardHash
  dissentHash : DenotesBytes r.dissentHash h.dissentHash
  agentActionHash : DenotesBytes r.agentActionHash h.agentActionHash
  preauthEvidenceRoot : DenotesBytes r.preauthEvidenceRoot h.preauthEvidenceRoot
  authorizedMetadataRoot : DenotesBytes r.authorizedMetadataRoot h.authorizedMetadataRoot

structure NativeRecord.Denotes (r : NativeRecord) (b : NativeTransferV1) : Prop where
  assetKind : DenotesNat r.assetKind b.assetKind.toNat
  sourceAccount : DenotesBytes r.sourceAccount b.sourceAccount
  recipientAccount : DenotesBytes r.recipientAccount b.recipientAccount
  amountMotes : DenotesNat r.amountMotes b.amountMotes.toNat
  treasurySnapshotBalanceMotes :
    DenotesNat r.treasurySnapshotBalanceMotes b.treasurySnapshotBalanceMotes.toNat
  snapshotBlockHash : DenotesBytes r.snapshotBlockHash b.snapshotBlockHash
  snapshotBlockHeight : DenotesNat r.snapshotBlockHeight b.snapshotBlockHeight.toNat
  transferId : DenotesNat r.transferId b.transferId.toNat
  actionNonce : DenotesBytes r.actionNonce b.actionNonce
  executionTarget : DenotesString r.executionTarget b.executionTarget
  executionVersion : DenotesNat r.executionVersion b.executionVersion.toNat

structure X402Record.Denotes (r : X402Record) (b : OfficialX402SettlementV1) : Prop where
  x402Version : DenotesNat r.x402Version b.x402Version.toNat
  scheme : DenotesString r.scheme b.scheme
  caip2Network : DenotesString r.caip2Network b.caip2Network
  wcsprPackage : DenotesBytes r.wcsprPackage b.wcsprPackage
  wcsprContract : DenotesBytes r.wcsprContract b.wcsprContract
  tokenName : DenotesString r.tokenName b.tokenName
  tokenSymbol : DenotesString r.tokenSymbol b.tokenSymbol
  eip712DomainVersion : DenotesString r.eip712DomainVersion b.eip712DomainVersion
  tokenDecimals : DenotesNat r.tokenDecimals b.tokenDecimals.toNat
  payer : DenotesBytes r.payer b.payer
  payee : DenotesBytes r.payee b.payee
  value : DenotesNat r.value b.value.toNat
  resourceUrlHash : DenotesBytes r.resourceUrlHash b.resourceUrlHash
  reportHash : DenotesBytes r.reportHash b.reportHash
  paymentRequirementsHash : DenotesBytes r.paymentRequirementsHash b.paymentRequirementsHash
  signedPaymentPayloadHash : DenotesBytes r.signedPaymentPayloadHash b.signedPaymentPayloadHash
  eip712AuthNonce : DenotesBytes r.eip712AuthNonce b.eip712AuthNonce
  validAfter : DenotesNat r.validAfter b.validAfter.toNat
  validBefore : DenotesNat r.validBefore b.validBefore.toNat
  actionNonce : DenotesBytes r.actionNonce b.actionNonce
  settlementTarget : DenotesString r.settlementTarget b.settlementTarget
  settlementVersion : DenotesNat r.settlementVersion b.settlementVersion.toNat

/-- What both sides ask of a header. -/
structure HeaderRules (h : CommonHeader) : Prop where
  schemaVersion : h.schemaVersion.toNat = 3
  proposalId : validProposalId h.proposalId = true
  casperChainName : h.casperChainName = "casper-test"
  requested : h.requestedAllocationBps.toNat ≤ 10000
  approved : h.approvedAllocationBps.toNat ≤ 10000
  actionVersion : h.actionVersion.toNat = 1
  allocation :
    (h.actionKind.toNat = 1 ∧ 0 < h.approvedAllocationBps.toNat ∧
      (h.decisionCode.toNat = 1 ∧
          h.approvedAllocationBps.toNat = h.requestedAllocationBps.toNat ∨
        h.decisionCode.toNat = 2 ∧
          h.approvedAllocationBps.toNat < h.requestedAllocationBps.toNat)) ∨
    (h.actionKind.toNat = 2 ∧ h.decisionCode.toNat = 1 ∧ h.requestedAllocationBps.toNat = 0 ∧
      h.approvedAllocationBps.toNat = 0)

section Headers
variable {r : HeaderRecord} {h : CommonHeader}

@[simp] theorem ok_bind {α β : Type} (a : α) (f : α → Encoded β) :
    ((Except.ok a : Encoded α) >>= f) = f a := rfl

theorem validateHeader_ok (hr : r.Denotes h) : validateHeader r = .ok () ↔ HeaderRules h := by
  have hs := hr.schemaVersion.parse h.schemaVersion.toNat_lt
  have hreq := hr.requestedAllocationBps.parse h.requestedAllocationBps.toNat_lt
  have happ := hr.approvedAllocationBps.parse h.approvedAllocationBps.toNat_lt
  have hk := hr.actionKind.parse h.actionKind.toNat_lt
  have hd := hr.decisionCode.parse h.decisionCode.toNat_lt
  have hv := hr.actionVersion.parse h.actionVersion.toNat_lt
  have hchain := hr.casperChainName.isLiteral "casper-test" (by decide)
  simp only [validateHeader, hs, hreq, happ, hk, hd, hv, hchain, hr.proposalId.asString, ok_bind,
    throwIf_bind_ok, isProposalId_js, not_not, not_or, Bool.not_eq_true]
  constructor
  · rintro ⟨h1, h2, h3, h4, h5, h6, h7, hrest⟩
    refine ⟨h1, by simpa using h2, h3, by omega, by omega, h7, ?_⟩
    split at hrest
    · simp only [throwIf_bind_ok, throwIf_ok] at hrest
      omega
    · simp only [throwIf_ok] at hrest
      omega
  · rintro ⟨h1, h2, h3, h4, h5, h6, h7⟩
    refine ⟨h1, by simpa using h2, h3, by omega, by omega, by omega, h6, ?_⟩
    split
    · simp only [throwIf_bind_ok, throwIf_ok]
      omega
    · simp only [throwIf_ok]
      omega

/-- A string behind its length. -/
def prefixed (s : String) : List UInt8 := putU32 (UInt32.ofNat (asBytes s).length) ++ asBytes s

theorem putString_printable {s : String} {min max : Nat} {e : ValidationError}
    (hs : validatePrintable s min max = true) : putString s min max e = .ok (prefixed s) := by
  simp [putString, hs, prefixed]

/-- The canonical bytes of a header whose strings are printable. -/
def headerBytes (h : CommonHeader) : List UInt8 :=
  putU32 h.schemaVersion ++ h.deploymentDomain.toList ++ prefixed h.casperChainName ++
    prefixed h.proposalId ++ h.proposalNonce.toList ++ [h.decisionCode] ++
    putU32 h.requestedAllocationBps ++ putU32 h.approvedAllocationBps ++ [h.actionKind] ++
    putU32 h.actionVersion ++ h.actionId.toList ++ h.proposalHash.toList ++
    h.policyHash.toList ++ h.planHash.toList ++ h.finalCardHash.toList ++ h.dissentHash.toList ++
    h.agentActionHash.toList ++ h.preauthEvidenceRoot.toList ++ h.authorizedMetadataRoot.toList

theorem validProposalId_printable {s : String} (hs : validProposalId s = true) :
    validatePrintable s 1 64 = true := by
  simp only [validProposalId, Bool.and_eq_true, decide_eq_true_eq, List.all_eq_true,
    Bool.or_eq_true, UInt8.le_iff_toNat_le, beq_iff_eq] at hs
  obtain ⟨⟨hne, hmax⟩, hall⟩ := hs
  have hpos := List.length_pos_of_ne_nil hne
  simp only [validatePrintable, Bool.and_eq_true, decide_eq_true_eq, List.all_eq_true,
    UInt8.le_iff_toNat_le]
  refine ⟨⟨by omega, hmax⟩, fun b hb => ?_⟩
  rcases hall b hb with (hb | hb) | hb
  · simp at hb ⊢; omega
  · simp at hb ⊢; omega
  · subst hb; decide

theorem validateBasic_header : h.validateBasic = .ok () ↔
    validProposalId h.proposalId = true ∧ h.schemaVersion.toNat = 3 ∧
      h.casperChainName = "casper-test" ∧ h.decisionCode.toNat ≤ 4 ∧
      h.requestedAllocationBps.toNat ≤ 10000 ∧ h.approvedAllocationBps.toNat ≤ 10000 ∧
      (h.actionKind.toNat = 1 ∨ h.actionKind.toNat = 2) ∧ h.actionVersion.toNat = 1 := by
  simp only [CommonHeader.validateBasic, Contract.schemaVersion, Contract.casperChainName,
    nativeTransferKind, officialX402Kind, Contract.actionVersion, ne_eq, ← UInt32.toNat_inj,
    ← UInt8.toNat_inj, gt_iff_lt, UInt8.lt_iff_toNat_lt, UInt32.lt_iff_toNat_lt,
    UInt32.reduceToNat, UInt8.reduceToNat]
  split_ifs <;> simp_all <;> grind

theorem validateSemantics_header : h.validateSemantics = .ok () ↔
    (h.actionKind.toNat = 1 ∧ 0 < h.approvedAllocationBps.toNat ∧
      (h.decisionCode.toNat = 1 ∧
          h.approvedAllocationBps.toNat = h.requestedAllocationBps.toNat ∨
        h.decisionCode.toNat = 2 ∧
          h.approvedAllocationBps.toNat < h.requestedAllocationBps.toNat)) ∨
    (h.actionKind.toNat = 2 ∧ h.decisionCode.toNat = 1 ∧ h.requestedAllocationBps.toNat = 0 ∧
      h.approvedAllocationBps.toNat = 0) := by
  simp only [CommonHeader.validateSemantics, nativeTransferKind, officialX402Kind,
    ← UInt32.toNat_inj, ← UInt8.toNat_inj, gt_iff_lt, UInt32.lt_iff_toNat_lt,
    UInt32.reduceToNat, UInt8.reduceToNat]
  split_ifs <;> simp only [true_iff, false_iff] <;> omega

/-- The contract's two header checks together ask for the same rules. -/
theorem header_ok : (h.validateBasic = .ok () ∧ h.validateSemantics = .ok ()) ↔ HeaderRules h := by
  rw [validateBasic_header, validateSemantics_header]
  constructor
  · rintro ⟨⟨h1, h2, h3, -, h4, h5, -, h6⟩, h7⟩
    exact ⟨h2, h1, h3, h4, h5, h6, h7⟩
  · rintro ⟨h1, h2, h3, h4, h5, h6, h7⟩
    exact ⟨⟨h2, h1, h3, by omega, h4, h5, by omega, h6⟩, h7⟩

theorem canonicalBytes_header (hrules : HeaderRules h) :
    h.canonicalBytes = .ok (headerBytes h) := by
  have hbasic := (header_ok.mpr hrules).1
  have hchain : validatePrintable h.casperChainName 1 32 = true := by
    rw [hrules.casperChainName]
    decide +kernel
  simp only [CommonHeader.canonicalBytes, hbasic, putString_printable hchain,
    putString_printable (validProposalId_printable hrules.proposalId), bind, Except.bind, pure,
    Except.pure, headerBytes]

theorem beBytes_one (v : UInt8) : beBytes 1 v.toNat = [v] := by
  simp [beBytes]

theorem encodeRecord_cons {name : String} {type : FieldType} {value : Value} {bytes rest : List UInt8}
    {fields : TypedFields} (hv : encodeCanonicalValue type value = .ok bytes)
    (hrest : encodeRecord fields = .ok rest) :
    encodeRecord ((name, type, value) :: fields) = .ok (bytes ++ rest) := by
  simp [encodeRecord, hv, hrest, pure, Except.pure]

end Headers

section Fields
variable {value : Value} {s : String} {bytes : Bytes32}

theorem DenotesNat.encode8 {v : UInt8} (h : DenotesNat value v.toNat) :
    encodeCanonicalValue .u8 value = .ok [v] := by
  rw [← beBytes_one]
  exact h.fixed v.toNat_lt

theorem DenotesNat.encode32 {v : UInt32} (h : DenotesNat value v.toNat) :
    encodeCanonicalValue .u32 value = .ok (putU32 v) := h.fixed v.toNat_lt

theorem DenotesNat.encode64 {v : UInt64} (h : DenotesNat value v.toNat) :
    encodeCanonicalValue .u64 value = .ok (putU64 v) := h.fixed v.toNat_lt

theorem DenotesNat.encode256 {v : U256} (h : DenotesNat value v.toNat) :
    encodeCanonicalValue .u256 value = .ok (OfficialX402SettlementV1.encodeValue v) :=
  h.fixed v.isLt

theorem DenotesNat.encode512 {v : U512} (h : DenotesNat value v.toNat) :
    encodeCanonicalValue .u512 value = .ok (putU512 v) := h.fixed v.isLt

theorem DenotesBytes.encode (h : DenotesBytes value bytes) :
    encodeCanonicalValue .bytes32 value = .ok bytes.toList := h.hex

theorem DenotesBytes.encodeAccount (h : DenotesBytes value bytes) :
    encodeCanonicalValue .accountHash value = .ok bytes.toList := h.hex

theorem DenotesString.encode {min max : Nat} (h : DenotesString value s)
    (hs : validatePrintable s min max = true) (hmax : max < 2 ^ 32) :
    encodeCanonicalValue .string value = .ok (prefixed s) := by
  simp only [encodeCanonicalValue, h.asString, ok_bind, lengthPrefixedString_printable hs hmax,
    prefixed]

end Fields

theorem encodeRecord_header {r : HeaderRecord} {h : CommonHeader} (hr : r.Denotes h)
    (hrules : HeaderRules h) : encodeRecord r.fields = .ok (headerBytes h) := by
  have hchain : validatePrintable h.casperChainName 1 32 = true := by
    rw [hrules.casperChainName]
    decide +kernel
  have hproposal := validProposalId_printable hrules.proposalId
  refine (encodeRecord_cons hr.schemaVersion.encode32 <|
    encodeRecord_cons hr.deploymentDomain.encode <|
    encodeRecord_cons (hr.casperChainName.encode hchain (by decide)) <|
    encodeRecord_cons (hr.proposalId.encode hproposal (by decide)) <|
    encodeRecord_cons hr.proposalNonce.encode <|
    encodeRecord_cons hr.decisionCode.encode8 <|
    encodeRecord_cons hr.requestedAllocationBps.encode32 <|
    encodeRecord_cons hr.approvedAllocationBps.encode32 <|
    encodeRecord_cons hr.actionKind.encode8 <|
    encodeRecord_cons hr.actionVersion.encode32 <|
    encodeRecord_cons hr.actionId.encode <|
    encodeRecord_cons hr.proposalHash.encode <|
    encodeRecord_cons hr.policyHash.encode <|
    encodeRecord_cons hr.planHash.encode <|
    encodeRecord_cons hr.finalCardHash.encode <|
    encodeRecord_cons hr.dissentHash.encode <|
    encodeRecord_cons hr.agentActionHash.encode <|
    encodeRecord_cons hr.preauthEvidenceRoot.encode <|
    encodeRecord_cons hr.authorizedMetadataRoot.encode rfl).trans ?_
  simp only [headerBytes, List.append_assoc, List.append_nil]

end Concordia.Verify
