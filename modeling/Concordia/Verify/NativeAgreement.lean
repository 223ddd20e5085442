import Concordia.Verify.HeaderAgreement

/-! Native transfers: what the contract and the verifier accept, and the material both compute. -/
namespace Concordia.Verify
open Concordia.Js Concordia.Contract Concordia.Contract.GovernanceReceiptV3 Concordia.Lib.Encoding

def nativeCoreBytes (b : NativeTransferV1) : List UInt8 :=
  [b.assetKind] ++ b.sourceAccount.toList ++ b.recipientAccount.toList ++
    putU512 b.amountMotes ++ putU512 b.treasurySnapshotBalanceMotes ++
    b.snapshotBlockHash.toList ++ putU64 b.snapshotBlockHeight ++ prefixed b.executionTarget ++
    putU32 b.executionVersion

def nativeBytes (b : NativeTransferV1) : List UInt8 :=
  [b.assetKind] ++ b.sourceAccount.toList ++ b.recipientAccount.toList ++
    putU512 b.amountMotes ++ putU512 b.treasurySnapshotBalanceMotes ++
    b.snapshotBlockHash.toList ++ putU64 b.snapshotBlockHeight ++ putU64 b.transferId ++
    b.actionNonce.toList ++ prefixed b.executionTarget ++ putU32 b.executionVersion

/-- What both sides ask of a native body under its header. -/
structure NativeBodyRules (h : CommonHeader) (b : NativeTransferV1) : Prop where
  actionKind : h.actionKind.toNat = 1
  assetKind : b.assetKind.toNat = 0
  distinct : b.sourceAccount ≠ b.recipientAccount
  actionNonce : isZero32 b.actionNonce = false
  balance : b.treasurySnapshotBalanceMotes.toNat ≠ 0
  fits : b.treasurySnapshotBalanceMotes.toNat * h.approvedAllocationBps.toNat < 2 ^ 512
  amountPositive : b.amountMotes.toNat ≠ 0
  amount : b.amountMotes.toNat =
    b.treasurySnapshotBalanceMotes.toNat * h.approvedAllocationBps.toNat / 10000
  executionTarget : b.executionTarget = "native-transfer"
  executionVersion : b.executionVersion.toNat = 1

/-- Both accounts of the transfer are set. -/
def AccountsSet (b : NativeTransferV1) : Prop :=
  isZero32 b.sourceAccount = false ∧ isZero32 b.recipientAccount = false

instance (b : NativeTransferV1) : Decidable (AccountsSet b) :=
  inferInstanceAs (Decidable (_ ∧ _))

section Checks
variable {r : HeaderRecord} {h : CommonHeader} {q : NativeRecord} {b : NativeTransferV1}

theorem anyOf_ok_false {cs : List (Encoded Bool)} :
    anyOf cs = .ok false ↔ ∀ c ∈ cs, c = .ok false := by
  induction cs with
  | nil => simp [anyOf]
  | cons c cs ih =>
    cases c with
    | error e => simp [anyOf, bind, Except.bind]
    | ok v =>
      cases v with
      | true => simp [anyOf, pure, Except.pure]
      | false => simpa [anyOf] using ih

theorem anyOf_throwIf_ok {e : EncodingError} {cs : List (Encoded Bool)} :
    (anyOf cs >>= fun u => throwIf (u = true) e) = .ok () ↔ ∀ c ∈ cs, c = .ok false := by
  rw [← anyOf_ok_false]
  cases anyOf cs with
  | error e => simp [bind, Except.bind]
  | ok v => cases v <;> simp [throwIf]

theorem anyOf_throwIf_bind_ok {β : Type} {e : EncodingError} {cs : List (Encoded Bool)}
    {f : Unit → Encoded β} {v : β} :
    (anyOf cs >>= fun u => throwIf (u = true) e >>= f) = .ok v ↔
      (∀ c ∈ cs, c = .ok false) ∧ f () = .ok v := by
  rw [← anyOf_ok_false]
  cases anyOf cs with
  | error e => simp [bind, Except.bind]
  | ok v => cases v <;> simp

theorem DenotesNat.differs {value : Value} {n bits : Nat} (hv : DenotesNat value n)
    (hn : n < 2 ^ bits) (expected : Nat) : differs value bits expected = .ok false ↔ n = expected := by
  simp [Verify.differs, hv.parse hn, pure, Except.pure]

theorem DenotesString.differs {value : Value} {s : String} (hv : DenotesString value s)
    (literal : String) (hl : AsciiUnits (js literal)) :
    differsLiteral value literal = .ok false ↔ s = literal := by
  simp [differsLiteral, pure, Except.pure, hv.isLiteral literal hl]

theorem validateNativeBody_ok (hr : r.Denotes h) (hq : q.Denotes b) :
    validateNativeBody r q = .ok () ↔ NativeBodyRules h b := by
  have hk := hr.actionKind.parse h.actionKind.toNat_lt
  have happ := hr.approvedAllocationBps.parse h.approvedAllocationBps.toNat_lt
  have ha := hq.assetKind.parse b.assetKind.toNat_lt
  have hm := hq.amountMotes.parse b.amountMotes.isLt
  have ht := hq.treasurySnapshotBalanceMotes.parse b.treasurySnapshotBalanceMotes.isLt
  have htarget := hq.executionTarget.differs "native-transfer" (by decide)
  have hversion := hq.executionVersion.differs b.executionVersion.toNat_lt 1
  simp only [validateNativeBody, hk, happ, ha, hm, ht, hq.actionNonce.isZero, ok_bind,
    throwIf_bind_ok, hq.sourceAccount.strictEq hq.recipientAccount, anyOf_throwIf_ok,
    List.forall_mem_cons, htarget, hversion, not_not, not_or, Bool.not_eq_true]
  have hmax : ∀ n, ¬ n > maxU512 ↔ n < 2 ^ 512 := by
    intro n
    unfold maxU512
    omega
  constructor
  · rintro ⟨h1, h2, h3, h4, ⟨h5, h6⟩, ⟨h7, h8⟩, h9, h10, -⟩
    exact ⟨h1, h2, h3, h4, h5, (hmax _).mp h6, h7, h8, h9, h10⟩
  · rintro ⟨h1, h2, h3, h4, h5, h6, h7, h8, h9, h10⟩
    exact ⟨h1, h2, h3, h4, ⟨h5, (hmax _).mpr h6⟩, ⟨h7, h8⟩, h9, h10, by simp⟩

theorem nativeTarget_printable (hb : NativeBodyRules h b) :
    validatePrintable b.executionTarget 1 64 = true := by
  rw [hb.executionTarget]
  decide +kernel

theorem nativeCore_encode (hq : q.Denotes b) (hb : NativeBodyRules h b) :
    encodeRecord q.core = .ok (nativeCoreBytes b) := by
  have htarget := nativeTarget_printable hb
  refine (encodeRecord_cons hq.assetKind.encode8 <|
    encodeRecord_cons hq.sourceAccount.encodeAccount <|
    encodeRecord_cons hq.recipientAccount.encodeAccount <|
    encodeRecord_cons hq.amountMotes.encode512 <|
    encodeRecord_cons hq.treasurySnapshotBalanceMotes.encode512 <|
    encodeRecord_cons hq.snapshotBlockHash.encode <|
    encodeRecord_cons hq.snapshotBlockHeight.encode64 <|
    encodeRecord_cons (hq.executionTarget.encode htarget (by decide)) <|
    encodeRecord_cons hq.executionVersion.encode32 rfl).trans ?_
  simp only [nativeCoreBytes, List.append_assoc, List.append_nil]

theorem native_encode (hq : q.Denotes b) (hb : NativeBodyRules h b) :
    encodeRecord q.fields = .ok (nativeBytes b) := by
  have htarget := nativeTarget_printable hb
  refine (encodeRecord_cons hq.assetKind.encode8 <|
    encodeRecord_cons hq.sourceAccount.encodeAccount <|
    encodeRecord_cons hq.recipientAccount.encodeAccount <|
    encodeRecord_cons hq.amountMotes.encode512 <|
    encodeRecord_cons hq.treasurySnapshotBalanceMotes.encode512 <|
    encodeRecord_cons hq.snapshotBlockHash.encode <|
    encodeRecord_cons hq.snapshotBlockHeight.encode64 <|
    encodeRecord_cons hq.transferId.encode64 <|
    encodeRecord_cons hq.actionNonce.encode <|
    encodeRecord_cons (hq.executionTarget.encode htarget (by decide)) <|
    encodeRecord_cons hq.executionVersion.encode32 rfl).trans ?_
  simp only [nativeBytes, List.append_assoc, List.append_nil]

theorem native_validateBasic (hb : NativeBodyRules h b) : b.validateBasic = .ok () := by
  simp [NativeTransferV1.validateBasic, hb.actionNonce, nativeTarget_printable hb]

theorem native_actionCoreBytes (hb : NativeBodyRules h b) :
    b.actionCoreBytes = .ok (nativeCoreBytes b) := by
  simp only [NativeTransferV1.actionCoreBytes, native_validateBasic hb,
    putString_printable (nativeTarget_printable hb), bind, Except.bind, pure, Except.pure,
    nativeCoreBytes]

theorem native_canonicalBytes (hb : NativeBodyRules h b) :
    b.canonicalBytes = .ok (nativeBytes b) := by
  simp only [NativeTransferV1.canonicalBytes, native_validateBasic hb,
    putString_printable (nativeTarget_printable hb), bind, Except.bind, pure, Except.pure,
    nativeBytes]

/-- The contract's body checks ask for the shared rules and for both accounts to be set. -/
theorem native_ok (hkind : h.actionKind.toNat = 1) :
    (b.validateBasic = .ok () ∧ b.validateSemantics h.approvedAllocationBps = .ok ()) ↔
      NativeBodyRules h b ∧ AccountsSet b := by
  constructor
  · rintro ⟨hbasic, hsem⟩
    have hnonce : isZero32 b.actionNonce = false := by
      simp only [NativeTransferV1.validateBasic] at hbasic
      split at hbasic <;> simp_all
    simp only [NativeTransferV1.validateSemantics] at hsem
    split at hsem
    · cases hsem
    · rename_i hfields
      simp only [not_or, ne_eq, not_not, Bool.not_eq_true, Unsigned.isZero, beq_eq_false_iff_ne]
        at hfields
      obtain ⟨h1, h2, h3, h4, h5, h6, h7, h8⟩ := hfields
      unfold Unsigned.checkedMul at hsem
      split at hsem
      · cases hsem
      · rename_i product hproduct
        split at hproduct
        · rename_i hfits
          cases hproduct
          split at hsem
          · cases hsem
          · rename_i hamount
            have hamount := congrArg Unsigned.toNat (not_not.mp hamount)
            exact ⟨⟨hkind, by simp [h1], h4, hnonce, h6, hfits, h5, hamount, h7, by simp [h8]⟩,
              h2, h3⟩
        · cases hproduct
  · rintro ⟨hb, hsource, hrecipient⟩
    refine ⟨native_validateBasic hb, ?_⟩
    have hasset : b.assetKind = 0 := UInt8.toNat_inj.mp hb.assetKind
    have hversion : b.executionVersion = 1 := UInt32.toNat_inj.mp hb.executionVersion
    have hamount : b.amountMotes = Unsigned.div
        ⟨_, hb.fits⟩ (U512.fromU32 10000) := Unsigned.ext hb.amount
    simp only [NativeTransferV1.validateSemantics, hasset, hversion, hsource, hrecipient,
      hb.distinct, hb.executionTarget, Unsigned.isZero]
    have hmul : b.treasurySnapshotBalanceMotes.checkedMul (U512.fromU32 h.approvedAllocationBps) =
        some ⟨_, hb.fits⟩ := by
      unfold Unsigned.checkedMul
      exact dif_pos hb.fits
    simp [hmul, ← hamount, hb.balance, hb.amountPositive]

end Checks

section Material
variable (blake2b256 : List UInt8 → Bytes32)

/-- What the contract derives from an envelope that it accepts. -/
structure NativeMaterial where
  actionId : Bytes32
  transferId : UInt64
  envelopeHash : Bytes32
  header : List UInt8
  body : List UInt8
  core : List UInt8

/-- The checks `finalize_native_transfer` runs on an envelope, before and after the committed
hash, and the encodings and identifiers they are about. -/
def contractNativeMaterial (h : CommonHeader) (b : NativeTransferV1) :
    Except Error NativeMaterial := do
  let envelopeHash ← nativeEnvelopeHash blake2b256 h b
  orRevert h.validateSemantics
  orRevert (b.validateSemantics h.approvedAllocationBps)
  let header ← orRevert h.canonicalBytes
  let body ← orRevert b.canonicalBytes
  let core ← orRevert b.actionCoreBytes
  return {
    actionId := h.actionId
    transferId := b.transferId
    envelopeHash := envelopeHash
    header := header
    body := body
    core := core }

/-- The verifier reports the same material as text. -/
def NativeMaterial.render (m : NativeMaterial) : NativeEnvelopeMaterialV3 where
  actionId := toHex m.actionId.toList
  transferId := decimal m.transferId.toNat
  envelopeHash := toHex m.envelopeHash.toList
  headerHex := toHex m.header
  bodyHex := toHex m.body
  actionCoreHex := toHex m.core

def transferDigest (h : CommonHeader) : Bytes32 :=
  blake2b256 (transferIdSeparator ++ prefixed h.proposalId ++ h.proposalNonce.toList ++
    h.actionId.toList)

/-- What both sides ask of a native envelope. -/
structure NativeRules (h : CommonHeader) (b : NativeTransferV1) : Prop where
  header : HeaderRules h
  body : NativeBodyRules h b
  actionId : deriveActionId blake2b256 h.actionKind b.actionNonce (nativeCoreBytes b) = h.actionId
  transferId : b.transferId.toNat = beValue ((transferDigest blake2b256 h).toList.take 8)

def nativeMaterial (h : CommonHeader) (b : NativeTransferV1) : NativeMaterial where
  actionId := h.actionId
  transferId := b.transferId
  envelopeHash := blake2b256 (envelopeSeparator ++ headerBytes h ++ nativeBytes b)
  header := headerBytes h
  body := nativeBytes b
  core := nativeCoreBytes b

variable {blake2b256} {r : HeaderRecord} {h : CommonHeader} {q : NativeRecord}
  {b : NativeTransferV1}

theorem domains_eq : domainActionId = actionIdSeparator ∧ domainTransferId = transferIdSeparator ∧
    domainEnvelope = envelopeSeparator := by
  decide

theorem actionId_encode {kind : UInt8} {nonce : Bytes32} {value : Value} {core : List UInt8}
    (hv : DenotesBytes value nonce) (hnonce : isZero32 nonce = false) :
    actionId blake2b256 kind.toNat value core =
      .ok (toHex (deriveActionId blake2b256 kind nonce core).toList) := by
  have hkind : fixedUnsigned (.number (kind.toNat : ℚ)) 8 = .ok [kind] := by
    rw [← beBytes_one]
    have := kind.toNat_lt
    exact (DenotesNat.number (by omega)).fixed this
  simp [actionId, hv.isZero, hnonce, hkind, hv.hex, throwIf, deriveActionId, domains_eq.1, pure,
    Except.pure]

theorem transferId_encode {value : Value} (hv : DenotesBytes value h.proposalNonce)
    (hrules : HeaderRules h) :
    transferId blake2b256 (js h.proposalId) value (.string (toHex h.actionId.toList)) =
      .ok (decimal (beValue ((transferDigest blake2b256 h).toList.take 8))) := by
  have haction : DenotesBytes (.string (toHex h.actionId.toList)) h.actionId := rfl
  simp [transferId, lengthPrefixedString_printable (validProposalId_printable hrules.proposalId)
    (by decide), hv.hex, haction.hex, transferDigest, prefixed, domains_eq.2.1, pure, Except.pure]

private theorem deriveTransferId_ok (hrules : HeaderRules h) {t : UInt64} :
    deriveTransferId blake2b256 h.proposalId h.proposalNonce h.actionId = .ok t ↔
      t.toNat = beValue ((transferDigest blake2b256 h).toList.take 8) := by
  have hlt : beValue ((transferDigest blake2b256 h).toList.take 8) < 2 ^ 64 := by
    have := beValue_lt ((transferDigest blake2b256 h).toList.take 8)
    simpa using this
  have hderive : deriveTransferId blake2b256 h.proposalId h.proposalNonce h.actionId =
      .ok (UInt64.ofNat (beValue ((transferDigest blake2b256 h).toList.take 8))) := by
    simp [deriveTransferId, hrules.proposalId,
      putString_printable (validProposalId_printable hrules.proposalId), transferDigest, bind,
      Except.bind, pure, Except.pure]
  rw [hderive, Except.ok.injEq, ← UInt64.toNat_inj, UInt64.toNat_ofNat', Nat.mod_eq_of_lt hlt,
    eq_comm]

/-- The verifier accepts exactly the shared rules. -/
theorem verifyNative_ok (hr : r.Denotes h) (hq : q.Denotes b) {m : NativeEnvelopeMaterialV3} :
    verifyNativeEnvelopeMaterialV3 blake2b256 r q = .ok m ↔
      NativeRules blake2b256 h b ∧ m = (nativeMaterial blake2b256 h b).render := by
  have hk := hr.actionKind.parse h.actionKind.toNat_lt
  have htransfer := hq.transferId.parse b.transferId.toNat_lt
  by_cases hh : HeaderRules h
  swap
  · have hbad : validateHeader r ≠ .ok () := mt (validateHeader_ok hr).mp hh
    simp only [verifyNativeEnvelopeMaterialV3, except_bind_ok]
    constructor
    · rintro ⟨_, hv, _⟩
      exact absurd hv hbad
    · rintro ⟨hrules, _⟩
      exact absurd hrules.header hh
  by_cases hb : NativeBodyRules h b
  swap
  · have hbad : validateNativeBody r q ≠ .ok () := mt (validateNativeBody_ok hr hq).mp hb
    simp only [verifyNativeEnvelopeMaterialV3, except_bind_ok]
    constructor
    · rintro ⟨_, _, _, hv, _⟩
      exact absurd hv hbad
    · rintro ⟨hrules, _⟩
      exact absurd hrules.body hb
  simp only [verifyNativeEnvelopeMaterialV3, (validateHeader_ok hr).mpr hh,
    (validateNativeBody_ok hr hq).mpr hb, hk, nativeCore_encode hq hb,
    actionId_encode hq.actionNonce hb.actionNonce, hr.actionId.hex, ok_bind, throwIf_bind_ok,
    hr.proposalId.asString, htransfer, encodeRecord_header hr hh, native_encode hq hb, not_not,
    toHex_injective.eq_iff, Vector.toList_inj, domains_eq.2.2]
  constructor
  · rintro ⟨hid, hrest⟩
    rw [hid] at hrest
    simp only [transferId_encode hr.proposalNonce hh, ok_bind, throwIf_bind_ok, not_not,
      digitsValue_decimal, pure, Except.pure, Except.ok.injEq] at hrest
    obtain ⟨ht, rfl⟩ := hrest
    refine ⟨⟨hh, hb, hid, ht⟩, ?_⟩
    simp [NativeMaterial.render, nativeMaterial, ht]
  · rintro ⟨hrules, rfl⟩
    refine ⟨hrules.actionId, ?_⟩
    rw [hrules.actionId]
    simp only [transferId_encode hr.proposalNonce hh, ok_bind, throwIf_bind_ok, not_not,
      digitsValue_decimal, pure, Except.pure, Except.ok.injEq]
    refine ⟨hrules.transferId, ?_⟩
    simp [NativeMaterial.render, nativeMaterial, hrules.transferId]

theorem deriveEnvelopeHash_rules (hrules : HeaderRules h) (body : List UInt8) :
    deriveEnvelopeHash blake2b256 h body =
      .ok (blake2b256 (envelopeSeparator ++ headerBytes h ++ body)) := by
  simp [deriveEnvelopeHash, canonicalBytes_header hrules, bind, Except.bind, pure, Except.pure]

/-- The contract accepts the shared rules with both accounts set. -/
theorem contractNative_ok {m : NativeMaterial} :
    contractNativeMaterial blake2b256 h b = .ok m ↔
      NativeRules blake2b256 h b ∧ AccountsSet b ∧ m = nativeMaterial blake2b256 h b := by
  simp only [contractNativeMaterial, nativeEnvelopeHash, except_bind_ok, exists_unit, orRevert_ok,
    validateHeaderBasic_ok, require_ok, pure, Except.pure, Except.ok.injEq]
  constructor
  · rintro ⟨e, ⟨⟨hbasic, hkind, -⟩, hbody, core, hcore, hid, t, ht, hsupplied, bytes, hbytes, he⟩,
      hsem, hbsem, x, hx, y, hy, z, hz, rfl⟩
    have hh := header_ok.mp ⟨hbasic, hsem⟩
    have hk : h.actionKind.toNat = 1 := by rw [hkind]; rfl
    obtain ⟨hb, hset⟩ := (native_ok hk).mp ⟨hbody, hbsem⟩
    rw [native_actionCoreBytes hb, Except.ok.injEq] at hcore hz
    rw [native_canonicalBytes hb, Except.ok.injEq] at hbytes hy
    rw [canonicalBytes_header hh, Except.ok.injEq] at hx
    rw [deriveEnvelopeHash_rules hh, Except.ok.injEq] at he
    subst hcore hz hbytes hy hx he hsupplied
    exact ⟨⟨hh, hb, hid, (deriveTransferId_ok hh).mp ht⟩, hset, rfl⟩
  · rintro ⟨⟨hh, hb, hid, ht⟩, hset, rfl⟩
    obtain ⟨hbasic, hsem⟩ := header_ok.mpr hh
    obtain ⟨hbody, hbsem⟩ := (native_ok hb.actionKind).mpr ⟨hb, hset⟩
    have hkind : h.actionKind = nativeTransferKind := UInt8.toNat_inj.mp hb.actionKind
    have hversion : h.actionVersion = Contract.actionVersion := UInt32.toNat_inj.mp hh.actionVersion
    exact ⟨_, ⟨⟨hbasic, hkind, hversion⟩, hbody, _, native_actionCoreBytes hb, hid, _,
      (deriveTransferId_ok hh).mpr ht, rfl, _, native_canonicalBytes hb,
      deriveEnvelopeHash_rules hh _⟩, hsem, hbsem, _, canonicalBytes_header hh, _,
      native_canonicalBytes hb, _, native_actionCoreBytes hb, rfl⟩

end Material
end Concordia.Verify
