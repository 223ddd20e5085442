import Concordia.Verify.NativeAgreement

/-! Official x402 settlements: the same comparison, without a transfer id. -/
namespace Concordia.Verify
open Concordia.Js Concordia.Contract Concordia.Contract.GovernanceReceiptV3 Concordia.Lib.Encoding

def x402PrefixBytes (b : OfficialX402SettlementV1) : List UInt8 :=
  putU32 b.x402Version ++ prefixed b.scheme ++ prefixed b.caip2Network ++
    b.wcsprPackage.toList ++ b.wcsprContract.toList ++ prefixed b.tokenName ++
    prefixed b.tokenSymbol ++ prefixed b.eip712DomainVersion ++ [b.tokenDecimals] ++
    b.payer.toList ++ b.payee.toList ++ OfficialX402SettlementV1.encodeValue b.value ++
    b.resourceUrlHash.toList ++ b.reportHash.toList ++ b.paymentRequirementsHash.toList ++
    b.signedPaymentPayloadHash.toList ++ b.eip712AuthNonce.toList ++ putU64 b.validAfter ++
    putU64 b.validBefore

def x402CoreBytes (b : OfficialX402SettlementV1) : List UInt8 :=
  x402PrefixBytes b ++ prefixed b.settlementTarget ++ putU32 b.settlementVersion

def x402Bytes (b : OfficialX402SettlementV1) : List UInt8 :=
  x402PrefixBytes b ++ b.actionNonce.toList ++ prefixed b.settlementTarget ++
    putU32 b.settlementVersion

/-- What both sides ask of an x402 body under its header. -/
structure X402BodyRules (h : CommonHeader) (b : OfficialX402SettlementV1) : Prop where
  actionKind : h.actionKind.toNat = 2
  window : b.validAfter.toNat < b.validBefore.toNat
  x402Version : b.x402Version.toNat = 2
  scheme : b.scheme = "exact"
  caip2Network : b.caip2Network = "casper:casper-test"
  wcsprPackage : b.wcsprPackage = Contract.wcsprPackage
  wcsprContract : b.wcsprContract = Contract.wcsprContract
  tokenName : b.tokenName = "Wrapped CSPR"
  tokenSymbol : b.tokenSymbol = "WCSPR"
  eip712DomainVersion : b.eip712DomainVersion = "1"
  tokenDecimals : b.tokenDecimals.toNat = 9
  settlementTarget : b.settlementTarget = "cspr-cloud-facilitator"
  settlementVersion : b.settlementVersion.toNat = 1
  value : b.value.toNat ≠ 0
  resourceUrlHash : isZero32 b.resourceUrlHash = false
  reportHash : isZero32 b.reportHash = false
  paymentRequirementsHash : isZero32 b.paymentRequirementsHash = false
  signedPaymentPayloadHash : isZero32 b.signedPaymentPayloadHash = false
  eip712AuthNonce : isZero32 b.eip712AuthNonce = false
  actionNonce : isZero32 b.actionNonce = false
  distinct : b.payer ≠ b.payee

/-- Payer and payee are set. -/
def PartiesSet (b : OfficialX402SettlementV1) : Prop :=
  isZero32 b.payer = false ∧ isZero32 b.payee = false

instance (b : OfficialX402SettlementV1) : Decidable (PartiesSet b) :=
  inferInstanceAs (Decidable (_ ∧ _))

section Checks
variable {r : HeaderRecord} {h : CommonHeader} {q : X402Record} {b : OfficialX402SettlementV1}

theorem DenotesBytes.differs {value : Value} {bytes : Bytes32} (hv : DenotesBytes value bytes)
    (literal : String) (bytes' : Bytes32) (hl : js literal = toHex bytes'.toList) :
    differsLiteral value literal = .ok false ↔ bytes = bytes' := by
  simp [differsLiteral, pure, Except.pure, hv.isLiteral literal hl]

theorem DenotesNat.zero {value : Value} {n bits : Nat} (hv : DenotesNat value n)
    (hn : n < 2 ^ bits) :
    ((return (← parseUnsigned value bits) == 0 : Encoded Bool) = .ok false) ↔ n ≠ 0 := by
  simp [hv.parse hn, pure, Except.pure]

theorem DenotesBytes.nonzero {value : Value} {bytes : Bytes32} (hv : DenotesBytes value bytes) :
    isZeroBytes32 value = .ok false ↔ isZero32 bytes = false := by
  rw [hv.isZero, Except.ok.injEq]

theorem validateX402Body_ok (hr : r.Denotes h) (hq : q.Denotes b) :
    validateX402Body q r = .ok () ↔ X402BodyRules h b := by
  have hk := hr.actionKind.parse h.actionKind.toNat_lt
  have hafter := hq.validAfter.parse b.validAfter.toNat_lt
  have hbefore := hq.validBefore.parse b.validBefore.toNat_lt
  simp only [validateX402Body, hk, hafter, hbefore, ok_bind, throwIf_bind_ok,
    anyOf_throwIf_bind_ok, throwIf_ok, List.forall_mem_cons,
    hq.x402Version.differs b.x402Version.toNat_lt 2, hq.scheme.differs "exact" (by decide),
    hq.caip2Network.differs "casper:casper-test" (by decide),
    hq.wcsprPackage.differs "3d80df21ba4ee4d66a2a1f60c32570dd5685e4b279f6538162a5fd1314847c1e"
      Contract.wcsprPackage (by decide),
    hq.wcsprContract.differs "032706aeae170fafb6403ce3bec58062f1c4288710838fe1df98ce4ff6c35f4a"
      Contract.wcsprContract (by decide),
    hq.tokenName.differs "Wrapped CSPR" (by decide), hq.tokenSymbol.differs "WCSPR" (by decide),
    hq.eip712DomainVersion.differs "1" (by decide),
    hq.tokenDecimals.differs b.tokenDecimals.toNat_lt 9,
    hq.settlementTarget.differs "cspr-cloud-facilitator" (by decide),
    hq.settlementVersion.differs b.settlementVersion.toNat_lt 1, hq.value.zero b.value.isLt,
    hq.resourceUrlHash.nonzero, hq.reportHash.nonzero, hq.paymentRequirementsHash.nonzero,
    hq.signedPaymentPayloadHash.nonzero, hq.eip712AuthNonce.nonzero, hq.actionNonce.nonzero,
    hq.payer.strictEq hq.payee, not_not, not_le]
  constructor
  · rintro ⟨h1, h2, ⟨h3, h4, h5, h6, h7, h8, h9, h10, h11, h12, h13, h14, h15, h16, h17, h18, h19,
      h20, -⟩, h21⟩
    exact ⟨h1, h2, h3, h4, h5, h6, h7, h8, h9, h10, h11, h12, h13, h14, h15, h16, h17, h18, h19,
      h20, h21⟩
  · rintro ⟨h1, h2, h3, h4, h5, h6, h7, h8, h9, h10, h11, h12, h13, h14, h15, h16, h17, h18, h19,
      h20, h21⟩
    exact ⟨h1, h2, ⟨h3, h4, h5, h6, h7, h8, h9, h10, h11, h12, h13, h14, h15, h16, h17, h18, h19,
      h20, by simp⟩, h21⟩

theorem x402_printable (hb : X402BodyRules h b) :
    validatePrintable b.scheme 1 16 = true ∧ validatePrintable b.caip2Network 1 32 = true ∧
      validatePrintable b.tokenName 1 32 = true ∧ validatePrintable b.tokenSymbol 1 16 = true ∧
      validatePrintable b.eip712DomainVersion 1 16 = true ∧
      validatePrintable b.settlementTarget 1 64 = true := by
  rw [hb.scheme, hb.caip2Network, hb.tokenName, hb.tokenSymbol, hb.eip712DomainVersion,
    hb.settlementTarget]
  decide +kernel

theorem x402Core_encode (hq : q.Denotes b) (hb : X402BodyRules h b) :
    encodeRecord q.core = .ok (x402CoreBytes b) := by
  obtain ⟨hscheme, hnetwork, hname, hsymbol, hversion, htarget⟩ := x402_printable hb
  refine (encodeRecord_cons hq.x402Version.encode32 <|
    encodeRecord_cons (hq.scheme.encode hscheme (by decide)) <|
    encodeRecord_cons (hq.caip2Network.encode hnetwork (by decide)) <|
    encodeRecord_cons hq.wcsprPackage.encode <|
    encodeRecord_cons hq.wcsprContract.encode <|
    encodeRecord_cons (hq.tokenName.encode hname (by decide)) <|
    encodeRecord_cons (hq.tokenSymbol.encode hsymbol (by decide)) <|
    encodeRecord_cons (hq.eip712DomainVersion.encode hversion (by decide)) <|
    encodeRecord_cons hq.tokenDecimals.encode8 <|
    encodeRecord_cons hq.payer.encodeAccount <|
    encodeRecord_cons hq.payee.encodeAccount <|
    encodeRecord_cons hq.value.encode256 <|
    encodeRecord_cons hq.resourceUrlHash.encode <|
    encodeRecord_cons hq.reportHash.encode <|
    encodeRecord_cons hq.paymentRequirementsHash.encode <|
    encodeRecord_cons hq.signedPaymentPayloadHash.encode <|
    encodeRecord_cons hq.eip712AuthNonce.encode <|
    encodeRecord_cons hq.validAfter.encode64 <|
    encodeRecord_cons hq.validBefore.encode64 <|
    encodeRecord_cons (hq.settlementTarget.encode htarget (by decide)) <|
    encodeRecord_cons hq.settlementVersion.encode32 rfl).trans ?_
  simp only [x402CoreBytes, x402PrefixBytes, List.append_assoc, List.append_nil]

theorem x402_encode (hq : q.Denotes b) (hb : X402BodyRules h b) :
    encodeRecord q.fields = .ok (x402Bytes b) := by
  obtain ⟨hscheme, hnetwork, hname, hsymbol, hversion, htarget⟩ := x402_printable hb
  refine (encodeRecord_cons hq.x402Version.encode32 <|
    encodeRecord_cons (hq.scheme.encode hscheme (by decide)) <|
    encodeRecord_cons (hq.caip2Network.encode hnetwork (by decide)) <|
    encodeRecord_cons hq.wcsprPackage.encode <|
    encodeRecord_cons hq.wcsprContract.encode <|
    encodeRecord_cons (hq.tokenName.encode hname (by decide)) <|
    encodeRecord_cons (hq.tokenSymbol.encode hsymbol (by decide)) <|
    encodeRecord_cons (hq.eip712DomainVersion.encode hversion (by decide)) <|
    encodeRecord_cons hq.tokenDecimals.encode8 <|
    encodeRecord_cons hq.payer.encodeAccount <|
    encodeRecord_cons hq.payee.encodeAccount <|
    encodeRecord_cons hq.value.encode256 <|
    encodeRecord_cons hq.resourceUrlHash.encode <|
    encodeRecord_cons hq.reportHash.encode <|
    encodeRecord_cons hq.paymentRequirementsHash.encode <|
    encodeRecord_cons hq.signedPaymentPayloadHash.encode <|
    encodeRecord_cons hq.eip712AuthNonce.encode <|
    encodeRecord_cons hq.validAfter.encode64 <|
    encodeRecord_cons hq.validBefore.encode64 <|
    encodeRecord_cons hq.actionNonce.encode <|
    encodeRecord_cons (hq.settlementTarget.encode htarget (by decide)) <|
    encodeRecord_cons hq.settlementVersion.encode32 rfl).trans ?_
  simp only [x402Bytes, x402PrefixBytes, List.append_assoc, List.append_nil]

theorem x402_validateBasic (hb : X402BodyRules h b) : b.validateBasic = .ok () := by
  obtain ⟨hscheme, hnetwork, hname, hsymbol, hversion, htarget⟩ := x402_printable hb
  simp [OfficialX402SettlementV1.validateBasic, hscheme, hnetwork, hname, hsymbol, hversion,
    htarget, hb.actionNonce]

theorem x402_putPrefix (hb : X402BodyRules h b) : b.putPrefix = .ok (x402PrefixBytes b) := by
  obtain ⟨hscheme, hnetwork, hname, hsymbol, hversion, htarget⟩ := x402_printable hb
  simp only [OfficialX402SettlementV1.putPrefix, putString_printable hscheme,
    putString_printable hnetwork, putString_printable hname, putString_printable hsymbol,
    putString_printable hversion, bind, Except.bind, pure, Except.pure, x402PrefixBytes]

theorem x402_actionCoreBytes (hb : X402BodyRules h b) :
    b.actionCoreBytes = .ok (x402CoreBytes b) := by
  obtain ⟨-, -, -, -, -, htarget⟩ := x402_printable hb
  simp only [OfficialX402SettlementV1.actionCoreBytes, OfficialX402SettlementV1.putCore,
    x402_validateBasic hb, x402_putPrefix hb, putString_printable htarget, bind, Except.bind, pure,
    Except.pure, x402CoreBytes]

theorem x402_canonicalBytes (hb : X402BodyRules h b) :
    b.canonicalBytes = .ok (x402Bytes b) := by
  obtain ⟨-, -, -, -, -, htarget⟩ := x402_printable hb
  simp only [OfficialX402SettlementV1.canonicalBytes, x402_validateBasic hb, x402_putPrefix hb,
    putString_printable htarget, bind, Except.bind, pure, Except.pure, x402Bytes]

/-- The contract's body checks ask for the shared rules and for both parties to be set. -/
theorem x402_ok (hkind : h.actionKind.toNat = 2) :
    (b.validateBasic = .ok () ∧ b.validateSemantics = .ok ()) ↔
      X402BodyRules h b ∧ PartiesSet b := by
  constructor
  · rintro ⟨hbasic, hsem⟩
    have hnonce : isZero32 b.actionNonce = false := by
      simp only [OfficialX402SettlementV1.validateBasic] at hbasic
      split at hbasic
      · split at hbasic <;> simp_all
      · cases hbasic
    simp only [OfficialX402SettlementV1.validateSemantics] at hsem
    split at hsem
    · cases hsem
    · rename_i hfields
      simp only [not_or, ne_eq, not_not, Bool.not_eq_true, Unsigned.isZero, beq_eq_false_iff_ne,
        UInt64.le_iff_toNat_le, not_le] at hfields
      obtain ⟨h1, h2, h3, h4, h5, h6, h7, h8, h9, h10, h11, h12, h13, h14, h15, h16, h17, h18, h19,
        h20, h21⟩ := hfields
      exact ⟨⟨hkind, h19, by simp [h1], h2, h3, h4, h5, h6, h7, h8, by simp [h9], h20,
        by simp [h21], h13, h14, h15, h16, h17, h18, hnonce, h12⟩, h10, h11⟩
  · rintro ⟨hb, hpayer, hpayee⟩
    refine ⟨x402_validateBasic hb, ?_⟩
    have hx402 : b.x402Version = 2 := UInt32.toNat_inj.mp hb.x402Version
    have hdecimals : b.tokenDecimals = 9 := UInt8.toNat_inj.mp hb.tokenDecimals
    have hversion : b.settlementVersion = 1 := UInt32.toNat_inj.mp hb.settlementVersion
    have hwindow : ¬ b.validBefore ≤ b.validAfter := by
      rw [UInt64.le_iff_toNat_le]
      exact not_le.mpr hb.window
    simp [OfficialX402SettlementV1.validateSemantics, hx402, hb.scheme, hb.caip2Network,
      hb.wcsprPackage, hb.wcsprContract, hb.tokenName, hb.tokenSymbol, hb.eip712DomainVersion,
      hdecimals, hpayer, hpayee, hb.distinct, Unsigned.isZero, hb.value, hb.resourceUrlHash,
      hb.reportHash, hb.paymentRequirementsHash, hb.signedPaymentPayloadHash, hb.eip712AuthNonce,
      hwindow, hb.settlementTarget, hversion]

end Checks

section Material
variable (blake2b256 : List UInt8 → Bytes32)

/-- The checks `finalize_official_x402` runs on an envelope, and the encodings and identifiers
they are about. -/
def contractX402Material (h : CommonHeader) (b : OfficialX402SettlementV1) :
    Except Error X402Material := do
  let envelopeHash ← officialX402EnvelopeHash blake2b256 h b
  orRevert h.validateSemantics
  orRevert b.validateSemantics
  let header ← orRevert h.canonicalBytes
  let body ← orRevert b.canonicalBytes
  let core ← orRevert b.actionCoreBytes
  return {
    canonical := body
    header := header
    core := core
    actionId := toHex h.actionId.toList
    envelopeHash := toHex envelopeHash.toList
    envelopePreimage := envelopeSeparator ++ header ++ body }

/-- What both sides ask of an x402 envelope. -/
structure X402Rules (h : CommonHeader) (b : OfficialX402SettlementV1) : Prop where
  header : HeaderRules h
  body : X402BodyRules h b
  actionId : deriveActionId blake2b256 h.actionKind b.actionNonce (x402CoreBytes b) = h.actionId

def x402Material (h : CommonHeader) (b : OfficialX402SettlementV1) : X402Material where
  canonical := x402Bytes b
  header := headerBytes h
  core := x402CoreBytes b
  actionId := toHex h.actionId.toList
  envelopeHash := toHex (blake2b256 (envelopeSeparator ++ headerBytes h ++ x402Bytes b)).toList
  envelopePreimage := envelopeSeparator ++ headerBytes h ++ x402Bytes b

variable {blake2b256} {r : HeaderRecord} {h : CommonHeader} {q : X402Record}
  {b : OfficialX402SettlementV1}

/-- The verifier accepts exactly the shared rules. -/
theorem verifyX402_ok (hr : r.Denotes h) (hq : q.Denotes b) {m : X402Material} :
    x402MaterialFromInput blake2b256 r q = .ok m ↔
      X402Rules blake2b256 h b ∧ m = x402Material blake2b256 h b := by
  by_cases hh : HeaderRules h
  swap
  · have hbad : validateHeader r ≠ .ok () := mt (validateHeader_ok hr).mp hh
    simp only [x402MaterialFromInput, except_bind_ok]
    constructor
    · rintro ⟨_, hv, _⟩
      exact absurd hv hbad
    · rintro ⟨hrules, _⟩
      exact absurd hrules.header hh
  by_cases hb : X402BodyRules h b
  swap
  · have hbad : validateX402Body q r ≠ .ok () := mt (validateX402Body_ok hr hq).mp hb
    simp only [x402MaterialFromInput, except_bind_ok]
    constructor
    · rintro ⟨_, _, _, hv, _⟩
      exact absurd hv hbad
    · rintro ⟨hrules, _⟩
      exact absurd hrules.body hb
  have hid := hr.actionId
  have haction : actionId blake2b256 2 q.actionNonce (x402CoreBytes b) =
      .ok (toHex (deriveActionId blake2b256 h.actionKind b.actionNonce (x402CoreBytes b)).toList) := by
    rw [← hb.actionKind]
    exact actionId_encode hq.actionNonce hb.actionNonce
  unfold DenotesBytes at hid
  simp only [x402MaterialFromInput, (validateHeader_ok hr).mpr hh,
    (validateX402Body_ok hr hq).mpr hb, x402Core_encode hq hb, haction, hid, ok_bind,
    throwIf_bind_ok, strictEq_string, encodeRecord_header hr hh, x402_encode hq hb, not_not,
    toHex_injective.eq_iff, Vector.toList_inj, domains_eq.2.2, pure, Except.pure, Except.ok.injEq]
  constructor
  · rintro ⟨hsame, rfl⟩
    exact ⟨⟨hh, hb, hsame.symm⟩, by simp [x402Material, hsame]⟩
  · rintro ⟨hrules, rfl⟩
    exact ⟨hrules.actionId.symm, by simp [x402Material, hrules.actionId]⟩

/-- The contract accepts the shared rules with both parties set. -/
theorem contractX402_ok {m : X402Material} :
    contractX402Material blake2b256 h b = .ok m ↔
      X402Rules blake2b256 h b ∧ PartiesSet b ∧ m = x402Material blake2b256 h b := by
  simp only [contractX402Material, officialX402EnvelopeHash, except_bind_ok, exists_unit,
    orRevert_ok, validateHeaderBasic_ok, require_ok, pure, Except.pure, Except.ok.injEq]
  constructor
  · rintro ⟨e, ⟨⟨hbasic, hkind, -⟩, hbody, core, hcore, hid, bytes, hbytes, he⟩, hsem, hbsem, x,
      hx, y, hy, z, hz, rfl⟩
    have hh := header_ok.mp ⟨hbasic, hsem⟩
    have hk : h.actionKind.toNat = 2 := by rw [hkind]; rfl
    obtain ⟨hb, hset⟩ := (x402_ok hk).mp ⟨hbody, hbsem⟩
    rw [x402_actionCoreBytes hb, Except.ok.injEq] at hcore hz
    rw [x402_canonicalBytes hb, Except.ok.injEq] at hbytes hy
    rw [canonicalBytes_header hh, Except.ok.injEq] at hx
    rw [deriveEnvelopeHash_rules hh, Except.ok.injEq] at he
    subst hcore hz hbytes hy hx he
    exact ⟨⟨hh, hb, hid⟩, hset, rfl⟩
  · rintro ⟨⟨hh, hb, hid⟩, hset, rfl⟩
    obtain ⟨hbasic, hsem⟩ := header_ok.mpr hh
    obtain ⟨hbody, hbsem⟩ := (x402_ok hb.actionKind).mpr ⟨hb, hset⟩
    have hkind : h.actionKind = officialX402Kind := UInt8.toNat_inj.mp hb.actionKind
    have hversion : h.actionVersion = Contract.actionVersion := UInt32.toNat_inj.mp hh.actionVersion
    exact ⟨_, ⟨⟨hbasic, hkind, hversion⟩, hbody, _, x402_actionCoreBytes hb, hid, _,
      x402_canonicalBytes hb, deriveEnvelopeHash_rules hh _⟩, hsem, hbsem, _,
      canonicalBytes_header hh, _, x402_canonicalBytes hb, _, x402_actionCoreBytes hb, rfl⟩

end Material
end Concordia.Verify
