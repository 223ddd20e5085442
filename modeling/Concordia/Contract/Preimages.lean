import Concordia.Contract.Binding

/-! What the four derivations feed to blake2b-256: the byte strings are separated by domain
and determine every input of the derivation that wrote them. -/
namespace Concordia.Contract
open Concordia.Lib.Encoding

inductive ActionBody where
  | nativeTransfer (body : NativeTransferV1)
  | officialX402 (body : OfficialX402SettlementV1)
  deriving DecidableEq

namespace ActionBody

def kind : ActionBody → UInt8
  | nativeTransfer _ => nativeTransferKind
  | officialX402 _ => officialX402Kind

def actionNonce : ActionBody → Bytes32
  | nativeTransfer body => body.actionNonce
  | officialX402 body => body.actionNonce

def actionCoreBytes : ActionBody → Except ValidationError (List UInt8)
  | nativeTransfer body => body.actionCoreBytes
  | officialX402 body => body.actionCoreBytes

def canonicalBytes : ActionBody → Except ValidationError (List UInt8)
  | nativeTransfer body => body.canonicalBytes
  | officialX402 body => body.canonicalBytes

/-- The fields the action id is derived from. A transfer id comes later, out of the
action id itself, so it is blanked. -/
def actionInputs : ActionBody → ActionBody
  | nativeTransfer body => nativeTransfer { body with transferId := 0 }
  | officialX402 body => officialX402 body

end ActionBody

/-- A derivation with its inputs. The entry points derive the envelope hash only of a header
that names the kind of the body. -/
inductive Derivation where
  | deploymentDomain (casperChainName : String) (installationNonce : Bytes32)
  | actionId (body : ActionBody)
  | transferId (proposalId : String) (proposalNonce actionId : Bytes32)
  | envelopeHash (header : CommonHeader) (body : ActionBody)
      (kind_eq : header.actionKind = body.kind)
  deriving DecidableEq

namespace Derivation

/-- The bytes hashed, or the error that stops the derivation before. -/
def preimage : Derivation → Except ValidationError (List UInt8)
  | deploymentDomain casperChainName installationNonce => do
    if casperChainName ≠ Contract.casperChainName ∨ isZero32 installationNonce then
      throw .invalidEnvelopeField
    let chain ← putString casperChainName 1 32 .invalidEnvelopeField
    let package ← putString packageKeyName 1 64 .invalidEnvelopeField
    return domainSeparator ++ chain ++ package ++ installationNonce.toList
  | actionId body => do
    let core ← body.actionCoreBytes
    return actionIdSeparator ++ [body.kind] ++ body.actionNonce.toList ++ core
  | transferId proposalId proposalNonce action => do
    if ¬ validProposalId proposalId then
      throw .invalidProposalId
    let proposal ← putString proposalId 1 64 .invalidProposalId
    return transferIdSeparator ++ proposal ++ proposalNonce.toList ++ action.toList
  | envelopeHash header body _ => do
    let headerBytes ← header.canonicalBytes
    let bodyBytes ← body.canonicalBytes
    return envelopeSeparator ++ headerBytes ++ bodyBytes

/-- The inputs, up to the transfer id an action id does not read. -/
def inputs : Derivation → Derivation
  | actionId body => actionId body.actionInputs
  | other => other

/-- The letter in which the four separators differ. -/
def letter : Derivation → UInt8
  | deploymentDomain .. => 68
  | actionId .. => 65
  | transferId .. => 84
  | envelopeHash .. => 71

section Digest
variable (blake2b256 : List UInt8 → Bytes32)

theorem deriveDeploymentDomain_eq (casperChainName : String) (installationNonce : Bytes32) :
    deriveDeploymentDomain blake2b256 casperChainName installationNonce =
      (deploymentDomain casperChainName installationNonce).preimage.map blake2b256 := by
  simp only [deriveDeploymentDomain, preimage]
  split
  · rfl
  · cases putString casperChainName 1 32 .invalidEnvelopeField with
    | error => rfl
    | ok chain => cases putString packageKeyName 1 64 .invalidEnvelopeField <;> rfl

theorem deriveActionId_eq (body : ActionBody) :
    (deriveActionId blake2b256 body.kind body.actionNonce) <$> body.actionCoreBytes =
      (actionId body).preimage.map blake2b256 := by
  simp only [preimage]
  cases body.actionCoreBytes <;> rfl

theorem deriveTransferId_eq (proposalId : String) (proposalNonce action : Bytes32) :
    deriveTransferId blake2b256 proposalId proposalNonce action =
      (transferId proposalId proposalNonce action).preimage.map fun x =>
        UInt64.ofNat (beValue ((blake2b256 x).toList.take 8)) := by
  simp only [deriveTransferId, preimage]
  split
  · rfl
  · cases putString proposalId 1 64 .invalidProposalId <;> rfl

theorem deriveEnvelopeHash_eq (header : CommonHeader) (body : ActionBody)
    (kind_eq : header.actionKind = body.kind) {bytes : List UInt8}
    (h : body.canonicalBytes = .ok bytes) :
    deriveEnvelopeHash blake2b256 header bytes =
      (envelopeHash header body kind_eq).preimage.map blake2b256 := by
  simp only [deriveEnvelopeHash, preimage, h]
  cases header.canonicalBytes <;> rfl

end Digest

section Inversion
variable {x y : List UInt8}

theorem deploymentDomain_preimage {chain : String} {nonce : Bytes32}
    (h : (deploymentDomain chain nonce).preimage = .ok x) :
    chain = Contract.casperChainName ∧ ∃ front, x = domainSeparator ++ front ++ nonce.toList ∧
      front = lengthPrefixed 4 (asBytes chain) ++ lengthPrefixed 4 (asBytes packageKeyName) := by
  simp only [preimage] at h
  split at h
  · cases h
  · rename_i guard
    rw [not_or, not_not] at guard
    simp only [except_bind_ok, pure, Except.pure, Except.ok.injEq] at h
    obtain ⟨c, hc, p, hp, rfl⟩ := h
    obtain ⟨-, rfl⟩ := putString_ok (by decide) hc
    obtain ⟨-, rfl⟩ := putString_ok (by decide) hp
    exact ⟨guard.1, _, by simp only [List.append_assoc], rfl⟩

theorem actionId_preimage {body : ActionBody} (h : (actionId body).preimage = .ok x) :
    ∃ core, body.actionCoreBytes = .ok core ∧
      x = actionIdSeparator ++ ([body.kind] ++ (body.actionNonce.toList ++ core)) := by
  simp only [preimage, except_bind_ok, pure, Except.pure, Except.ok.injEq] at h
  obtain ⟨core, hcore, rfl⟩ := h
  exact ⟨core, hcore, by simp only [List.append_assoc]⟩

theorem transferId_preimage {proposal : String} {nonce action : Bytes32}
    (h : (transferId proposal nonce action).preimage = .ok x) :
    (asBytes proposal).length ≤ 64 ∧ x = transferIdSeparator ++
      (lengthPrefixed 4 (asBytes proposal) ++ (nonce.toList ++ action.toList)) := by
  simp only [preimage] at h
  split at h
  · cases h
  · simp only [except_bind_ok, pure, Except.pure, Except.ok.injEq] at h
    obtain ⟨p, hp, rfl⟩ := h
    obtain ⟨hlen, rfl⟩ := putString_ok (by decide) hp
    exact ⟨hlen, by simp only [List.append_assoc]⟩

theorem envelopeHash_preimage {header : CommonHeader} {body : ActionBody}
    {kind_eq : header.actionKind = body.kind}
    (h : (envelopeHash header body kind_eq).preimage = .ok x) :
    ∃ front back, header.canonicalBytes = .ok front ∧ body.canonicalBytes = .ok back ∧
      x = envelopeSeparator ++ (front ++ back) := by
  simp only [preimage, except_bind_ok, pure, Except.pure, Except.ok.injEq] at h
  obtain ⟨front, hfront, back, hback, rfl⟩ := h
  exact ⟨front, back, hfront, hback, by simp only [List.append_assoc]⟩

private theorem separator_letters : domainSeparator[10]? = some 68 ∧
    actionIdSeparator[10]? = some 65 ∧ transferIdSeparator[10]? = some 84 ∧
    envelopeSeparator[10]? = some 71 := by
  decide +kernel

theorem preimage_letter {d : Derivation} (h : d.preimage = .ok x) : x[10]? = some d.letter := by
  have front {s : List UInt8} {c : UInt8} (hs : s[10]? = some c) (r : List UInt8) :
      (s ++ r)[10]? = some c := by
    rw [List.getElem?_append_left (List.getElem?_eq_some_iff.mp hs).1, hs]
  obtain ⟨domain, action, transfer, envelope⟩ := separator_letters
  cases d with
  | deploymentDomain =>
    obtain ⟨-, f, rfl, -⟩ := deploymentDomain_preimage h
    rw [List.append_assoc]
    exact front domain _
  | actionId =>
    obtain ⟨core, -, rfl⟩ := actionId_preimage h
    exact front action _
  | transferId =>
    obtain ⟨-, rfl⟩ := transferId_preimage h
    exact front transfer _
  | envelopeHash =>
    obtain ⟨f, b, -, -, rfl⟩ := envelopeHash_preimage h
    exact front envelope _

end Inversion
end Derivation

/-- Without the transfer id, the core and the nonce hold the whole native body. -/
theorem NativeTransferV1.actionCoreBytes_inj {b c : NativeTransferV1} {x : List UInt8}
    (hnonce : b.actionNonce = c.actionNonce) (hx : b.actionCoreBytes = .ok x)
    (hy : c.actionCoreBytes = .ok x) : { b with transferId := c.transferId } = c := by
  simp only [actionCoreBytes, except_bind_ok, Except.ok.injEq, pure, Except.pure] at hx hy
  obtain ⟨-, -, t₁, ht₁, rfl⟩ := hx
  obtain ⟨-, -, t₂, ht₂, e⟩ := hy
  obtain ⟨lt₁, rfl⟩ := putString_ok (by decide) ht₁
  obtain ⟨lt₂, rfl⟩ := putString_ok (by decide) ht₂
  rw [← List.append_nil (putU32 c.executionVersion),
    ← List.append_nil (putU32 b.executionVersion)] at e
  simp only [List.append_assoc] at e
  obtain ⟨kind, e⟩ := u8_cut e
  obtain ⟨source, e⟩ := bytes32_cut e
  obtain ⟨recipient, e⟩ := bytes32_cut e
  obtain ⟨amount, e⟩ := unsigned_cut rfl e
  obtain ⟨balance, e⟩ := unsigned_cut rfl e
  obtain ⟨block, e⟩ := bytes32_cut e
  obtain ⟨height, e⟩ := u64_cut e
  obtain ⟨target, e⟩ := string_cut lt₂ lt₁ e
  obtain ⟨version, -⟩ := u32_cut e
  cases b; cases c
  simp_all

theorem OfficialX402SettlementV1.actionCoreBytes_inj {b c : OfficialX402SettlementV1}
    {x : List UInt8} (hnonce : b.actionNonce = c.actionNonce) (hx : b.actionCoreBytes = .ok x)
    (hy : c.actionCoreBytes = .ok x) : b = c := by
  simp only [actionCoreBytes, putCore, except_bind_ok, Except.ok.injEq, pure, Except.pure]
    at hx hy
  obtain ⟨-, -, f₁, hf₁, t₁, ht₁, rfl⟩ := hx
  obtain ⟨-, -, f₂, hf₂, t₂, ht₂, e⟩ := hy
  obtain ⟨lt₁, rfl⟩ := putString_ok (by decide) ht₁
  obtain ⟨lt₂, rfl⟩ := putString_ok (by decide) ht₂
  rw [← List.append_nil (putU32 c.settlementVersion),
    ← List.append_nil (putU32 b.settlementVersion)] at e
  simp only [List.append_assoc] at e
  obtain ⟨front, e⟩ := putPrefix_cut hf₂ hf₁ e
  obtain ⟨target, e⟩ := string_cut lt₂ lt₁ e
  obtain ⟨version, -⟩ := u32_cut e
  cases b; cases c
  simp_all

private theorem native_ne_official : nativeTransferKind ≠ officialX402Kind := by
  decide

theorem ActionBody.actionInputs_eq {b c : ActionBody} {x : List UInt8} (hkind : b.kind = c.kind)
    (hnonce : b.actionNonce = c.actionNonce) (hx : b.actionCoreBytes = .ok x)
    (hy : c.actionCoreBytes = .ok x) : b.actionInputs = c.actionInputs := by
  cases b with
  | nativeTransfer b =>
    cases c with
    | nativeTransfer c =>
      have e := NativeTransferV1.actionCoreBytes_inj hnonce hx hy
      rw [actionInputs, actionInputs, ← e]
    | officialX402 c => exact absurd hkind native_ne_official
  | officialX402 b =>
    cases c with
    | nativeTransfer c => exact absurd hkind.symm native_ne_official
    | officialX402 c =>
      rw [OfficialX402SettlementV1.actionCoreBytes_inj hnonce hx hy]

theorem ActionBody.canonicalBytes_inj {b c : ActionBody} {x : List UInt8}
    (hkind : b.kind = c.kind) (hx : b.canonicalBytes = .ok x) (hy : c.canonicalBytes = .ok x) :
    b = c := by
  cases b with
  | nativeTransfer b =>
    cases c with
    | nativeTransfer c => rw [NativeTransferV1.canonicalBytes_inj hx hy]
    | officialX402 c => exact absurd hkind native_ne_official
  | officialX402 b =>
    cases c with
    | nativeTransfer c => exact absurd hkind.symm native_ne_official
    | officialX402 c => rw [OfficialX402SettlementV1.canonicalBytes_inj hx hy]

namespace Derivation
variable {x : List UInt8}

private theorem actionId_inputs {b c : ActionBody} (hx : (actionId b).preimage = .ok x)
    (hy : (actionId c).preimage = .ok x) : b.actionInputs = c.actionInputs := by
  obtain ⟨p, hp, rfl⟩ := actionId_preimage hx
  obtain ⟨q, hq, e⟩ := actionId_preimage hy
  obtain ⟨hkind, e⟩ := u8_cut (List.append_cancel_left e)
  obtain ⟨hnonce, rfl⟩ := bytes32_cut e
  exact ActionBody.actionInputs_eq hkind hnonce hp hq

private theorem transferId_inputs {p q : String} {m n a b : Bytes32}
    (hx : (transferId p m a).preimage = .ok x) (hy : (transferId q n b).preimage = .ok x) :
    p = q ∧ m = n ∧ a = b := by
  obtain ⟨hp, rfl⟩ := transferId_preimage hx
  obtain ⟨hq, e⟩ := transferId_preimage hy
  obtain ⟨hproposal, e⟩ := string_cut hp hq (List.append_cancel_left e)
  obtain ⟨hnonce, e⟩ := bytes32_cut e
  exact ⟨hproposal, hnonce, Vector.toList_inj.mp e⟩

private theorem deploymentDomain_inputs {p q : String} {m n : Bytes32}
    (hx : (deploymentDomain p m).preimage = .ok x)
    (hy : (deploymentDomain q n).preimage = .ok x) : p = q ∧ m = n := by
  obtain ⟨rfl, f, rfl, rfl⟩ := deploymentDomain_preimage hx
  obtain ⟨rfl, g, e, rfl⟩ := deploymentDomain_preimage hy
  exact ⟨rfl, Vector.toList_inj.mp (List.append_cancel_left e)⟩

private theorem envelopeHash_inputs {h k : CommonHeader} {b c : ActionBody}
    {hb : h.actionKind = b.kind} {kc : k.actionKind = c.kind}
    (hx : (envelopeHash h b hb).preimage = .ok x)
    (hy : (envelopeHash k c kc).preimage = .ok x) : h = k ∧ b = c := by
  obtain ⟨p, q, hp, hq, rfl⟩ := envelopeHash_preimage hx
  obtain ⟨r, s, hr, hs, e⟩ := envelopeHash_preimage hy
  obtain ⟨rfl, rfl⟩ := CommonHeader.canonicalBytes_cut hp hr (List.append_cancel_left e)
  exact ⟨rfl, ActionBody.canonicalBytes_inj (hb.symm.trans kc) hq hs⟩

/-- Equal preimages come from the same derivation on equal inputs. -/
theorem preimage_determines {d e : Derivation} (hd : d.preimage = .ok x) (he : e.preimage = .ok x) :
    d.inputs = e.inputs := by
  have same : d.letter = e.letter :=
    Option.some.inj ((preimage_letter hd).symm.trans (preimage_letter he))
  cases d with
  | deploymentDomain p m =>
    cases e with
    | deploymentDomain q n =>
      obtain ⟨rfl, rfl⟩ := deploymentDomain_inputs hd he
      rfl
    | actionId | transferId | envelopeHash => exact absurd same (by simp [letter])
  | actionId b =>
    cases e with
    | actionId c => exact congrArg actionId (actionId_inputs hd he)
    | deploymentDomain | transferId | envelopeHash => exact absurd same (by simp [letter])
  | transferId p m a =>
    cases e with
    | transferId q n b =>
      obtain ⟨rfl, rfl, rfl⟩ := transferId_inputs hd he
      rfl
    | deploymentDomain | actionId | envelopeHash => exact absurd same (by simp [letter])
  | envelopeHash h b hb =>
    cases e with
    | envelopeHash k c kc =>
      obtain ⟨rfl, rfl⟩ := envelopeHash_inputs hd he
      rfl
    | deploymentDomain | actionId | transferId => exact absurd same (by simp [letter])

theorem preimage_determines_golden :
    inputs (actionId (.nativeTransfer GovernanceReceiptV3.goldenBody)) =
      inputs (actionId (.nativeTransfer { GovernanceReceiptV3.goldenBody with transferId := 7 })) := by
  have hd : (actionId (.nativeTransfer GovernanceReceiptV3.goldenBody)).preimage =
      .ok ((actionId (.nativeTransfer GovernanceReceiptV3.goldenBody)).preimage.toOption.getD []) :=
    GovernanceReceiptV3.eq_ok_getD (by decide +kernel)
  exact preimage_determines hd (by decide +kernel)

end Derivation
end Concordia.Contract
