import Concordia.Contract.NativeTransfer
import Concordia.Contract.Replay
import Concordia.Verify.Readback
import Concordia.Verify.Rendering

/-! The readback of the V3 contract: the cells that the storage of a reachable state holds, and what
the verifier decides on them. -/
namespace Concordia.Verify.Readback
open Concordia.Contract Concordia.Contract.GovernanceReceiptV3 Concordia.Js
open Concordia.Lib.Transition Concordia.Verify.NativeDeploy

section Storage

/-- A stored string: its bytes behind their number. -/
def stringBytes (s : String) : List UInt8 := littleU32 (asBytes s).length ++ asBytes s

def boolBytes (b : Bool) : List UInt8 := if b then [1] else [0]

/-- What is stored at the fields of the module, which are counted in the order of their declaration
from one on. The signers and the approvals, 11 and 14, are never read back. -/
def storedItem (s : State) (p : String) (i : Bytes32) : Nat → Option (List UInt8)
  | 1 => s.owner.map Vector.toList
  | 2 => s.schemaVersionValue.map fun v => littleU32 v.toNat
  | 3 => s.deploymentDomainValue.map Vector.toList
  | 4 => s.chainName.map stringBytes
  | 5 => s.proposerAccount.map Vector.toList
  | 6 => s.finalizerAccount.map Vector.toList
  | 7 => s.signerAAccount.map Vector.toList
  | 8 => s.signerBAccount.map Vector.toList
  | 9 => s.signerCAccount.map Vector.toList
  | 10 => s.quorumThreshold.map fun v => [v]
  | 12 => (s.proposedEnvelopes p).map Vector.toList
  | 13 => (s.approvalCounts p).map fun v => [v]
  | 15 => (s.finalizedProposals p).map boolBytes
  | 16 => (s.finalizedEnvelopes p).map Vector.toList
  | 17 => (s.authorizedActions i).map boolBytes
  | _ => none

/-- The cells of a readback, where all of them are stored. -/
def storedCells (s : State) (p : String) (i : Bytes32) : List StateItem →
    Option (List (String × List UInt8))
  | [] => some []
  | item :: rest => do
    let bytes ← storedItem s p i item.index
    let cells ← storedCells s p i rest
    return (item.name, bytes) :: cells

/-- The keys that the verifier asks for are those of the proposal and of the action. -/
theorem items_of_valid {identity : Identity} {p : String} {i : Bytes32}
    (hp : validProposalId p = true) (hproposal : identity.proposalId = js p)
    (haction : identity.actionId = toHex i.toList) :
    identity.items = stateItems (stringBytes p) i.toList := by
  have hunits : AsciiUnits (js p) := by
    have hid := isProposalId_js.trans hp
    simp only [isProposalId, Bool.and_eq_true, Bool.or_eq_true, decide_eq_true_eq, List.all_eq_true,
      UInt16.le_iff_toNat_le, beq_iff_eq] at hid
    intro u hu
    rcases hid.2 u hu with (h | h) | h
    · exact lt_of_le_of_lt h.2 (by decide)
    · exact lt_of_le_of_lt h.2 (by decide)
    · subst h
      decide
  have hbytes := asBytes_of_asciiUnits hunits
  have hlength : (js p).length = (asBytes p).length := by rw [hbytes, List.length_map]
  rw [Identity.items, haction, fromHex_toHex, Option.getD_some, proposalKeyOf, hproposal, hlength,
    ← hbytes, stringBytes]

end Storage

section Runs
variable {blake2b256 : List UInt8 → Bytes32} {s s₀ t : State} {a : Contract.Address × Call}
  {log : List (Contract.Address × Call)}

/-- The fields that only the constructor writes. -/
structure Vars where
  owner : Option Bytes32
  schemaVersion : Option UInt32
  deploymentDomain : Option Bytes32
  chainName : Option String
  proposer : Option Bytes32
  finalizer : Option Bytes32
  signerA : Option Bytes32
  signerB : Option Bytes32
  signerC : Option Bytes32
  threshold : Option UInt8

def varsOf (s : State) : Vars where
  owner := s.owner
  schemaVersion := s.schemaVersionValue
  deploymentDomain := s.deploymentDomainValue
  chainName := s.chainName
  proposer := s.proposerAccount
  finalizer := s.finalizerAccount
  signerA := s.signerAAccount
  signerB := s.signerBAccount
  signerC := s.signerCAccount
  threshold := s.quorumThreshold

theorem vars_kept (h : Accepts (step blake2b256) s₀ log s) : varsOf s = varsOf s₀ := by
  refine h.invariant (P := fun v => varsOf v = varsOf s₀) rfl ?_
  intro v b w hv hstep
  refine Eq.trans ?_ hv
  cases step_effect hstep with
  | proposed => rfl
  | approved => rfl
  | finalized => rfl

/-- What every call keeps of the other fields. -/
structure Kept (s : State) : Prop where
  finalized : ∀ p b, s.finalizedProposals p = some b → b = true
  authorized : ∀ i b, s.authorizedActions i = some b → b = true
  counted : ∀ p, (s.proposedEnvelopes p).isSome → (s.approvalCounts p).isSome
  sealed : ∀ p, s.finalized p = true → ∃ h, Sealed s p h
  quorum : ∀ p, s.finalized p = true → s.threshold ≤ s.approvalCount p

theorem Kept.installed (h : Installed s) : Kept s where
  finalized p b hb := by
    rw [h.finalized] at hb
    cases hb
  authorized i b hb := by
    rw [h.authorized] at hb
    cases hb
  counted p hp := by
    rw [h.proposed] at hp
    cases hp
  sealed p hp := by simp [State.finalized, h.finalized] at hp
  quorum p hp := by simp [State.finalized, h.finalized] at hp

theorem threshold_kept (he : Effect blake2b256 s a t) : t.threshold = s.threshold :=
  congrArg Roles.threshold he.roles_eq

/-- A proposal that was finalized before keeps its quorum. -/
theorem Kept.quorum_frame (hk : Kept s) (he : Effect blake2b256 s a t) {p : String}
    (hp : s.finalized p = true) : t.threshold ≤ t.approvalCount p := by
  obtain ⟨h, hsealed⟩ := hk.sealed p hp
  have hcommitted : s.proposedEnvelopes p ≠ none := by
    change s.proposedEnvelope p ≠ none
    simp [hsealed.proposed]
  rw [(he.frame hp hcommitted).2.count, threshold_kept he]
  exact hk.quorum p hp

theorem Kept.step (hk : Kept s) (he : Effect blake2b256 s a t) : Kept t where
  finalized p b hb := by
    cases he with
    | proposed => exact hk.finalized p b hb
    | approved => exact hk.finalized p b hb
    | finalized =>
      simp only [State.withFinalization, set_apply] at hb
      split_ifs at hb
      · exact (Option.some.inj hb).symm
      · exact hk.finalized p b hb
  authorized i b hb := by
    cases he with
    | proposed => exact hk.authorized i b hb
    | approved => exact hk.authorized i b hb
    | finalized =>
      simp only [State.withFinalization, set_apply] at hb
      split_ifs at hb
      · exact (Option.some.inj hb).symm
      · exact hk.authorized i b hb
  counted p hp := by
    cases he with
    | proposed =>
      simp only [State.withProposal, set_apply] at hp ⊢
      split_ifs at hp ⊢
      · rfl
      · exact hk.counted p hp
    | approved =>
      simp only [State.withApproval, set_apply] at hp ⊢
      split_ifs
      · rfl
      · exact hk.counted p hp
    | finalized => exact hk.counted p hp
  sealed p hp := he.sealed hk.sealed hp
  quorum p hp := by
    cases hold : s.finalized p with
    | true => exact hk.quorum_frame he hold
    | false =>
      cases he with
      | proposed => exact absurd hp (by simpa [State.finalized, State.withProposal] using hold)
      | approved => exact absurd hp (by simpa [State.finalized, State.withApproval] using hold)
      | @finalized call args h _ _ _ _ hquorum =>
        by_cases hsame : p = args.proposalId
        · subst hsame
          rw [State.quorumMet, Bool.and_eq_true, decide_eq_true_eq] at hquorum
          exact hquorum.2
        · exact absurd hp (by
            simpa [State.finalized, State.withFinalization, set_other hsame] using hold)

theorem run_kept (hs : Installed s₀) (h : Accepts (GovernanceReceiptV3.step blake2b256) s₀ log s) :
    Kept s := by
  refine h.invariant (P := Kept) (.installed hs) ?_
  intro v b w hv hstep
  exact hv.step (step_effect hstep)

/-- What the constructor has written and checked. -/
structure Constructed (s : State) (owner domain : Bytes32) (args : InitArgs) : Prop where
  vars : varsOf s = ⟨some owner, some Contract.schemaVersion, some domain, some casperChainName,
    some args.proposer, some args.finalizer, some args.signerA, some args.signerB, some args.signerC,
    some args.threshold⟩
  nonzero : ∀ role ∈ [args.proposer, args.finalizer, args.signerA, args.signerB, args.signerC],
    role ≠ zero32
  apart : [args.proposer, args.finalizer, args.signerA, args.signerB, args.signerC].Nodup
  threshold : args.threshold = 2 ∨ args.threshold = 3

theorem init_constructed {caller : Contract.Address} {args : InitArgs}
    (h : init blake2b256 caller args = .ok s) :
    ∃ owner domain, caller = .account owner ∧ Constructed s owner domain args := by
  simp only [init, callerAccount_bind_ok, require_bind_ok, not_or, not_exists, not_and] at h
  simp only [except_bind_ok, orRevert_ok, pure, Except.pure, Except.ok.injEq] at h
  obtain ⟨owner, rfl, ⟨hzero, -⟩, ⟨hpf, hrole⟩, ⟨hab, hac, hbc⟩, hth, domain, hdomain, rfl⟩ := h
  have hchain : args.casperChainName = casperChainName := by
    by_contra hother
    rw [deriveDeploymentDomain, if_pos (.inl hother)] at hdomain
    cases hdomain
  simp only [List.mem_cons, List.not_mem_nil, or_false, forall_eq_or_imp, forall_eq] at hrole
  obtain ⟨⟨hap, haf⟩, ⟨hbp, hbf⟩, hcp, hcf⟩ := hrole
  refine ⟨owner, domain, rfl, ?_, ?_, ?_, hth⟩
  · rw [varsOf, hchain]
  · rintro role hmem rfl
    exact hzero (List.any_eq_true.mpr ⟨_, hmem, isZero32_eq_true.mpr rfl⟩)
  · simp [hpf, hab, hac, hbc, Ne.symm hap, Ne.symm haf, Ne.symm hbp, Ne.symm hbf, Ne.symm hcp,
      Ne.symm hcf]

end Runs

section Decoding
variable {rt : Runtime}

def hex (v : Bytes32) : JsString := toHex v.toList

theorem hex_injective : Function.Injective hex :=
  toHex_injective.comp Bytes32.toList_injective

theorem zeroHash_hex : zeroHash = hex zero32 := by decide +kernel

theorem bytes32Value_hex (v : Bytes32) (label : String) : bytes32Value v.toList label = .ok (hex v) := by
  simp [bytes32Value, NativeDeploy.require, hex, bind, Except.bind, pure, Except.pure]

theorem u32_littleU32 {n : Nat} (h : n < 2 ^ 32) (label : String) : u32 (littleU32 n) label = .ok n := by
  simp only [u32, littleU32, Except.ok.injEq, Nat.toUInt8_eq, UInt8.toNat_ofNat']
  omega

theorem boolValue_boolBytes (b : Bool) (label : String) : boolValue (boolBytes b) label = .ok b := by
  cases b <;> rfl

theorem stringValue_stringBytes {s : String} {t : JsString} (label : String)
    (hlength : (asBytes s).length < 2 ^ 32) (hdecode : rt.decodeUtf8 (asBytes s) = some t) :
    stringValue rt (stringBytes s) label = .ok t := by
  have htake : (stringBytes s).take 4 = littleU32 (asBytes s).length := rfl
  have hdrop : (stringBytes s).drop 4 = asBytes s := rfl
  have hsize : (stringBytes s).length = (asBytes s).length + 4 := by simp [stringBytes, littleU32]
  simp only [stringValue, htake, hdrop, hsize, u32_littleU32 hlength, hdecode]
  simp [NativeDeploy.require, bind, Except.bind]

/-- The values in the cells of a finalized proposal and of an authorized action. -/
structure CellValues where
  owner : Bytes32
  domain : Bytes32
  proposer : Bytes32
  finalizer : Bytes32
  signerA : Bytes32
  signerB : Bytes32
  signerC : Bytes32
  threshold : UInt8
  envelope : Bytes32
  count : UInt8

def CellValues.cells (v : CellValues) : List (String × List UInt8) :=
  [("owner", v.owner.toList), ("schema_version", littleU32 Contract.schemaVersion.toNat),
    ("deployment_domain", v.domain.toList), ("casper_chain_name", stringBytes casperChainName),
    ("proposer", v.proposer.toList), ("finalizer", v.finalizer.toList),
    ("signer_a", v.signerA.toList), ("signer_b", v.signerB.toList), ("signer_c", v.signerC.toList),
    ("threshold", [v.threshold]), ("proposed_envelope", v.envelope.toList),
    ("approval_count", [v.count]), ("finalized", boolBytes true),
    ("finalized_envelope", v.envelope.toList), ("action_authorized", boolBytes true)]

def CellValues.facts (v : CellValues) (identity : Identity) (block : Block) : ReadbackFacts where
  identity := identity
  block := block
  owner := hex v.owner
  schemaVersion := 3
  deploymentDomain := hex v.domain
  casperChainName := js casperChainName
  proposer := hex v.proposer
  finalizer := hex v.finalizer
  signers := [hex v.signerA, hex v.signerB, hex v.signerC]
  threshold := v.threshold.toNat
  proposedEnvelope := hex v.envelope
  approvalCount := v.count.toNat
  finalized := true
  finalizedEnvelope := hex v.envelope
  actionAuthorized := true

variable {v : CellValues} {identity : Identity} {block : Block}

theorem decodeFacts_cells (hdecode : rt.decodeUtf8 (asBytes casperChainName) = some (js casperChainName)) :
    decodeFacts rt ⟨identity, block, v.cells⟩ = .ok (v.facts identity block) := by
  have hversion (label : String) : u32 (littleU32 Contract.schemaVersion.toNat) label = .ok 3 :=
    u32_littleU32 (by decide) label
  have hname (label : String) :
      stringValue rt (stringBytes casperChainName) label = .ok (js casperChainName) :=
    stringValue_stringBytes label (by decide +kernel) hdecode
  simp [decodeFacts, Reading.cell, CellValues.cells, List.lookup_cons, bytes32Value_hex, hversion, hname,
    boolValue_boolBytes, u8Value, bind, Except.bind, pure, Except.pure, CellValues.facts]

/-- The checks of the verifier that the constructor has not made already. -/
theorem facts_governed (hnonzero : ∀ role ∈ [v.proposer, v.finalizer, v.signerA, v.signerB, v.signerC],
      role ≠ zero32) (hapart : [v.proposer, v.finalizer, v.signerA, v.signerB, v.signerC].Nodup)
    (hthreshold : v.threshold = 2 ∨ v.threshold = 3) :
    (v.facts identity block).governed = true ↔ v.owner ≠ zero32 := by
  let roles := [v.proposer, v.finalizer, v.signerA, v.signerB, v.signerC]
  have hroles : (v.facts identity block).proposer :: (v.facts identity block).finalizer ::
      (v.facts identity block).signers = roles.map hex := rfl
  have hdistinct : (roles.map hex).Nodup := hapart.map hex_injective
  have hall : (roles.map hex).all (· != zeroHash) = true := by
    rw [List.all_map, List.all_eq_true]
    intro role hrole
    rw [zeroHash_hex]
    exact bne_iff_ne.mpr fun h => hnonzero role hrole (hex_injective h)
  have hbound : (v.threshold.toNat == 2 || v.threshold.toNat == 3) = true := by
    rcases hthreshold with h | h
    · rw [h]
      rfl
    · rw [h]
      rfl
  have howner : (hex v.owner != zeroHash) = true ↔ v.owner ≠ zero32 := by
    rw [bne_iff_ne, zeroHash_hex]
    exact not_congr hex_injective.eq_iff
  rw [ReadbackFacts.governed, hroles, hall, decide_eq_true hdistinct, ← howner]
  simp only [CellValues.facts, hbound, Bool.and_true, beq_self_eq_true, Bool.true_and,
    show casperChainName = "casper-test" from rfl]

theorem facts_authorized : (v.facts identity block).authorized = true ↔ v.threshold ≤ v.count := by
  simp only [ReadbackFacts.authorized, CellValues.facts, beq_self_eq_true, Bool.and_true,
    Bool.true_and, UInt8.le_iff_toNat_le]
  exact decide_eq_true_iff

theorem readFacts_cells {facts : ReadbackFacts}
    (hdecode : rt.decodeUtf8 (asBytes casperChainName) = some (js casperChainName)) :
    readFacts rt ⟨identity, block, v.cells⟩ = .ok facts ↔ (v.facts identity block).governed = true ∧
      (v.facts identity block).authorized = true ∧ facts = v.facts identity block := by
  have hcells : decodeFacts rt ⟨identity, block, v.cells⟩ = .ok (v.facts identity block) :=
    decodeFacts_cells hdecode
  simp only [readFacts, hcells, except_bind_ok, exists_unit, pure, Except.pure, Except.ok.injEq]
  constructor
  · rintro ⟨_, rfl, hgoverned, hauthorized, rfl⟩
    exact ⟨Rpc.require_unit hgoverned, Rpc.require_unit hauthorized, rfl⟩
  · rintro ⟨hgoverned, hauthorized, rfl⟩
    exact ⟨_, rfl, by rw [hgoverned]; rfl, by rw [hauthorized]; rfl, rfl⟩

end Decoding

section Readback
variable {blake2b256 : List UInt8 → Bytes32} {rt : Runtime} {s s₀ : State} {caller : Contract.Address}
  {args : InitArgs} {log : List (Contract.Address × Call)} {p : String} {i : Bytes32}

theorem storedCells_isSome {items : List StateItem} {cells : List (String × List UInt8)}
    (h : storedCells s p i items = some cells) :
    ∀ item ∈ items, (storedItem s p i item.index).isSome := by
  induction items generalizing cells with
  | nil => exact fun _ hitem => nomatch hitem
  | cons first items ih =>
    simp only [storedCells, Option.bind_eq_bind, Option.bind_eq_some_iff] at h
    obtain ⟨bytes, hbytes, rest, hrest, -⟩ := h
    intro item hitem
    rcases List.mem_cons.mp hitem with rfl | hitem
    · rw [hbytes]
      rfl
    · exact ih hrest item hitem

/-- The values of the cells of a constructed contract. -/
def valuesOf (s : State) (p : String) : CellValues where
  owner := s.owner.getD zero32
  domain := s.deploymentDomain
  proposer := s.proposer
  finalizer := s.finalizer
  signerA := s.signerA
  signerB := s.signerB
  signerC := s.signerC
  threshold := s.threshold
  envelope := (s.proposedEnvelope p).getD zero32
  count := s.approvalCount p

/-- All of the cells are stored once the proposal is finalized and the action authorized. -/
theorem storedCells_values {owner domain : Bytes32} {proposalKey actionBytes : List UInt8}
    (hc : Constructed s owner domain args) (hk : Kept s) (hp : s.finalized p = true)
    (hi : s.actionAuthorized i = true) :
    storedCells s p i (stateItems proposalKey actionBytes) = some (valuesOf s p).cells := by
  obtain ⟨h, -, hproposed, henvelope⟩ := hk.sealed p hp
  have hproposed : s.proposedEnvelopes p = some h := hproposed
  have henvelope : s.finalizedEnvelopes p = some h := henvelope
  obtain ⟨count, hcount⟩ := Option.isSome_iff_exists.mp (hk.counted p (by rw [hproposed]; rfl))
  have hfinalized : s.finalizedProposals p = some true := by
    cases hstored : s.finalizedProposals p with
    | none => simp [State.finalized, hstored] at hp
    | some b => rw [hk.finalized p b hstored]
  have hauthorized : s.authorizedActions i = some true := by
    cases hstored : s.authorizedActions i with
    | none => simp [State.actionAuthorized, hstored] at hi
    | some b => rw [hk.authorized i b hstored]
  obtain ⟨howner, hversion, hdomain, hname, hproposer, hfinalizer, hA, hB, hC, hthreshold⟩ :=
    Vars.mk.inj hc.vars
  simp [storedCells, stateItems, storedItem, howner, hversion, hdomain, hname, hproposer, hfinalizer,
    hA, hB, hC, hthreshold, hproposed, hcount, hfinalized, henvelope, hauthorized, valuesOf,
    CellValues.cells, State.deploymentDomain, State.proposer, State.finalizer, State.signerA,
    State.signerB, State.signerC, State.threshold, State.proposedEnvelope, State.approvalCount]

/-- What the verifier decides on the cells of a reachable contract: it accepts exactly a finalized
proposal and an authorized action, with the values that the contract reports. -/
theorem readback_decides (hinit : init blake2b256 caller args = .ok s₀)
    (hrun : Accepts (step blake2b256) s₀ log s)
    (hdecode : rt.decodeUtf8 (asBytes casperChainName) = some (js casperChainName))
    (p : String) (i : Bytes32) (identity : Identity) (block : Block) (facts : ReadbackFacts)
    (proposalKey actionBytes : List UInt8) :
    (∃ cells, storedCells s p i (stateItems proposalKey actionBytes) = some cells ∧
      readFacts rt ⟨identity, block, cells⟩ = .ok facts) ↔
        s.finalized p = true ∧ s.actionAuthorized i = true ∧ caller ≠ .account zero32 ∧
          facts = (valuesOf s p).facts identity block := by
  obtain ⟨owner, domain, rfl, hconstructed⟩ := init_constructed hinit
  have hk := run_kept (init_installed hinit) hrun
  have hc : Constructed s owner domain args := { hconstructed with
    vars := (vars_kept hrun).trans hconstructed.vars }
  have hvars := hc.vars
  have hproposer : s.proposer = args.proposer := congrArg (fun v => v.proposer.getD zero32) hvars
  have hfinalizer : s.finalizer = args.finalizer := congrArg (fun v => v.finalizer.getD zero32) hvars
  have hA : s.signerA = args.signerA := congrArg (fun v => v.signerA.getD zero32) hvars
  have hB : s.signerB = args.signerB := congrArg (fun v => v.signerB.getD zero32) hvars
  have hC : s.signerC = args.signerC := congrArg (fun v => v.signerC.getD zero32) hvars
  have hthreshold : s.threshold = args.threshold := congrArg (fun v => v.threshold.getD 0) hvars
  have howner : (valuesOf s p).owner = owner := congrArg (fun v => v.owner.getD zero32) hvars
  have hgoverned : ((valuesOf s p).facts identity block).governed = true ↔ owner ≠ zero32 := by
    rw [← howner]
    apply facts_governed
    · simp only [valuesOf, hproposer, hfinalizer, hA, hB, hC]
      exact hc.nonzero
    · simp only [valuesOf, hproposer, hfinalizer, hA, hB, hC]
      exact hc.apart
    · simp only [valuesOf, hthreshold]
      exact hc.threshold
  have hinstaller : Contract.Address.account owner ≠ .account zero32 ↔ owner ≠ zero32 := by simp
  rw [hinstaller, ← hgoverned]
  constructor
  · rintro ⟨cells, hcells, hfacts⟩
    have hstored := storedCells_isSome hcells
    have hfin := hstored ⟨"finalized", 15, proposalKey⟩ (by simp [stateItems])
    have hauth := hstored ⟨"action_authorized", 17, actionBytes⟩ (by simp [stateItems])
    simp only [storedItem, Option.isSome_map, Option.isSome_iff_exists] at hfin hauth
    obtain ⟨b, hb⟩ := hfin
    obtain ⟨c, hc'⟩ := hauth
    have hp : s.finalized p = true := by rw [State.finalized, hb, hk.finalized p b hb]; rfl
    have hi : s.actionAuthorized i = true := by
      rw [State.actionAuthorized, hc', hk.authorized i c hc']
      rfl
    obtain rfl := Option.some.inj (hcells.symm.trans (storedCells_values hc hk hp hi))
    obtain ⟨hgov, -, rfl⟩ := (readFacts_cells hdecode).mp hfacts
    exact ⟨hp, hi, hgov, rfl⟩
  · rintro ⟨hp, hi, hgov, rfl⟩
    refine ⟨_, storedCells_values hc hk hp hi, (readFacts_cells hdecode).mpr ⟨hgov, ?_, rfl⟩⟩
    exact facts_authorized.mpr (hk.quorum p hp)

/-- The calls of an artifact have been answered from the storage of the contract. -/
def Answers (rt : Runtime) (s : State) (p : String) (i : Bytes32) (items : List StateItem)
    (byKey : List (JsString × Fields)) : Prop :=
  ∀ item ∈ items, ∀ call bytes label, byKey.lookup (stateDictionaryKey rt item.index item.mappingKey) =
    some call → innerStateBytes call label = .ok bytes → storedItem s p i item.index = some bytes

theorem readCells_stored {items : List StateItem} {byKey : List (JsString × Fields)}
    {cells : List (String × List UInt8)} (hanswers : Answers rt s p i items byKey)
    (h : readCells rt byKey items = .ok cells) : storedCells s p i items = some cells := by
  induction items generalizing cells with
  | nil => rw [storedCells, Except.ok.inj h]
  | cons item items ih =>
    simp only [readCells, except_bind_ok, pure, Except.pure, Except.ok.injEq] at h
    obtain ⟨cell, hcell, rest, hrest, rfl⟩ := h
    have hbehind := ih (fun other hother => hanswers other (List.mem_cons_of_mem _ hother)) hrest
    unfold readCell at hcell
    cases hcall : byKey.lookup (stateDictionaryKey rt item.index item.mappingKey) with
    | none =>
      rw [hcall] at hcell
      cases hcell
    | some call =>
      simp only [hcall, except_bind_ok, pure, Except.pure, Except.ok.injEq] at hcell
      obtain ⟨bytes, hbytes, rfl⟩ := hcell
      have hstored := hanswers item List.mem_cons_self call bytes _ hcall hbytes
      rw [storedCells, hstored, hbehind]
      rfl

/-- What an accepted artifact has established. -/
theorem verified_cells {input : Value} {facts : V3ReadbackFacts} {opened : Opened} {block : Block}
    {byKey : List (JsString × Fields)} (hopened : openArtifact rt input = .ok opened)
    (hcalls : readCalls rt opened = .ok (block, byKey))
    (h : verifyV3ReadbackArtifact rt input = .ok facts) :
    ∃ cells, readCells rt byKey opened.identity.items = .ok cells ∧
      readFacts rt ⟨opened.identity, block, cells⟩ = .ok facts.toReadbackFacts := by
  simp only [verifyV3ReadbackArtifact, hopened, except_bind_ok, pure, Except.pure,
    Except.ok.injEq] at h
  obtain ⟨_, rfl, read, hread, cells, hcells, -, -, found, hfound, -, -, -, -, -, -, rfl⟩ := h
  obtain rfl := Except.ok.inj (hcalls.symm.trans hread)
  exact ⟨cells, hcells, hfound⟩

/-- The finalization of a proposal was authorized in the run, behind a quorum of its signers. -/
theorem provenance_of_finalized (hinit : init blake2b256 caller args = .ok s₀)
    (hrun : Accepts (step blake2b256) s₀ log s) (hp : s.finalized p = true) :
    ∃ j, Provenance blake2b256 s₀ log p j := by
  have hs := init_installed hinit
  obtain ⟨header, hmem, rfl⟩ := ((accepts_recorded hs hrun).finalized p).mp hp
  have hannounced := ((accepts_recorded hs hrun).announced _ _).mpr ⟨header, hmem, rfl, rfl⟩
  exact ⟨header.actionId, accepts_provenance hs hrun hannounced⟩

theorem provenance_of_authorized (hinit : init blake2b256 caller args = .ok s₀)
    (hrun : Accepts (step blake2b256) s₀ log s) (hi : s.actionAuthorized i = true) :
    ∃ q, Provenance blake2b256 s₀ log q i := by
  have hs := init_installed hinit
  obtain ⟨header, hmem, rfl⟩ := ((accepts_recorded hs hrun).authorized i).mp hi
  have hannounced := ((accepts_recorded hs hrun).announced _ _).mpr ⟨header, hmem, rfl, rfl⟩
  exact ⟨header.proposalId, accepts_provenance hs hrun hannounced⟩

/-- The digests and the decoder, on the baseline vector. -/
def goldenRuntime : Runtime where
  sha256 _ := zero32
  blake2b256 := goldenBlake2b256
  decodeUtf8 bytes := some (bytes.map fun b => b.toNat.toUInt16)

def goldenIdentity : Identity :=
  ⟨hex (filled 0x51), hex (filled 0x52), js "DAO-PROP-V3-001", hex goldenHeader.actionId⟩

end Readback
end Concordia.Verify.Readback
