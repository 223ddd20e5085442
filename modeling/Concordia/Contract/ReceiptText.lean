import Concordia.Contract.GovernanceReceipt
import Concordia.Js.Characters

/-! What a stored receipt says when it is read as JSON. Both receipt contracts paste their
arguments into the text as they come. -/
namespace Concordia.Contract.GovernanceReceipt
open Concordia.Js
open Concordia.Js.Json

/-- The named keys the plain host contract writes: a receipt under its proposal, with no
quorum asked for. -/
def putReceipt (namedKeys : String → Option String) (args : ReceiptArgs) :
    String → Option String :=
  GovernanceReceiptV3.set namedKeys ("concordia_receipt_" ++ args.proposalId) (receiptText args)

namespace ReceiptArgs

/-- The members of a receipt: every argument under its own name. -/
def members (a : ReceiptArgs) : List (JsString × Pasted) :=
  [(js "proposal_id", .text (js a.proposalId)), (js "proposal_type", .text (js a.proposalType)),
    (js "proposal_hash", .text (js (hex32 a.proposalHash))),
    (js "final_card_hash", .text (js (hex32 a.finalCardHash))),
    (js "plan_hash", .text (js (hex32 a.planHash))), (js "decision", .text (js a.decision)),
    (js "risk_level", .text (js a.riskLevel)), (js "risk_score", .number a.riskScore.toNat),
    (js "treasury_action", .text (js a.treasuryAction)),
    (js "policy_hash", .text (js (hex32 a.policyHash))),
    (js "policy_version", .text (js a.policyVersion)),
    (js "dissent_hash", .text (js (hex32 a.dissentHash))),
    (js "approved_allocation_bps", .number a.approvedAllocationBps.toNat),
    (js "casper_network", .text (js a.casperNetwork)),
    (js "agent_council_version", .text (js a.agentCouncilVersion)),
    (js "evidence_uri", .text (js a.evidenceUri)),
    (js "agent_action_hash", .text (js (hex32 a.agentActionHash)))]

/-- The texts the caller chooses freely. -/
def texts (a : ReceiptArgs) : List String :=
  [a.proposalId, a.proposalType, a.decision, a.riskLevel, a.treasuryAction, a.policyVersion,
    a.casperNetwork, a.agentCouncilVersion, a.evidenceUri]

/-- No text holds a quote, a backslash or a control character. -/
def Plain (a : ReceiptArgs) : Prop := ∀ text ∈ a.texts, ∀ c ∈ text.toList, PlainChar c

end ReceiptArgs

/-- A text that is a JSON object of exactly the supplied members, in their order. -/
def Faithful (text : String) (a : ReceiptArgs) : Prop :=
  ∃ t, JsonText (js text) t ∧ t.value = some (.object (memberValuesOf a.members))

section Text
variable {a b : ReceiptArgs}

theorem js_hex32 (bytes : Bytes32) : js (hex32 bytes) = toHex bytes.toList := by
  have digits : ∀ n < 256, codeUnits (lut (UInt8.ofNat n >>> 4)) = [hexDigit (n / 16)] ∧
      codeUnits (lut (UInt8.ofNat n &&& 0x0f)) = [hexDigit (n % 16)] := by
    decide +kernel
  rw [hex32, js_ofList, toHex, List.flatMap_assoc]
  congr 1
  funext byte
  obtain ⟨high, low⟩ := digits byte.toNat byte.toNat_lt
  rw [UInt8.ofNat_toNat] at high low
  rw [List.flatMap_cons, List.flatMap_singleton, high, low]
  rfl

theorem plain_hex32 (bytes : Bytes32) : PlainText (js (hex32 bytes)) := by
  have digits : ∀ n < 16, hexDigit n ∈ js "0123456789abcdef" := by decide +kernel
  have plain : PlainText (js "0123456789abcdef") := plainText_of_all (by decide +kernel)
  rw [js_hex32]
  intro u hu
  obtain ⟨byte, -, hu⟩ := List.mem_flatMap.mp hu
  have hbyte := byte.toNat_lt
  rcases List.mem_pair.mp hu with rfl | rfl
  · exact plain _ (digits _ (by omega))
  · exact plain _ (digits _ (by omega))

/-- Between a text and the next text: the quotes, the comma and the name. -/
private theorem js_between :
    js "\",\"proposal_type\":\"" = quote :: comma :: quote :: (js "proposal_type" ++ [quote, colon, quote]) ∧
    js "\",\"proposal_hash\":\"" = quote :: comma :: quote :: (js "proposal_hash" ++ [quote, colon, quote]) ∧
    js "\",\"final_card_hash\":\"" = quote :: comma :: quote :: (js "final_card_hash" ++ [quote, colon, quote]) ∧
    js "\",\"plan_hash\":\"" = quote :: comma :: quote :: (js "plan_hash" ++ [quote, colon, quote]) ∧
    js "\",\"decision\":\"" = quote :: comma :: quote :: (js "decision" ++ [quote, colon, quote]) ∧
    js "\",\"risk_level\":\"" = quote :: comma :: quote :: (js "risk_level" ++ [quote, colon, quote]) ∧
    js "\",\"policy_hash\":\"" = quote :: comma :: quote :: (js "policy_hash" ++ [quote, colon, quote]) ∧
    js "\",\"policy_version\":\"" = quote :: comma :: quote :: (js "policy_version" ++ [quote, colon, quote]) ∧
    js "\",\"dissent_hash\":\"" = quote :: comma :: quote :: (js "dissent_hash" ++ [quote, colon, quote]) ∧
    js "\",\"agent_council_version\":\"" = quote :: comma :: quote :: (js "agent_council_version" ++ [quote, colon, quote]) ∧
    js "\",\"evidence_uri\":\"" = quote :: comma :: quote :: (js "evidence_uri" ++ [quote, colon, quote]) ∧
    js "\",\"agent_action_hash\":\"" = quote :: comma :: quote :: (js "agent_action_hash" ++ [quote, colon, quote]) := by
  decide +kernel

/-- At the two numbers, and at the ends. -/
private theorem js_around :
    js "\x7b\"proposal_id\":\"" =
        leftBrace :: quote :: (js "proposal_id" ++ [quote, colon, quote]) ∧
      js "\",\"risk_score\":" = quote :: comma :: quote :: (js "risk_score" ++ [quote, colon]) ∧
      js ",\"treasury_action\":\"" =
        comma :: quote :: (js "treasury_action" ++ [quote, colon, quote]) ∧
      js "\",\"approved_allocation_bps\":" =
        quote :: comma :: quote :: (js "approved_allocation_bps" ++ [quote, colon]) ∧
      js ",\"casper_network\":\"" =
        comma :: quote :: (js "casper_network" ++ [quote, colon, quote]) ∧
      js "\"\x7d" = [quote, rightBrace] := by
  decide +kernel

theorem js_receiptText (a : ReceiptArgs) : js (receiptText a) = renderObject a.members := by
  have score : js (toString a.riskScore) = decimal a.riskScore.toNat := js_toString _
  have share : js (toString a.approvedAllocationBps) = decimal a.approvedAllocationBps.toNat :=
    js_toString _
  obtain ⟨h₁, h₂, h₃, h₄, h₅, h₆, h₇, h₈, h₉, h₁₀, h₁₁, h₁₂⟩ := js_between
  obtain ⟨opening, risk, treasury, approved, network, closing⟩ := js_around
  unfold receiptText
  simp only [js_append]
  rw [score, share, opening, risk, treasury, approved, network, closing, h₁, h₂, h₃, h₄, h₅, h₆,
    h₇, h₈, h₉, h₁₀, h₁₁, h₁₂]
  simp only [renderObject, ReceiptArgs.members, renderMembers, Pasted.render, List.append_assoc,
    List.cons_append, List.nil_append]

theorem members_plain : (∀ m ∈ a.members, m.2.Plain) ↔ a.Plain := by
  have score : a.riskScore.toNat ≤ 2 ^ 53 - 1 := by
    have := a.riskScore.toNat_lt
    omega
  have share : a.approvedAllocationBps.toNat ≤ 2 ^ 53 - 1 := by
    have := a.approvedAllocationBps.toNat_lt
    omega
  simp only [ReceiptArgs.members, ReceiptArgs.Plain, ReceiptArgs.texts, List.forall_mem_cons,
    List.not_mem_nil, false_implies, implies_true, Pasted.Plain, plain_hex32, score, share,
    true_and, and_true, ← plainText_js]

theorem members_keys : ∀ m ∈ a.members, PlainText m.1 := by
  have plain : (["proposal_id", "proposal_type", "proposal_hash", "final_card_hash",
      "plan_hash", "decision", "risk_level", "risk_score", "treasury_action", "policy_hash",
      "policy_version", "dissent_hash", "approved_allocation_bps", "casper_network",
      "agent_council_version", "evidence_uri", "agent_action_hash"].all fun key =>
        key.toList.all fun c => decide (PlainChar c)) = true := by
    decide +kernel
  simp only [List.all_cons, List.all_nil, Bool.and_eq_true, List.all_eq_true, decide_eq_true_eq,
    ← plainText_js, and_true] at plain
  simpa only [ReceiptArgs.members, List.forall_mem_cons, List.not_mem_nil, false_implies,
    implies_true, and_true] using plain

theorem receiptText_faithful : Faithful (receiptText a) a ↔ a.Plain := by
  rw [← members_plain, Faithful, js_receiptText]
  exact renderObject_iff (by simp [ReceiptArgs.members]) members_keys

/-- Members that agree come from equal arguments. -/
theorem members_injective (h : memberValuesOf a.members = memberValuesOf b.members) : a = b := by
  simp only [memberValuesOf, ReceiptArgs.members, List.map_cons, List.map_nil, Pasted.value,
    List.cons.injEq, Prod.mk.injEq, true_and, and_true, Value.string.injEq, Value.number.injEq,
    js_hex32, js_injective.eq_iff, toHex_injective.eq_iff, Vector.toList_inj, Nat.cast_inj,
    UInt32.toNat_inj] at h
  cases a
  cases b
  simp_all

theorem receiptText_injective (ha : a.Plain) (hb : b.Plain)
    (h : receiptText a = receiptText b) : a = b := by
  obtain ⟨t, text, value⟩ := receiptText_faithful.mpr ha
  obtain ⟨t', text', value'⟩ := receiptText_faithful.mpr hb
  rw [h] at text
  obtain rfl := text.unique text'
  rw [value] at value'
  exact members_injective (Value.object.inj (Option.some.inj value'))

end Text

/-- A stored receipt is faithful exactly when no text needs escaping, and such receipts tell
their arguments apart. -/
theorem receipt_faithful_iff (args : ReceiptArgs) :
    (∀ s t, storeGovernanceReceipt s args = .ok t →
      ∃ text, t.receipts args.proposalId = some text ∧ (Faithful text args ↔ args.Plain)) ∧
    (∀ namedKeys, ∃ text,
      putReceipt namedKeys args ("concordia_receipt_" ++ args.proposalId) = some text ∧
        (Faithful text args ↔ args.Plain)) ∧
    (∀ other : ReceiptArgs, args.Plain → other.Plain → args ≠ other →
      receiptText args ≠ receiptText other) := by
  refine ⟨fun s t h => ?_, fun namedKeys => ?_, fun other hargs hother hne h => ?_⟩
  · obtain ⟨-, -, -, rfl⟩ := storeGovernanceReceipt_ok.mp h
    exact ⟨receiptText args, GovernanceReceiptV3.set_self _ _ _, receiptText_faithful⟩
  · exact ⟨receiptText args, GovernanceReceiptV3.set_self _ _ _, receiptText_faithful⟩
  · exact hne (receiptText_injective hargs hother h)

/-- A call for a decision and a risk level in the given words, all else alike. -/
def worded (decision riskLevel : String) : ReceiptArgs where
  proposalId := "DAO-1"
  proposalType := "treasury"
  proposalHash := GovernanceReceiptV3.zero32
  finalCardHash := GovernanceReceiptV3.zero32
  planHash := GovernanceReceiptV3.zero32
  decision := decision
  riskLevel := riskLevel
  riskScore := 10
  treasuryAction := "none"
  policyHash := GovernanceReceiptV3.zero32
  policyVersion := "1"
  dissentHash := GovernanceReceiptV3.zero32
  approvedAllocationBps := 0
  casperNetwork := "casper-test"
  agentCouncilVersion := "1"
  evidenceUri := ""
  agentActionHash := GovernanceReceiptV3.zero32

/-- Two different calls that an approved proposal accepts and stores as one text, with a second
member of one name; neither is faithful. -/
theorem receipt_text_shared :
    let a := worded "approve\",\"risk_level\":\"low" "high"
    let b := worded "approve" "low\",\"risk_level\":\"high"
    let s := { State.deployed with
      quorumConfigured := some true
      quorumThreshold := some 1
      proposedEnvelopes := fun _ => some (hex32 GovernanceReceiptV3.zero32)
      approvalCounts := fun _ => some 1 }
    a ≠ b ∧ receiptText a = receiptText b ∧ ¬ Faithful (receiptText a) a ∧
      ¬ Faithful (receiptText b) b ∧
      storeGovernanceReceipt s a = .ok (s.withReceipt a) ∧
      storeGovernanceReceipt s b = .ok (s.withReceipt b) := by
  have quoted : ¬ PlainChar '\"' := fun h => h.2.1 rfl
  refine ⟨by decide +kernel, by decide +kernel, ?_, ?_,
    storeGovernanceReceipt_ok.mpr ⟨rfl, rfl, rfl, rfl⟩,
    storeGovernanceReceipt_ok.mpr ⟨rfl, rfl, rfl, rfl⟩⟩
  · rw [receiptText_faithful]
    exact fun h => quoted (h "approve\",\"risk_level\":\"low" (by decide +kernel) _
      (by decide +kernel))
  · rw [receiptText_faithful]
    exact fun h => quoted (h "low\",\"risk_level\":\"high" (by decide +kernel) _
      (by decide +kernel))

end Concordia.Contract.GovernanceReceipt
