import Concordia.Shared.DaoPolicy

/-! The receipt request that an approved envelope is normalised into, and the runtime arguments
of its contract call. -/
namespace Concordia.Shared.CasperExecutor
open Concordia.Python Concordia.Locke Concordia.Shared.X402Payments Concordia.Shared.DaoPolicy
open Concordia.Js hiding Value

/-- Library functions. -/
structure Runtime where
  sha256 : List UInt8 → Contract.Bytes32
  /-- `str` of a float, a list or a dictionary. -/
  strOther : Value → Str
  /-- `str.isdigit`, on a code point that is no ASCII digit. -/
  isOtherDigit : Nat → Bool
  /-- `int(text)`, where not all digits are ASCII. -/
  parseInt : Str → Except String Nat

variable (rt : Runtime)

/-- `str(value)`. -/
def text : Value → Str
  | .none => js "None"
  | .bool true => js "True"
  | .bool false => js "False"
  | .int n => dumpsInt n
  | .str s => s
  | v => rt.strOther v

section Request

structure CasperReceiptRequest where
  proposalId : Str
  proposalType : Str
  actionHash : Str
  finalCardHash : Str
  planHash : Str
  decision : Str
  riskLevel : Str
  riskScore : Str
  treasuryAction : Str
  policyHash : Str
  policyVersion : Str
  dissentHash : Str
  approvedAllocationBps : Str
  casperNetwork : Str
  agentCouncilVersion : Str
  evidenceUri : Str
  payloadHash : Str

def hashDict (payload : Dict) : Str :=
  toHex (rt.sha256 (utf8 (dumpsCompact (sortKeys (.dict payload))))).toList

/-- `str(parameters.get(key) or default)`. -/
def parameterText (parameters : Dict) (key default : String) : Str :=
  text rt (orElse (parameters.get key) (.str (js default)))

def buildReceiptRequest (proposalId actionHash finalCardHash planHash : Str) (parameters : Dict) :
    CasperReceiptRequest where
  proposalId := proposalId
  proposalType := parameterText rt parameters "proposal_type" "DAO_GOVERNANCE_RECEIPT"
  actionHash := actionHash
  finalCardHash := finalCardHash
  planHash := planHash
  decision := parameterText rt parameters "decision" "APPROVED"
  riskLevel := parameterText rt parameters "risk_level" "medium"
  riskScore := parameterText rt parameters "risk_score" ""
  treasuryAction := parameterText rt parameters "treasury_action" "record_governance_decision"
  policyHash := parameterText rt parameters "policy_hash" ""
  policyVersion := parameterText rt parameters "policy_version" ""
  dissentHash := parameterText rt parameters "dissent_hash" ""
  approvedAllocationBps := text rt (orElse (parameters.get "approved_allocation_bps")
    (orElse (parameters.get "allocation_bps") (.str [])))
  casperNetwork := parameterText rt parameters "casper_network" "casper-test"
  agentCouncilVersion :=
    parameterText rt parameters "agent_council_version" "concordia-dao-council-2026.06"
  evidenceUri := parameterText rt parameters "evidence_uri" ""
  payloadHash := hashDict rt [(js "proposal_id", .str proposalId),
    (js "action_hash", .str actionHash), (js "final_card_hash", .str finalCardHash),
    (js "plan_hash", .str planHash), (js "parameters", .dict parameters)]

end Request

section Arguments

inductive ClValue where
  | byteArray (bytes : List UInt8)
  | u32 (n : Nat)
  | string (s : Str)
  deriving DecidableEq

def byteArray32Args : List String :=
  ["proposal_hash", "final_card_hash", "plan_hash", "policy_hash", "dissent_hash",
    "agent_action_hash"]

def u32Args : List String := ["risk_score", "approved_allocation_bps"]

def maxStringArgLen : Nat := 512

def noDissentHash : Str := List.replicate 64 0x30

/-- `HEX32_RE`, with the digits in lower case. -/
def hex32 (s : Str) : Option Str :=
  let digits := ((after (js "sha256:") s).orElse fun _ => after (js "hash-") s).getD s
  if digits.length = 64 ∧ digits.all isHexUnit = true then some (digits.map lowerHexUnit) else none

def normalizeHex32 (value : Str) : Str :=
  let s := strip value
  if s.isEmpty then noDissentHash
  else (hex32 s).getD (toHex (rt.sha256 (utf8 s)).toList)

/-- `text.isdigit()` and `int(text)`. -/
def digits (name : String) (s : Str) : Except String Nat :=
  if s.isEmpty then .error s!"{name} must be an unsigned integer"
  else if s.all isDigit then .ok (digitsValue s)
  else if (codePoints s).all fun point =>
      (0x30 ≤ point && point ≤ 0x39) || (0x80 ≤ point && rt.isOtherDigit point) then rt.parseInt s
  else .error s!"{name} must be an unsigned integer"

def u32Arg (name : String) (value : Str) : Except String Nat := do
  let parsed ← digits rt name (strip (if value.isEmpty then js "0" else value))
  if 0xffffffff < parsed then .error s!"{name} must fit in a Casper U32" else return parsed

/-- `CONTROL_CHAR_RE`. -/
def isControl (u : UInt16) : Bool := u < 0x20 || u == 0x7f

def stringArg (name : String) (value : Str) : Except String Str :=
  let s := strip value
  if maxStringArgLen < (codePoints s).length then
    .error s!"{name} exceeds {maxStringArgLen} characters"
  else if s.any isControl then .error s!"{name} contains control characters"
  else .ok s

def receiptRuntimeValues (request : CasperReceiptRequest) : List (String × Str) := [
  ("proposal_id", request.proposalId), ("proposal_type", request.proposalType),
  ("proposal_hash", request.payloadHash), ("final_card_hash", request.finalCardHash),
  ("plan_hash", request.planHash), ("decision", request.decision),
  ("risk_level", request.riskLevel), ("risk_score", request.riskScore),
  ("treasury_action", request.treasuryAction), ("policy_hash", request.policyHash),
  ("policy_version", request.policyVersion), ("dissent_hash", request.dissentHash),
  ("approved_allocation_bps", request.approvedAllocationBps),
  ("casper_network", request.casperNetwork),
  ("agent_council_version", request.agentCouncilVersion),
  ("evidence_uri", request.evidenceUri), ("agent_action_hash", request.actionHash)]

def runtimeArg (name : String) (value : Str) : Except String ClValue :=
  if name ∈ byteArray32Args then
    match fromHex (normalizeHex32 rt value) with
    | some bytes => .ok (.byteArray bytes)
    | none => .error "non-hexadecimal number found in fromhex() arg"
  else if name ∈ u32Args then .u32 <$> u32Arg rt name value
  else .string <$> stringArg name value

def pycsprRuntimeArgs (request : CasperReceiptRequest) : Except String (List (String × ClValue)) :=
  (receiptRuntimeValues request).mapM fun (name, value) => do
    return (name, ← runtimeArg rt name value)

end Arguments

section Numbers
variable {rt}

theorem strip_of_visible {s : Str} (h : ∀ u ∈ s, isWhite u = false) : strip s = s := by
  have hkeep : ∀ t : Str, (∀ u ∈ t, isWhite u = false) → lstrip t = t := by
    intro t ht
    cases t with
    | nil => rfl
    | cons u rest =>
      rw [lstrip, List.dropWhile_cons, if_neg]
      rw [ht u List.mem_cons_self]
      simp
  rw [strip, hkeep s h, hkeep s.reverse fun u hu => h u (List.mem_reverse.mp hu),
    List.reverse_reverse]

theorem codePoints_minus (s : Str) : codePoints (Json.minus :: s) = 0x2d :: codePoints s := by
  cases s <;> rfl

theorem isWhite_digit {u : UInt16} (h : isDigit u = true) : isWhite u = false := by
  simp only [isDigit, Bool.and_eq_true, decide_eq_true_eq, UInt16.le_iff_toNat_le] at h
  simp only [isWhite, Bool.or_eq_false_iff, Bool.and_eq_false_iff, decide_eq_false_iff_not,
    beq_eq_false_iff_ne, UInt16.le_iff_toNat_le, ne_eq, ← UInt16.toNat_inj]
  simp only [UInt16.reduceToNat] at h ⊢
  omega

theorem decimal_digits (n : Nat) : (decimal n).all isDigit = true ∧ decimal n ≠ [] := by
  have h := isCanonicalDecimal_decimal n
  rw [isCanonicalDecimal, Bool.or_eq_true] at h
  rcases h with h | h
  · rw [beq_iff_eq.mp h]
    decide
  · simp only [Bool.and_eq_true] at h
    exact ⟨h.1.1, by simpa using h.1.2⟩

theorem digits_decimal (name : String) (n : Nat) : digits rt name (decimal n) = .ok n := by
  obtain ⟨hdigits, hne⟩ := decimal_digits n
  rw [digits, if_neg (by simpa using hne), if_pos hdigits, digitsValue_decimal]

/-- A number that reaches the argument as its text is the argument, or is refused. -/
theorem u32Arg_int {name : String} {n : Int} {m : Nat} (h : u32Arg rt name (dumpsInt n) = .ok m) :
    (m : Int) = n := by
  have hne : dumpsInt n ≠ [] := by
    rw [dumpsInt]
    split
    · simp
    · exact (decimal_digits _).2
  rw [u32Arg, if_neg (by simpa using hne)] at h
  by_cases hneg : n < 0
  · have hvisible : ∀ u ∈ dumpsInt n, isWhite u = false := by
      rw [dumpsInt, if_pos hneg]
      rintro u (_ | ⟨_, hu⟩)
      · decide
      · exact isWhite_digit (List.all_eq_true.mp (decimal_digits _).1 u hu)
    rw [strip_of_visible hvisible, digits, if_neg (by simpa using hne), dumpsInt, if_pos hneg,
      if_neg (by simp [Json.minus, isDigit]), if_neg] at h
    · cases h
    · rw [codePoints_minus]
      simp
  · rw [dumpsInt, if_neg hneg, strip_of_visible fun u hu =>
      isWhite_digit (List.all_eq_true.mp (decimal_digits _).1 u hu), digits_decimal] at h
    simp only [bind, Except.bind] at h
    split at h
    · cases h
    · obtain rfl := Except.ok.inj h
      omega

end Numbers

end Concordia.Shared.CasperExecutor
