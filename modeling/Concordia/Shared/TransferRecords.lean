import Concordia.Shared.X402Payments

/-! What a transfer proof goes by, beside the transfer records it is about: the payee and the amount
are looked for one by one, over all the values of all the records. -/
namespace Concordia.Shared.X402Payments
open Concordia.Python Concordia.Locke
open Concordia.Js hiding Value

section Records

mutual

/-- The records inside a value, at any depth. -/
def recordsIn : Value → List Dict
  | .dict items => items :: recordsInItems items
  | .list elements => recordsInElements elements
  | _ => []

def recordsInElements : List Value → List Dict
  | [] => []
  | v :: rest => recordsIn v ++ recordsInElements rest

def recordsInItems : List (Str × Value) → List Dict
  | [] => []
  | (_, v) :: rest => recordsIn v ++ recordsInItems rest

end

/-- The members that can name the recipient of a transfer; the tests write the first one. -/
def recipientFields : List String :=
  ["target_account_hash", "target", "to_account_hash", "to", "recipient"]

end Records

variable (rt : Runtime) (env : Environment)

section Payments

/-- The record is a transfer of enough to a payee. -/
def pays (expectedAmount : Int) (record : Dict) : Bool :=
  (recipientFields.any fun field => (record.lookup (js field)).any fun recipient =>
    (expectedTargets rt env).contains (normalizeToken rt recipient)) &&
  (rt.parseInt (rt.str (record.get "amount"))).any fun amount => expectedAmount ≤ amount

/-- The response holds one transfer record that pays. -/
def OneRecordPays (expectedAmount : Int) (data : Dict) : Prop :=
  ∃ record ∈ recordsIn (data.get "transfers"), pays rt env expectedAmount record = true

/-- The response is one of a processed deploy with transfers, and a payee is configured. -/
def isSettledDeploy (data : Dict) : Bool :=
  !(expectedTargets rt env).isEmpty && isText (data.get "status") "processed" &&
    !truth (data.get "error_message") && truth (data.get "transfers")

/-- Some value of the transfers has a payee in its text. -/
def namesPayee (data : Dict) : Bool :=
  (expectedTargets rt env).any fun target =>
    (walkValues (data.get "transfers")).any fun leaf => occurs target (normalizeToken rt leaf)

/-- Some member of the transfers with `amount` in its name is large enough. -/
def namesAmount (expectedAmount : Int) (data : Dict) : Bool :=
  (amountCandidates rt (data.get "transfers")).any fun amount => expectedAmount ≤ amount

end Payments

section Law
variable {rt env} {expectedAmount : Int} {data : Dict}

theorem transferProof_valid : truth ((transferProof rt env expectedAmount data).get "valid") =
    (isSettledDeploy rt env data && namesPayee rt env data && namesAmount rt expectedAmount data) := by
  have hinvalid (status : String) (error : Str) (rest : Dict) :
      truth ((invalidProof status error rest).get "valid") = false := by
    rw [invalidProof_valid]
    rfl
  unfold transferProof
  dsimp only
  cases htargets : (expectedTargets rt env).isEmpty with
  | true => simp [isSettledDeploy, htargets, hinvalid]
  | false =>
    cases hstatus : isText (data.get "status") "processed" with
    | false => simp [isSettledDeploy, hstatus, hinvalid]
    | true =>
      cases herror : truth (data.get "error_message") with
      | true => simp [isSettledDeploy, herror, hinvalid]
      | false =>
        cases htransfers : truth (data.get "transfers") with
        | false => simp [isSettledDeploy, htransfers, hinvalid]
        | true =>
          have hsettled : isSettledDeploy rt env data = true := by
            simp [isSettledDeploy, htargets, hstatus, herror, htransfers]
          have hpayee : ((expectedTargets rt env).any fun target =>
              ((walkValues (data.get "transfers")).map (normalizeToken rt)).any
                fun text => occurs target text) = namesPayee rt env data := by
            simp only [namesPayee, List.any_map, Function.comp_def]
          have hamount : ((amountCandidates rt (data.get "transfers")).any
              fun amount => decide (expectedAmount ≤ amount)) =
              namesAmount rt expectedAmount data := rfl
          simp only [hsettled, hpayee, hamount, Bool.not_true, Bool.false_eq_true, if_false,
            Bool.true_and]
          cases namesPayee rt env data with
          | false => simp [hinvalid]
          | true =>
            cases namesAmount rt expectedAmount data with
            | false => simp [hinvalid]
            | true => simp [Dict.get, truth]

theorem passes_iff (h : parseEnvInt rt (getenv env "X402_PAYMENT_AMOUNT" "1000000") =
    .ok expectedAmount) : Passes rt env data ↔ isSettledDeploy rt env data = true ∧
      namesPayee rt env data = true ∧ namesAmount rt expectedAmount data = true := by
  have hextract : extractTransferProofStatus rt env data =
      .ok (transferProof rt env expectedAmount data) := by
    rw [extractTransferProofStatus, h]
    rfl
  rw [Passes, hextract]
  simp only [Except.ok.injEq, exists_eq_left', transferProof_valid, Bool.and_eq_true, and_assoc]

/-- A response that is reported valid holds a transfer record that pays. -/
def SoundOn (rt : Runtime) (env : Environment) (data : Dict) : Prop :=
  ∀ expectedAmount, parseEnvInt rt (getenv env "X402_PAYMENT_AMOUNT" "1000000") =
    .ok expectedAmount → Passes rt env data → OneRecordPays rt env expectedAmount data

/-- The report of a response is sound exactly when a record of it pays, or one of the searches that
do not look at records finds nothing. -/
theorem transfer_proof_iff (rt : Runtime) (env : Environment) (data : Dict) :
    SoundOn rt env data ↔
      ∀ expectedAmount, parseEnvInt rt (getenv env "X402_PAYMENT_AMOUNT" "1000000") =
        .ok expectedAmount →
        isSettledDeploy rt env data = false ∨ namesPayee rt env data = false ∨
          namesAmount rt expectedAmount data = false ∨ OneRecordPays rt env expectedAmount data := by
  constructor
  · intro hsound expectedAmount hexpected
    by_cases hpasses : Passes rt env data
    · exact .inr (.inr (.inr (hsound expectedAmount hexpected hpasses)))
    · rw [passes_iff hexpected] at hpasses
      by_contra hnot
      simp only [not_or, Bool.not_eq_false] at hnot
      exact hpasses ⟨hnot.1, hnot.2.1, hnot.2.2.1⟩
  · intro hcondition expectedAmount hexpected hpasses
    obtain ⟨hsettled, hpayee, hamount⟩ := (passes_iff hexpected).mp hpasses
    rcases hcondition expectedAmount hexpected with h | h | h | h
    · rw [hsettled] at h
      cases h
    · rw [hpayee] at h
      cases h
    · rw [hamount] at h
      cases h
    · exact h

end Law

section Sample

def processedDeploy (transfers : List Dict) : Dict :=
  [(js "status", .str (js "processed")), (js "error_message", .none),
    (js "transfers", .list (transfers.map .dict))]

def transferBetween (sender recipient : UInt16) (amount : String) : Dict :=
  [(js "from_account_hash", .str (js "account-hash-" ++ List.replicate 64 sender)),
    (js "target_account_hash", .str (js "account-hash-" ++ List.replicate 64 recipient)),
    (js "amount", .str (js amount))]

/-- The payee gets one mote, and somebody else the amount. -/
def scatteredDeploy : Dict := processedDeploy
  [transferBetween 0x61 0x62 "1", transferBetween 0x61 0x63 "1000000"]

/-- The payee sends the amount to somebody else. -/
def payeeSends : Dict := processedDeploy [transferBetween 0x62 0x63 "1000000"]

/-- Evidence from two records, and a payee that is the sender, pass for a payment. -/
theorem scattered_evidence_passes :
    ¬ SoundOn sampleRuntime sampleEnv scatteredDeploy ∧
      ¬ SoundOn sampleRuntime sampleEnv payeeSends := by
  have hexpected : parseEnvInt sampleRuntime (getenv sampleEnv "X402_PAYMENT_AMOUNT" "1000000") =
      .ok 1000000 := by rfl
  have hpasses (data : Dict) (h : (isSettledDeploy sampleRuntime sampleEnv data &&
      namesPayee sampleRuntime sampleEnv data && namesAmount sampleRuntime 1000000 data) = true) :
      Passes sampleRuntime sampleEnv data := by
    rw [Bool.and_eq_true, Bool.and_eq_true] at h
    exact (passes_iff hexpected).mpr ⟨h.1.1, h.1.2, h.2⟩
  have hnone (data : Dict) (h : ((recordsIn (data.get "transfers")).any
      (pays sampleRuntime sampleEnv 1000000)) = false) :
      ¬ OneRecordPays sampleRuntime sampleEnv 1000000 data := by
    rintro ⟨record, hmem, hpays⟩
    rw [List.any_eq_false] at h
    exact h record hmem hpays
  constructor
  · intro hsound
    exact hnone scatteredDeploy (by decide +kernel)
      (hsound 1000000 hexpected (hpasses scatteredDeploy (by decide +kernel)))
  · intro hsound
    exact hnone payeeSends (by decide +kernel)
      (hsound 1000000 hexpected (hpasses payeeSends (by decide +kernel)))

end Sample
end Concordia.Shared.X402Payments
