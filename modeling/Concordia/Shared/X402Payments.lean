import Concordia.Locke.Messages

/-! Settlement of x402 payments: what the environment selects, and the direct verification of a
Casper transfer against the explorer, with its bounded retries. -/
namespace Concordia.Shared.X402Payments
open Concordia.Python Concordia.Locke
open Concordia.Js hiding Value

/-- What an attempt can raise. -/
inductive Failure where
  | valueError (text : Str)
  | transport (name : Str)
  | httpStatus (code : Nat)
  | notJson
  deriving DecidableEq

/-- Library functions, the demo proofs, and the drivers that ask another service. -/
structure Runtime where
  sha256 : List UInt8 → Contract.Bytes32
  lower : Str → Str
  /-- `int(text)`. -/
  parseInt : Str → Option Int
  /-- Whether `float(text)` succeeds. -/
  isFloat : Str → Bool
  str : Value → Str
  repr : Value → Str
  /-- `f"{type(exc).__name__}: {exc}"`. -/
  describe : Failure → Str
  verifyDemoPaymentProof : Str → Str → Bool
  redeemProvider : Str → Str → Dict
  facilitator : Str → Str → Dict

/-- `os.environ`. -/
abbrev Environment := String → Option Str

variable (rt : Runtime) (env : Environment)

section Configuration

def getenv (name default : String) : Str := (env name).getD (js default)

def rstripSlash (s : Str) : Str := (s.reverse.dropWhile fun u => u == 0x2f).reverse

/-- The entries of `x402_status` that settlement reads. -/
structure Status where
  mode : Str
  directCasperSettlementConfigured : Bool
  network : Str
  csprLiveApi : Str
  retryAttempts : Int

def parseEnvInt (text : Str) : Except Failure Int :=
  match rt.parseInt text with
  | some n => .ok n
  | none => .error (.valueError text)

def x402Status : Except Failure Status := do
  let mode := rt.lower (strip (getenv env "X402_SETTLEMENT_MODE" "demo"))
  let paymentAddress := strip (getenv env "X402_PAYMENT_ADDRESS" "")
  let receiverPublicKey := strip (getenv env "X402_PAYMENT_RECEIVER_PUBLIC_KEY" "")
  let retryAttempts ← parseEnvInt rt (getenv env "X402_MAX_ATTEMPTS" "4")
  let delay := getenv env "X402_RETRY_DELAY_SECONDS" "5"
  if rt.isFloat delay then
    return {
      mode
      directCasperSettlementConfigured :=
        mode == js "real" && (!paymentAddress.isEmpty || !receiverPublicKey.isEmpty)
      network := getenv env "X402_PAYMENT_NETWORK" "casper-testnet"
      csprLiveApi := rstripSlash (getenv env "X402_CSPR_LIVE_API" "https://api.testnet.cspr.live")
      retryAttempts }
  else .error (.valueError delay)

def facilitatorUrl : Str := rstripSlash (strip (getenv env "X402_FACILITATOR_URL" ""))
def providerUrl : Str := rstripSlash (strip (getenv env "X402_PROVIDER_URL" ""))

end Configuration

section Headers

def isHexUnit (u : UInt16) : Bool :=
  isDigit u || (0x41 ≤ u && u ≤ 0x46) || (0x61 ≤ u && u ≤ 0x66)

def lowerHexUnit (u : UInt16) : UInt16 := if 0x41 ≤ u && u ≤ 0x46 then u + 0x20 else u

/-- `_payment_hash`: `$` also matches before a final newline. -/
def paymentHash (paymentHeader : Str) : Option Str :=
  let text := strip paymentHeader
  let body := (after (js "casper:") text).getD text
  let hash := if body.getLast? = some 0x0a then body.dropLast else body
  if hash.length = 64 ∧ hash.all isHexUnit = true then some (hash.map lowerHexUnit) else none

/-- The first twelve hexadecimal digits of the digest, as a number. -/
def x402PaymentCorrelationId (resource : Str) : Nat :=
  Lib.Encoding.beValue ((rt.sha256 (utf8 resource)).toList.take 6)

end Headers

section Transfers

/-- `text.replace(needle, "")`. -/
def removeAll (needle : Str) : Nat → Str → Str
  | 0, s => s
  | _ + 1, [] => []
  | fuel + 1, u :: rest =>
    if needle.isPrefixOf (u :: rest) then removeAll needle fuel ((u :: rest).drop needle.length)
    else u :: removeAll needle fuel rest

def remove (needle : String) (s : Str) : Str := removeAll (js needle) s.length s

def normalizeText (s : Str) : Str :=
  strip (remove "0x" (remove "hash-" (remove "account-hash-" (rt.lower s))))

/-- `bool(value)`. -/
def truth : Value → Bool
  | .none => false
  | .bool b => b
  | .int n => n != 0
  | .float text => text != js "0.0" && text != js "-0.0"
  | .str s => !s.isEmpty
  | .list elements => !elements.isEmpty
  | .dict items => !items.isEmpty

def normalizeToken (value : Value) : Str :=
  normalizeText rt (if truth value then rt.str value else [])

mutual

def walkValues : Value → List Value
  | .dict items => walkItems items
  | .list elements => walkElements elements
  | v => [v]

def walkElements : List Value → List Value
  | [] => []
  | v :: rest => walkValues v ++ walkElements rest

def walkItems : List (Str × Value) → List Value
  | [] => []
  | (_, v) :: rest => walkValues v ++ walkItems rest

end

mutual

def amountCandidates : Value → List Int
  | .dict items => amountItems items
  | .list elements => amountElements elements
  | _ => []

def amountElements : List Value → List Int
  | [] => []
  | v :: rest => amountCandidates v ++ amountElements rest

def amountItems : List (Str × Value) → List Int
  | [] => []
  | (key, v) :: rest =>
    (if occurs (js "amount") (rt.lower key) then (rt.parseInt (rt.str v)).toList else []) ++
      amountCandidates v ++ amountItems rest

end

def expectedTargets : List Str :=
  ([normalizeText rt (getenv env "X402_PAYMENT_ADDRESS" ""),
    normalizeText rt (getenv env "X402_PAYMENT_ACCOUNT_HASH" ""),
    normalizeText rt (getenv env "X402_PAYMENT_RECEIVER_PUBLIC_KEY" "")].filter
      fun t => !t.isEmpty).dedup

/-- `value == "literal"`. -/
def isText (value : Value) (literal : String) : Bool :=
  match value with
  | .str s => s == js literal
  | _ => false

def invalidProof (status : String) (error : Str) (rest : Dict) : Dict :=
  [(js "valid", .bool false), (js "status", .str (js status)), (js "error", .str error)] ++ rest

/-- `_extract_transfer_proof_status`, once the amount is known. -/
def transferProof (expectedAmount : Int) (data : Dict) : Dict :=
  let targets := expectedTargets rt env
  if targets.isEmpty then
    invalidProof "not_configured" (js
      "X402_PAYMENT_ADDRESS or X402_PAYMENT_RECEIVER_PUBLIC_KEY is required for real Casper settlement") []
  else if !isText (data.get "status") "processed" then
    invalidProof "pending" (js "deploy status is " ++ rt.repr (data.get "status")) []
  else if truth (data.get "error_message") then
    invalidProof "rejected" (rt.str (data.get "error_message")) []
  else if !truth (data.get "transfers") then
    invalidProof "rejected" (js "deploy has no transfer records") []
  else
    let texts := (walkValues (data.get "transfers")).map (normalizeToken rt)
    let amounts := amountCandidates rt (data.get "transfers")
    if !(targets.any fun target => texts.any fun text => occurs target text) then
      invalidProof "rejected" (js "transfer target does not match configured x402 payee")
        [(js "expected_targets", .list ((targets.insertionSort fun a b => strLe a b).map .str))]
    else if !(amounts.any fun amount => expectedAmount ≤ amount) then
      invalidProof "rejected"
        (js "transfer amount is below required " ++ dumpsInt expectedAmount ++ js " motes")
        [(js "observed_amounts", .list (amounts.map .int))]
    else
      [(js "valid", .bool true), (js "status", .str (js "settled")),
        (js "expected_amount_motes", .int expectedAmount),
        (js "observed_amounts", .list (amounts.map .int))]

def extractTransferProofStatus (data : Dict) : Except Failure Dict :=
  (parseEnvInt rt (getenv env "X402_PAYMENT_AMOUNT" "1000000")).map
    fun expectedAmount => transferProof rt env expectedAmount data

end Transfers

section Settlement

/-- What one lookup at the explorer gives: the body is missing when it is not JSON. -/
inductive Answer where
  | raised (name : Str)
  | reply (statusCode : Nat) (body : Option Value)

/-- An attempt either decides, or leaves its `last_error` to the next one. -/
inductive Attempt where
  | returned (result : Dict)
  | again (lastError : Str)

def isSuccess (statusCode : Nat) : Bool := 200 ≤ statusCode && statusCode ≤ 299

/-- The deploy data that `raise_for_status` and `payload.get("data")` let through. -/
def deployData : Answer → Option Dict
  | .reply statusCode (some (.dict payload)) =>
    if isSuccess statusCode then
      match Dict.get payload "data" with
      | .dict data => some data
      | _ => none
    else none
  | _ => none

def deployUrl (status : Status) (hash : Str) : Str := status.csprLiveApi ++ js "/deploys/" ++ hash

def base (resource : Str) : Dict :=
  [(js "mode", .str (js "real_casper_transfer")), (js "resource", .str resource)]

def settledResult (status : Status) (resource hash : Str) (attempt : Nat) (proof : Dict) : Dict :=
  (js "status", .str (js "settled")) :: base resource ++
    [(js "network", .str status.network), (js "attempt", .int attempt),
      (js "payment_hash", .str hash), (js "proof", .dict proof),
      (js "cspr_live_url", .str (deployUrl status hash))]

def refusedResult (resource hash : Str) (proof : Dict) : Dict :=
  (js "status", proof.get "status") :: base resource ++
    [(js "payment_hash", .str hash), (js "proof", .dict proof)]

def strandedResult (status : Status) (resource hash : Str) (lastError : Option Str) : Dict :=
  (js "status", .str (js "stranded_payment")) :: base resource ++
    [(js "payment_hash", .str hash), (js "attempts", .int status.retryAttempts),
      (js "last_error", (lastError.map .str).getD .none),
      (js "message", .str (js
        "Casper transfer proof was not visible during the indexer-lag retry window."))]

/-- The body of the `try`, on data that was found. -/
def judge (status : Status) (resource hash : Str) (attempt : Nat) (more : Bool) (data : Dict) :
    Attempt :=
  match extractTransferProofStatus rt env data with
  | .error failure => .again (rt.describe failure)
  | .ok proof =>
    if isText (proof.get "status") "pending" && more then
      .again (match proof.get "error" with | .str text => text | _ => [])
    else if truth (proof.get "valid") then
      .returned (settledResult status resource hash attempt proof)
    else .returned (refusedResult resource hash proof)

/-- One turn of the retry loop; `more` says that it is not the last. -/
def attemptOnce (status : Status) (resource hash : Str) (attempt : Nat) (more : Bool) :
    Answer → Attempt
  | .raised name => .again (rt.describe (.transport name))
  | .reply statusCode body =>
    if statusCode ∈ [404, 409, 425, 429] ∧ more then
      .again (js "CSPR.live returned " ++ decimal statusCode ++ js "; retrying for indexer lag")
    else if !isSuccess statusCode then .again (rt.describe (.httpStatus statusCode))
    else match body with
      | none => .again (rt.describe .notJson)
      | some _ =>
        match deployData (.reply statusCode body) with
        | some data => judge rt env status resource hash attempt more data
        | none => .again (js "CSPR.live response did not include deploy data")

/-- `for attempt in range(1, attempts + 1)`, with the attempts that are left. -/
def retry (status : Status) (resource hash : Str) (answers : Nat → Answer) (lastError : Option Str) :
    (left attempt : Nat) → Dict
  | 0, _ => strandedResult status resource hash lastError
  | left + 1, attempt =>
    match attemptOnce rt env status resource hash attempt (left != 0) (answers attempt) with
    | .returned result => result
    | .again error => retry status resource hash answers (some error) left (attempt + 1)

def verifyCasperTransferPaymentWithRetry (resource paymentHeader : Str)
    (explorer : Str → Nat → Answer) : Except Failure Dict :=
  match paymentHash paymentHeader with
  | none => .ok [(js "status", .str (js "payment_required")),
      (js "mode", .str (js "real_casper_transfer")),
      (js "error", .str (js "X-Payment must be a Casper deploy hash"))]
  | some hash => do
    let status ← x402Status rt env
    return retry rt env status resource hash (explorer (deployUrl status hash)) none
      status.retryAttempts.toNat 1

def settleX402PaymentWithRetry (resource paymentHeader : Str) (explorer : Str → Nat → Answer) :
    Except Failure Dict := do
  let status ← x402Status rt env
  if status.mode ≠ js "real" then
    let paid := rt.verifyDemoPaymentProof resource paymentHeader
    return [(js "status", .str (js (if paid then "demo_verified" else "payment_required"))),
      (js "mode", .str (js "demo")), (js "resource", .str resource),
      (js "network", .str status.network)]
  else if paymentHeader.isEmpty then
    return [(js "status", .str (js "payment_required")), (js "mode", .str (js "real")),
      (js "resource", .str resource), (js "network", .str status.network)]
  else if !(providerUrl env).isEmpty && (facilitatorUrl env).isEmpty then
    return rt.redeemProvider resource paymentHeader
  else if (paymentHash paymentHeader).isSome && status.directCasperSettlementConfigured then
    verifyCasperTransferPaymentWithRetry rt env resource paymentHeader explorer
  else if (facilitatorUrl env).isEmpty then
    return [(js "status", .str (js "not_configured")), (js "mode", .str (js "real")),
      (js "error", .str (js "X402_FACILITATOR_URL is required for real settlement"))]
  else return rt.facilitator resource paymentHeader

end Settlement

/-! A direct settlement looks at the hash and at what the chain says about it, at nothing else. -/
section Law

/-- The environment that sends every payment hash to the explorer. -/
def DirectMode (status : Status) : Prop :=
  x402Status rt env = .ok status ∧ status.mode = js "real" ∧
    status.directCasperSettlementConfigured = true ∧
    (providerUrl env = [] ∨ facilitatorUrl env ≠ [])

/-- A settlement request, and the number of lookups for which the index still lags behind. -/
structure Request where
  resource : Str
  paymentHeader : Str
  lag : Nat

/-- The explorer over a fixed chain: a lagging index answers 404. -/
def explorerFor (chain : Str → Answer) (lag : Nat) (url : Str) (attempt : Nat) : Answer :=
  if attempt ≤ lag then .reply 404 none else chain url

/-- The request is answered with a settlement of this hash. -/
def Settles (chain : Str → Answer) (request : Request) (hash : Str) : Prop :=
  paymentHash request.paymentHeader = some hash ∧
    ∃ result, settleX402PaymentWithRetry rt env request.resource request.paymentHeader
        (explorerFor chain request.lag) = .ok result ∧
      result.get "status" = .str (js "settled")

/-- The chain holds a processed transfer to the payee under this hash, large enough. -/
def Passes (data : Dict) : Prop :=
  ∃ proof, extractTransferProofStatus rt env data = .ok proof ∧ truth (proof.get "valid") = true

/-- Some value of the transfer records reads as the resource's correlation id. -/
def CarriesId (data : Dict) (resource : Str) : Prop :=
  ∃ v ∈ walkValues (data.get "transfers"), rt.str v = decimal (x402PaymentCorrelationId rt resource)

/-- The request presents, within its attempts, a hash under which the chain holds `data`. -/
def Presents (status : Status) (chain : Str → Answer) (request : Request) (hash : Str)
    (data : Dict) : Prop :=
  paymentHash request.paymentHeader = some hash ∧ (request.lag : Int) < status.retryAttempts ∧
    deployData (chain (deployUrl status hash)) = some data

variable {rt env} {status : Status} {resource hash : Str}

theorem get_cons_status (v : Value) (rest : Dict) :
    Dict.get ((js "status", v) :: rest) "status" = v := by
  simp [Dict.get]

theorem settled_status (attempt : Nat) (proof : Dict) :
    (settledResult status resource hash attempt proof).get "status" = .str (js "settled") :=
  get_cons_status _ _

theorem refused_status (proof : Dict) :
    (refusedResult resource hash proof).get "status" = proof.get "status" :=
  get_cons_status _ _

theorem stranded_status (lastError : Option Str) :
    (strandedResult status resource hash lastError).get "status" =
      .str (js "stranded_payment") :=
  get_cons_status _ _

theorem invalidProof_status (reason : String) (error : Str) (rest : Dict) :
    (invalidProof reason error rest).get "status" = .str (js reason) := by
  have hne : (js "status" == js "valid") = false := by decide
  simp [invalidProof, Dict.get, List.lookup_cons, hne]

theorem invalidProof_valid (reason : String) (error : Str) (rest : Dict) :
    (invalidProof reason error rest).get "valid" = .bool false := by
  simp [invalidProof, Dict.get]

/-- Of the proofs, exactly the valid ones say `settled`. -/
theorem transferProof_status (expectedAmount : Int) (data : Dict) :
    truth ((transferProof rt env expectedAmount data).get "valid") = true ↔
      (transferProof rt env expectedAmount data).get "status" = .str (js "settled") := by
  have hinvalid : ∀ reason error rest, js reason ≠ js "settled" →
      (truth ((invalidProof reason error rest).get "valid") = true ↔
        (invalidProof reason error rest).get "status" = .str (js "settled")) := by
    intro reason error rest hreason
    rw [invalidProof_valid, invalidProof_status]
    constructor
    · intro h
      cases h
    · intro h
      exact absurd (Value.str.inj h) hreason
  unfold transferProof
  dsimp only
  split_ifs
  any_goals exact hinvalid _ _ _ (by decide)
  have hne : (js "status" == js "valid") = false := by decide
  simp [Dict.get, truth, List.lookup_cons, hne]

theorem extract_eq {data proof : Dict} (h : extractTransferProofStatus rt env data = .ok proof) :
    ∃ amount, proof = transferProof rt env amount data := by
  unfold extractTransferProofStatus at h
  cases hamount : parseEnvInt rt (getenv env "X402_PAYMENT_AMOUNT" "1000000") with
  | error failure =>
    rw [hamount] at h
    cases h
  | ok amount =>
    rw [hamount] at h
    exact ⟨amount, (Except.ok.inj h).symm⟩

theorem judge_passes (attempt : Nat) (more : Bool) {data : Dict} (h : Passes rt env data) :
    ∃ proof, judge rt env status resource hash attempt more data =
      .returned (settledResult status resource hash attempt proof) := by
  obtain ⟨proof, hproof, hvalid⟩ := h
  refine ⟨proof, ?_⟩
  obtain ⟨amount, rfl⟩ := extract_eq hproof
  have hstatus := (transferProof_status amount data).mp hvalid
  have hpending : isText (.str (js "settled")) "pending" = false := by decide
  simp [judge, hproof, hstatus, hpending, hvalid]

/-- Without a passing transfer an attempt settles nothing. -/
def Attempt.Unsettled : Attempt → Prop
  | .returned result => result.get "status" ≠ .str (js "settled")
  | .again _ => True

theorem judge_fails (attempt : Nat) (more : Bool) {data : Dict} (h : ¬ Passes rt env data) :
    (judge rt env status resource hash attempt more data).Unsettled := by
  unfold judge
  cases hproof : extractTransferProofStatus rt env data with
  | error failure => trivial
  | ok proof =>
    have hvalid : truth (proof.get "valid") ≠ true := fun hv => h ⟨proof, hproof, hv⟩
    obtain ⟨amount, rfl⟩ := extract_eq hproof
    have hstatus := fun heq => hvalid ((transferProof_status amount data).mpr heq)
    simp only [hvalid, Bool.false_eq_true, if_false]
    split
    · trivial
    · change (refusedResult resource hash _).get "status" ≠ _
      rw [refused_status]
      exact hstatus

theorem attempt_passes (attempt : Nat) (more : Bool) {answer : Answer} {data : Dict}
    (hdata : deployData answer = some data) (h : Passes rt env data) :
    ∃ proof, attemptOnce rt env status resource hash attempt more answer =
      .returned (settledResult status resource hash attempt proof) := by
  unfold deployData at hdata
  split at hdata
  case h_2 => contradiction
  case h_1 statusCode payload =>
    split at hdata
    case isFalse => contradiction
    case isTrue hsuccess =>
      have hretried : statusCode ∉ [404, 409, 425, 429] := by
        intro hin
        have hrange : 200 ≤ statusCode ∧ statusCode ≤ 299 := by simpa [isSuccess] using hsuccess
        simp only [List.mem_cons, List.not_mem_nil, or_false] at hin
        omega
      obtain ⟨proof, hproof⟩ : ∃ proof, judge rt env status resource hash attempt more data =
          .returned (settledResult status resource hash attempt proof) := judge_passes attempt more h
      refine ⟨proof, ?_⟩
      rw [← hproof]
      simp only [attemptOnce, hretried, false_and, if_false, hsuccess, Bool.not_true,
        Bool.false_eq_true, deployData, if_true, hdata]

theorem attempt_fails (attempt : Nat) (more : Bool) {answer : Answer}
    (h : ∀ data, deployData answer = some data → ¬ Passes rt env data) :
    (attemptOnce rt env status resource hash attempt more answer).Unsettled := by
  cases answer with
  | raised name => trivial
  | reply statusCode body =>
    unfold attemptOnce
    simp only
    split_ifs
    · trivial
    · trivial
    · cases body with
      | none => trivial
      | some payload =>
        cases hdata : deployData (.reply statusCode (some payload)) with
        | none => trivial
        | some data =>
          exact judge_fails attempt more (h data hdata)

theorem attempt_lagging (attempt : Nat) (more : Bool) :
    ∃ error, attemptOnce rt env status resource hash attempt more (.reply 404 none) =
      .again error := by
  cases more with
  | true => exact ⟨_, rfl⟩
  | false => exact ⟨_, rfl⟩

/-- The loop settles exactly when it comes to a lookup that finds a passing transfer. -/
theorem retry_settles (chain : Str → Answer) (lag : Nat) (url : Str) (left attempt : Nat)
    (lastError : Option Str) :
    (retry rt env status resource hash (explorerFor chain lag url) lastError left attempt).get
        "status" = .str (js "settled") ↔
      0 < left ∧ lag + 2 ≤ attempt + left ∧
        ∃ data, deployData (chain url) = some data ∧ Passes rt env data := by
  induction left generalizing attempt lastError with
  | zero =>
    rw [retry, stranded_status]
    constructor
    · intro h
      exact absurd (Value.str.inj h) (by decide)
    · rintro ⟨hpos, -⟩
      exact absurd hpos (Nat.lt_irrefl 0)
  | succ left ih =>
    rw [retry]
    by_cases hlag : attempt ≤ lag
    · -- the index still lags: this attempt is spent
      have hanswer : explorerFor chain lag url attempt = .reply 404 none := by
        simp [explorerFor, hlag]
      obtain ⟨error, herror⟩ : ∃ error, attemptOnce rt env status resource hash attempt (left != 0)
          (.reply 404 none) = .again error := attempt_lagging attempt (left != 0)
      rw [hanswer, herror]
      simp only
      rw [ih]
      constructor
      · rintro ⟨hpos, hreach, hdata⟩
        exact ⟨Nat.succ_pos left, by omega, hdata⟩
      · rintro ⟨-, hreach, hdata⟩
        exact ⟨by omega, by omega, hdata⟩
    · have hanswer : explorerFor chain lag url attempt = chain url := by
        simp [explorerFor, hlag]
      rw [hanswer]
      by_cases hdata : ∃ data, deployData (chain url) = some data ∧ Passes rt env data
      · obtain ⟨data, hfound, hpasses⟩ := hdata
        obtain ⟨proof, hproof⟩ : ∃ proof, attemptOnce rt env status resource hash attempt
            (left != 0) (chain url) = .returned (settledResult status resource hash attempt proof) :=
          attempt_passes attempt (left != 0) hfound hpasses
        rw [hproof]
        simp only
        rw [settled_status]
        refine iff_of_true rfl ⟨Nat.succ_pos left, by omega, data, hfound, hpasses⟩
      · have hfails : (attemptOnce rt env status resource hash attempt (left != 0)
            (chain url)).Unsettled :=
          attempt_fails attempt (left != 0) fun data hfound hpasses => hdata ⟨data, hfound, hpasses⟩
        revert hfails
        cases attemptOnce rt env status resource hash attempt (left != 0) (chain url) with
        | returned result =>
          intro hfails
          exact iff_of_false hfails fun h => hdata h.2.2
        | again error =>
          intro _
          simp only
          rw [ih]
          exact iff_of_false (fun h => hdata h.2.2) fun h => hdata h.2.2

theorem settle_direct (hmode : DirectMode rt env status) {header : Str}
    (hhash : paymentHash header = some hash) (explorer : Str → Nat → Answer) :
    settleX402PaymentWithRetry rt env resource header explorer =
      .ok (retry rt env status resource hash (explorer (deployUrl status hash)) none
        status.retryAttempts.toNat 1) := by
  obtain ⟨hstatus, hreal, hdirect, hprovider⟩ := hmode
  have hheader : header.isEmpty = false := by
    cases header with
    | nil =>
      have hnone : paymentHash [] = none := by decide
      rw [hnone] at hhash
      contradiction
    | cons u rest => rfl
  have hdelegates : (!(providerUrl env).isEmpty && (facilitatorUrl env).isEmpty) = false := by
    rcases hprovider with h | h
    · simp [h]
    · simp [h]
  have hverify : verifyCasperTransferPaymentWithRetry rt env resource header explorer =
      .ok (retry rt env status resource hash (explorer (deployUrl status hash)) none
        status.retryAttempts.toNat 1) := by
    unfold verifyCasperTransferPaymentWithRetry
    rw [hhash, hstatus]
    rfl
  unfold settleX402PaymentWithRetry
  rw [hstatus, hverify]
  change (if status.mode ≠ js "real" then _ else _) = _
  simp only [hreal, ne_eq, not_true_eq_false, if_false, hheader, Bool.false_eq_true, hdelegates,
    hhash, Option.isSome_some, hdirect, Bool.and_self, if_true]

/-- The resource plays no part in what settles. -/
theorem settles_iff (hmode : DirectMode rt env status) {chain : Str → Answer} {request : Request} :
    Settles rt env chain request hash ↔
      ∃ data, Presents status chain request hash data ∧ Passes rt env data := by
  unfold Settles Presents
  constructor
  · rintro ⟨hhash, result, hresult, hsettled⟩
    rw [settle_direct hmode hhash] at hresult
    obtain rfl := Except.ok.inj hresult
    obtain ⟨-, hreach, data, hdata, hpasses⟩ := (retry_settles _ _ _ _ _ _).mp hsettled
    exact ⟨data, ⟨hhash, by omega, hdata⟩, hpasses⟩
  · rintro ⟨data, ⟨hhash, hlag, hdata⟩, hpasses⟩
    refine ⟨hhash, _, settle_direct hmode hhash _, ?_⟩
    exact (retry_settles _ _ _ _ _ _).mpr ⟨by omega, by omega, data, hdata, hpasses⟩

/-- One payment buys one resource, and only the one whose correlation id it carries. The module
keeps nothing between requests, so a run is its list of requests. -/
def OneResource (rt : Runtime) (env : Environment) (status : Status) (chain : Str → Answer)
    (requests : List Request) : Prop :=
  (∀ p ∈ requests, ∀ q ∈ requests, ∀ hash, Settles rt env chain p hash →
    Settles rt env chain q hash → p.resource = q.resource) ∧
  ∀ p ∈ requests, ∀ hash data, Settles rt env chain p hash →
    deployData (chain (deployUrl status hash)) = some data → CarriesId rt data p.resource

/-- Whoever presents a passing transfer asks for the resource whose id it carries, and nobody
presents it for another one. -/
def BoundByPayers (rt : Runtime) (env : Environment) (status : Status) (chain : Str → Answer)
    (requests : List Request) : Prop :=
  ∀ p ∈ requests, ∀ hash data, Presents status chain p hash data → Passes rt env data →
    CarriesId rt data p.resource ∧
      ∀ q ∈ requests, Presents status chain q hash data → q.resource = p.resource

/-- The code binds no transfer to a resource: the law holds of the runs whose payers keep it. -/
theorem payment_law (hmode : DirectMode rt env status) (chain : Str → Answer)
    (requests : List Request) :
    OneResource rt env status chain requests ↔ BoundByPayers rt env status chain requests := by
  constructor
  · rintro ⟨hsingle, hcarries⟩ p hp hash data hpresents hpasses
    have hsettles : Settles rt env chain p hash :=
      (settles_iff hmode).mpr ⟨data, hpresents, hpasses⟩
    refine ⟨hcarries p hp hash data hsettles hpresents.2.2, ?_⟩
    intro q hq hother
    exact hsingle q hq p hp hash ((settles_iff hmode).mpr ⟨data, hother, hpasses⟩) hsettles
  · intro hbound
    constructor
    · intro p hp q hq hash hpsettles hqsettles
      obtain ⟨data, hpresents, hpasses⟩ := (settles_iff hmode).mp hpsettles
      obtain ⟨other, hother, -⟩ := (settles_iff hmode).mp hqsettles
      obtain rfl := Option.some.inj (hpresents.2.2.symm.trans hother.2.2)
      exact ((hbound p hp hash data hpresents hpasses).2 q hq hother).symm
    · intro p hp hash data hpsettles hdata
      obtain ⟨found, hpresents, hpasses⟩ := (settles_iff hmode).mp hpsettles
      obtain rfl := Option.some.inj (hpresents.2.2.symm.trans hdata)
      exact (hbound p hp hash found hpresents hpasses).1

end Law

section Sample

/-- `int(text)` of plain digits. -/
def plainInt (text : Str) : Option Int :=
  if !text.isEmpty && text.all isDigit then some (digitsValue text) else none

def plainStr : Value → Str
  | .str s => s
  | .int n => dumpsInt n
  | _ => []

def sampleRuntime : Runtime where
  sha256 _ := Vector.replicate 32 0
  lower := List.map fun u => if 0x41 ≤ u && u ≤ 0x5a then u + 0x20 else u
  parseInt := plainInt
  isFloat text := (plainInt text).isSome
  str := plainStr
  repr := plainStr
  describe _ := []
  verifyDemoPaymentProof _ _ := false
  redeemProvider _ _ := []
  facilitator _ _ := []

/-- Real settlement to one account; everything else at its default. -/
def sampleEnv : Environment
  | "X402_SETTLEMENT_MODE" => some (js "real")
  | "X402_PAYMENT_ADDRESS" => some (js "account-hash-" ++ List.replicate 64 0x62)
  | _ => none

def sampleStatus : Status where
  mode := js "real"
  directCasperSettlementConfigured := true
  network := js "casper-testnet"
  csprLiveApi := js "https://api.testnet.cspr.live"
  retryAttempts := 4

/-- One transfer of a million motes to the account, for the report on proposal A. -/
def sampleTransfer : Dict :=
  [(js "status", .str (js "processed")), (js "transfers", .list [.dict
    [(js "to_account_hash", .str (List.replicate 64 0x62)), (js "amount", .str (js "1000000")),
      (js "id", .int 0)]])]

def sampleChain (_ : Str) : Answer := .reply 200 (some (.dict [(js "data", .dict sampleTransfer)]))

def reportRequest (proposal : String) : Request where
  resource := js "concordia-governance-report:" ++ js proposal
  paymentHeader := List.replicate 64 0x61
  lag := 1

theorem sample_direct : DirectMode sampleRuntime sampleEnv sampleStatus := by
  refine ⟨?_, rfl, rfl, .inl (by decide)⟩
  rfl

theorem sample_passes : Passes sampleRuntime sampleEnv sampleTransfer :=
  ⟨transferProof sampleRuntime sampleEnv 1000000 sampleTransfer, by rfl, by decide +kernel⟩

theorem report_presents (proposal : String) : Presents sampleStatus sampleChain
    (reportRequest proposal) (List.replicate 64 0x61) sampleTransfer := by
  refine ⟨?_, by simp [reportRequest, sampleStatus], rfl⟩
  change paymentHash (List.replicate 64 0x61) = _
  decide +kernel

theorem payment_law_sample :
    OneResource sampleRuntime sampleEnv sampleStatus sampleChain [reportRequest "A"] ↔
      BoundByPayers sampleRuntime sampleEnv sampleStatus sampleChain [reportRequest "A"] :=
  payment_law sample_direct sampleChain [reportRequest "A"]

/-- One transfer, presented for two reports, settles both. -/
theorem one_payment_two_reports :
    ¬ ∀ (rt : Runtime) (env : Environment) (status : Status) (chain : Str → Answer)
      (requests : List Request), DirectMode rt env status →
        OneResource rt env status chain requests := by
  intro hall
  obtain ⟨hsingle, -⟩ := hall sampleRuntime sampleEnv sampleStatus sampleChain
    [reportRequest "A", reportRequest "B"] sample_direct
  have hsettles : ∀ proposal, Settles sampleRuntime sampleEnv sampleChain (reportRequest proposal)
      (List.replicate 64 0x61) := fun proposal =>
    (settles_iff sample_direct).mpr ⟨_, report_presents proposal, sample_passes⟩
  have hsame := hsingle (reportRequest "A") (by simp) (reportRequest "B") (by simp) _
    (hsettles "A") (hsettles "B")
  have hdiffer : js "A" = js "B" := List.append_cancel_left hsame
  exact absurd hdiffer (by decide)

end Sample

end Concordia.Shared.X402Payments
