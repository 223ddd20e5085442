import Concordia.Js.Utf8
import Concordia.Verify.Encoders

/-! Signed native transfer deploys: the byte reader, and the checks against what the caller
expects. A thrown `Error` is its message. -/
namespace Concordia.Verify.NativeDeploy
open Concordia.Js Concordia.Lib.Encoding

def maxDeployBytes : Nat := 4 * 1024 * 1024
def maxVectorItems : Nat := 1024

structure PublicKey where
  algorithm : Nat
  raw : List UInt8
  deriving DecidableEq

def PublicKey.encoded (key : PublicKey) : List UInt8 := key.algorithm.toUInt8 :: key.raw

/-- Hashing, the fatal UTF-8 decoder, and `approvalSignatureValid` with a throw taken as false. -/
structure Runtime where
  blake2b256 : List UInt8 → List UInt8
  decodeUtf8 : List UInt8 → Option JsString
  approvalSignatureValid : PublicKey → List UInt8 → List UInt8 → Bool

structure SignedNativeTransferExpectation where
  signedDeployHex : Value
  sourceAccountHash : Value
  recipientAccountHash : Value
  amountMotes : Value
  transferId : Value
  paymentAmountMotes : Value
  maxPaymentAmountMotes : Value

structure SignedNativeTransferFacts where
  canonicalSignedDeployHex : JsString
  deployHash : JsString
  bodyHash : JsString
  chainName : JsString
  sourcePublicKey : JsString
  sourceAccountHash : JsString
  recipientAccountHash : JsString
  amountMotes : JsString
  transferId : JsString
  paymentAmountMotes : JsString
  approvalSigners : List JsString
  deriving DecidableEq

section DeployReader

/-- A reader is its bytes that are still to come. -/
abbrev Reader := StateT (List UInt8) (Except String)

def demand (condition : Bool) (message : String) : Reader Unit := fun bytes =>
  if condition then .ok ((), bytes) else .error message

def read (length : Nat) (label : String) : Reader (List UInt8) := fun bytes =>
  if bytes.length < length then .error s!"signed deploy is truncated while reading {label}"
  else .ok (bytes.take length, bytes.drop length)

def u8 (label : String) : Reader Nat := do
  let bytes ← read 1 label
  return beValue bytes

def u32le (label : String) : Reader Nat := do
  let bytes ← read 4 label
  return beValue bytes.reverse

def u64le (label : String) : Reader Nat := do
  let bytes ← read 8 label
  return beValue bytes.reverse

def vectorBytes (label : String) : Reader (List UInt8) := do
  let length ← u32le s!"{label} length"
  demand (length ≤ maxDeployBytes) s!"{label} exceeds the verifier size limit"
  read length label

variable (rt : Runtime)

def text (label : String) : Reader JsString := do
  let raw ← vectorBytes label
  match rt.decodeUtf8 raw with
  | some value =>
    demand (utf8 value == raw) s!"{label} is not canonical UTF-8"
    return value
  | none => throw s!"{label} is not canonical UTF-8"

def parsePublicKey (label : String) : Reader PublicKey := do
  let algorithm ← u8 s!"{label} algorithm"
  demand (algorithm == 1 || algorithm == 2) s!"{label} uses an unsupported algorithm"
  let raw ← read (if algorithm == 1 then 32 else 33) s!"{label} bytes"
  demand (algorithm == 1 || raw.head? == some 2 || raw.head? == some 3)
    s!"{label} secp256k1 key is not compressed"
  return ⟨algorithm, raw⟩

def requireName (expected : String) : Reader Unit := do
  let actual ← text rt "runtime argument name"
  demand (actual == js expected) s!"runtime arguments must be exactly ordered; expected {expected}"

def parseCanonicalU512 (raw : List UInt8) (label : String) : Reader Nat :=
  match raw with
  | [] => throw s!"{label} is malformed"
  | length :: magnitude => do
    demand (length.toNat ≤ 64 && magnitude.length == length.toNat) s!"{label} is not canonical U512"
    demand (magnitude.getLast? != some 0) s!"{label} is not canonical U512"
    return beValue magnitude.reverse

def parseU512ClValue (label : String) : Reader Nat := do
  let raw ← vectorBytes s!"{label} CLValue"
  let type ← u8 s!"{label} CLType"
  demand (type == 8) s!"{label} must be U512"
  parseCanonicalU512 raw label

def parseTargetClValue : Reader JsString := do
  let raw ← vectorBytes "target CLValue"
  let type ← u8 "target CLType"
  demand (type == 11 && raw.length == 33 && raw.head? == some 0)
    "target must be an account-variant Key"
  return toHex raw.tail

def parseTransferIdClValue : Reader Nat := do
  let raw ← vectorBytes "transfer id CLValue"
  let optionType ← u8 "transfer id option CLType"
  let nestedType ← u8 "transfer id nested CLType"
  demand (optionType == 13 && nestedType == 5 && raw.length == 9 && raw.head? == some 1)
    "transfer id must be Some U64"
  return beValue raw.tail.reverse

structure Approval where
  signer : PublicKey
  signature : List UInt8
  deriving DecidableEq

def skipDependencies : Nat → Reader Unit
  | 0 => return ()
  | n + 1 => do
    let _ ← read 32 "dependency hash"
    skipDependencies n

def parseApprovals (signerHexes : List JsString) : Nat → Reader (List Approval)
  | 0 => return []
  | n + 1 => do
    let signer ← parsePublicKey "approval signer"
    let signatureAlgorithm ← u8 "approval signature algorithm"
    let signature ← read 64 "approval signature"
    demand (signatureAlgorithm == signer.algorithm)
      "approval signature algorithm does not match signer"
    let signerHex := toHex signer.encoded
    demand (!signerHexes.contains signerHex) "duplicate approval signer"
    let rest ← parseApprovals (signerHexes ++ [signerHex]) n
    return ⟨signer, signature⟩ :: rest

/-- The bytes from one position of the reader to a later one. -/
def between (start stop : List UInt8) : List UInt8 := start.take (start.length - stop.length)

/-- What the reader finds, with the byte ranges that are hashed. -/
structure Deploy where
  header : List UInt8
  sourcePublicKey : PublicKey
  suppliedBodyHash : List UInt8
  chainName : JsString
  suppliedDeployHash : List UInt8
  payment : List UInt8
  paymentAmount : Nat
  session : List UInt8
  recipient : JsString
  amount : Nat
  transferId : Nat
  approvals : List Approval
  deriving DecidableEq

/-- The reading half of `verifySignedNativeTransferDeploy`. -/
def parseDeploy : Reader Deploy := do
  let headerStart ← get
  let sourcePublicKey ← parsePublicKey "header account"
  let _ ← u64le "timestamp"
  let _ ← u64le "ttl"
  let _ ← u64le "gas price"
  let suppliedBodyHash ← read 32 "body hash"
  let dependencyCount ← u32le "dependency count"
  demand (dependencyCount ≤ maxVectorItems) "dependency count exceeds limit"
  skipDependencies dependencyCount
  let chainName ← text rt "chain name"
  let headerEnd ← get
  let suppliedDeployHash ← read 32 "deploy hash"
  let paymentStart ← get
  let paymentVariant ← u8 "payment variant"
  demand (paymentVariant == 0) "payment must be exactly ModuleBytes"
  let moduleBytes ← vectorBytes "payment module bytes"
  demand moduleBytes.isEmpty "standard payment module bytes must be empty"
  let paymentArguments ← u32le "payment argument count"
  demand (paymentArguments == 1) "payment arguments must be exactly amount"
  requireName rt "amount"
  let paymentAmount ← parseU512ClValue "payment amount"
  let sessionStart ← get
  let sessionVariant ← u8 "session variant"
  demand (sessionVariant == 5) "session must be exactly Transfer"
  let sessionArguments ← u32le "session argument count"
  demand (sessionArguments == 3) "session arguments must be exactly ordered target, amount, id"
  requireName rt "target"
  let recipient ← parseTargetClValue
  requireName rt "amount"
  let amount ← parseU512ClValue "transfer amount"
  requireName rt "id"
  let transferId ← parseTransferIdClValue
  let sessionEnd ← get
  let approvalCount ← u32le "approval count"
  demand (approvalCount != 0 && approvalCount ≤ maxVectorItems)
    "signed deploy requires a bounded, non-empty approval set"
  let approvals ← parseApprovals [] approvalCount
  let trailing ← get
  demand trailing.isEmpty "signed deploy contains trailing bytes"
  return {
    header := between headerStart headerEnd
    sourcePublicKey, suppliedBodyHash, chainName, suppliedDeployHash
    payment := between paymentStart sessionStart
    paymentAmount
    session := between sessionStart sessionEnd
    recipient, amount, transferId, approvals }

end DeployReader

section Verification

def require (condition : Bool) (message : String) : Except String Unit :=
  if condition then .ok () else .error message

/-- `parseUnsigned` with its error as a message. -/
def unsigned (value : Value) (bits : Nat) : Except String Nat :=
  (parseUnsigned value bits).mapError EncodingError.message

/-- `value ?? fallback`. -/
def orElse (value : Value) (fallback : String) : Value :=
  match value with
  | .undefined | .null => .string (js fallback)
  | v => v

/-- `hexBytes` of any length. -/
def hexText (value : Value) : Except String (List UInt8) :=
  match value with
  | .string s =>
    match fromHex s with
    | some bytes => .ok bytes
    | none => .error "hex value must be canonical lowercase hexadecimal"
  | _ => .error "hex value must be canonical lowercase hexadecimal"

def exactHex (value : Value) (label : String) : Except String JsString :=
  match hexBytes value 32 with
  | .ok bytes => .ok (toHex bytes)
  | .error _ => .error s!"{label} must be canonical lowercase 32-byte hex"

variable (rt : Runtime)

/-- The preimage is built from the algorithm's name in ASCII. -/
def accountHash (key : PublicKey) : JsString :=
  let algorithmName := if key.algorithm = 1 then "ed25519" else "secp256k1"
  toHex (rt.blake2b256 (utf8 (js algorithmName) ++ 0 :: key.raw))

def verifySignedNativeTransferDeploy (input : SignedNativeTransferExpectation) :
    Except String SignedNativeTransferFacts := do
  let signedBytes ← hexText input.signedDeployHex
  require (!signedBytes.isEmpty && signedBytes.length ≤ maxDeployBytes)
    "signed deploy bytes must be non-empty and within the verifier size limit"
  let expectedSource ← exactHex input.sourceAccountHash "sourceAccountHash"
  let expectedRecipient ← exactHex input.recipientAccountHash "recipientAccountHash"
  let expectedAmount ← unsigned input.amountMotes 512
  let expectedTransferId ← unsigned input.transferId 64
  let expectedPayment ← unsigned (orElse input.paymentAmountMotes "100000000") 512
  let maxPayment ← unsigned (orElse input.maxPaymentAmountMotes "100000000") 512
  require (expectedAmount != 0 && expectedPayment != 0 && maxPayment != 0)
    "expected transfer and payment amounts must be positive"
  let (deploy, _) ← parseDeploy rt signedBytes
  let computedBodyHash := rt.blake2b256 (deploy.payment ++ deploy.session)
  require (toHex computedBodyHash == toHex deploy.suppliedBodyHash) "body hash mismatch"
  let computedDeployHash := rt.blake2b256 deploy.header
  require (toHex computedDeployHash == toHex deploy.suppliedDeployHash) "deploy hash mismatch"
  require (deploy.approvals.all fun a =>
    rt.approvalSignatureValid a.signer computedDeployHash a.signature) "invalid approval signature"
  require (deploy.chainName == js "casper-test") "chain must be exactly casper-test"
  let source := accountHash rt deploy.sourcePublicKey
  require (source == expectedSource) "source account hash mismatch"
  require (deploy.recipient == expectedRecipient) "recipient account hash mismatch"
  require (deploy.amount == expectedAmount) "transfer amount mismatch"
  require (deploy.transferId == expectedTransferId) "transfer id mismatch"
  require (deploy.paymentAmount ≤ maxPayment) "payment amount exceeds bound"
  require (deploy.paymentAmount == expectedPayment) "payment amount mismatch"
  return {
    canonicalSignedDeployHex := toHex signedBytes
    deployHash := toHex computedDeployHash
    bodyHash := toHex computedBodyHash
    chainName := deploy.chainName
    sourcePublicKey := toHex deploy.sourcePublicKey.encoded
    sourceAccountHash := source
    recipientAccountHash := deploy.recipient
    amountMotes := decimal deploy.amount
    transferId := decimal deploy.transferId
    paymentAmountMotes := decimal deploy.paymentAmount
    approvalSigners := deploy.approvals.map fun a => toHex a.signer.encoded }

end Verification

/-! What acceptance says about the deploy. -/
section Acceptance

theorem bind_ok {α β : Type} {x : Except String α} {f : α → Except String β} {r : β}
    (h : (x >>= f) = .ok r) : ∃ a, x = .ok a ∧ f a = .ok r := by
  cases x with
  | error message => cases h
  | ok a => exact ⟨a, rfl, h⟩

theorem require_ok {α : Type} {condition : Bool} {message : String} {f : Unit → Except String α}
    {r : α} (h : (require condition message >>= f) = .ok r) : condition = true ∧ f () = .ok r := by
  cases condition with
  | false => cases h
  | true => exact ⟨rfl, h⟩

theorem unsigned_ok {value : Value} {bits n : Nat} (h : unsigned value bits = .ok n) :
    parseUnsigned value bits = .ok n := by
  unfold unsigned at h
  cases hparsed : parseUnsigned value bits with
  | error e =>
    rw [hparsed] at h
    cases h
  | ok m =>
    rw [hparsed] at h
    rw [Except.ok.inj h]

theorem hexDigit_hexValue {u : UInt16} {n : Nat} (h : hexValue u = some n) : hexDigit n = u := by
  unfold hexValue at h
  unfold hexDigit
  split at h
  · next hrange =>
    have hlow : 48 ≤ u.toNat := hrange.1
    have hhigh : u.toNat ≤ 57 := hrange.2
    obtain rfl := Option.some.inj h
    rw [if_pos (by omega), Nat.add_sub_cancel' hlow]
    exact UInt16.ofNat_toNat
  · split at h
    · next hrange =>
      have hlow : 97 ≤ u.toNat := hrange.1
      obtain rfl := Option.some.inj h
      rw [if_neg (by omega)]
      have hsum : 87 + (u.toNat - 87) = u.toNat := by omega
      rw [hsum]
      exact UInt16.ofNat_toNat
    · contradiction

theorem hexValue_lt {u : UInt16} {n : Nat} (h : hexValue u = some n) : n < 16 := by
  unfold hexValue at h
  split at h
  · next hrange =>
    have hhigh : u.toNat ≤ 57 := hrange.2
    obtain rfl := Option.some.inj h
    omega
  · split at h
    · next hrange =>
      have hhigh : u.toNat ≤ 102 := hrange.2
      obtain rfl := Option.some.inj h
      omega
    · contradiction

/-- Canonical hexadecimal is read back as it was. -/
theorem toHex_fromHex : ∀ {s : JsString} {bytes : List UInt8}, fromHex s = some bytes →
    toHex bytes = s
  | [], bytes, h => by
    obtain rfl := Option.some.inj h
    rfl
  | [u], bytes, h => by cases h
  | u :: v :: rest, bytes, h => by
    simp only [fromHex, Option.bind_eq_bind, Option.bind_eq_some_iff, Option.pure_def] at h
    obtain ⟨high, hhigh, low, hlow, tail, htail, hbytes⟩ := h
    obtain rfl := Option.some.inj hbytes
    have hh := hexValue_lt hhigh
    have hl := hexValue_lt hlow
    have hbyte : (16 * high + low).toUInt8.toNat = 16 * high + low := by
      rw [UInt8.toNat_ofNat']
      omega
    have ih := toHex_fromHex htail
    simp only [toHex, List.flatMap_cons, hbyte] at ih ⊢
    have hdiv : (16 * high + low) / 16 = high := by omega
    have hmod : (16 * high + low) % 16 = low := by omega
    rw [hdiv, hmod, hexDigit_hexValue hhigh, hexDigit_hexValue hlow, ih]
    rfl

theorem exactHex_ok {value : Value} {label : String} {s : JsString}
    (h : exactHex value label = .ok s) : value = .string s := by
  unfold exactHex at h
  cases hbytes : hexBytes value 32 with
  | error e =>
    rw [hbytes] at h
    cases h
  | ok bytes =>
    rw [hbytes] at h
    obtain rfl := Except.ok.inj h
    cases value with
    | string t =>
      simp only [hexBytes] at hbytes
      cases hread : fromHex t with
      | none =>
        rw [hread] at hbytes
        cases hbytes
      | some output =>
        rw [hread] at hbytes
        simp only at hbytes
        split at hbytes
        · cases hbytes
        · obtain rfl := Except.ok.inj hbytes
          rw [toHex_fromHex hread]
    | _ => cases hbytes

/-- The facts are those of the deploy in the signed bytes, and those the caller expects. -/
structure Matches (rt : Runtime) (input : SignedNativeTransferExpectation)
    (facts : SignedNativeTransferFacts) : Prop where
  source : input.sourceAccountHash = .string facts.sourceAccountHash
  recipient : input.recipientAccountHash = .string facts.recipientAccountHash
  amount : ∃ n, parseUnsigned input.amountMotes 512 = .ok n ∧ facts.amountMotes = decimal n
  transferId : ∃ n, parseUnsigned input.transferId 64 = .ok n ∧ facts.transferId = decimal n
  signed : ∃ bytes deploy rest, hexText input.signedDeployHex = .ok bytes ∧
    parseDeploy rt bytes = .ok (deploy, rest) ∧
    facts.deployHash = toHex (rt.blake2b256 deploy.header) ∧
    facts.sourceAccountHash = accountHash rt deploy.sourcePublicKey ∧
    facts.recipientAccountHash = deploy.recipient ∧
    facts.amountMotes = decimal deploy.amount ∧ facts.transferId = decimal deploy.transferId

theorem verifySigned_matches {rt : Runtime} {input : SignedNativeTransferExpectation}
    {facts : SignedNativeTransferFacts}
    (h : verifySignedNativeTransferDeploy rt input = .ok facts) : Matches rt input facts := by
  unfold verifySignedNativeTransferDeploy at h
  obtain ⟨bytes, hbytes, h⟩ := bind_ok h
  obtain ⟨-, h⟩ := require_ok h
  obtain ⟨source, hsource, h⟩ := bind_ok h
  obtain ⟨recipient, hrecipient, h⟩ := bind_ok h
  obtain ⟨amount, hamount, h⟩ := bind_ok h
  obtain ⟨transferId, htransferId, h⟩ := bind_ok h
  obtain ⟨payment, -, h⟩ := bind_ok h
  obtain ⟨maxPayment, -, h⟩ := bind_ok h
  obtain ⟨-, h⟩ := require_ok h
  obtain ⟨⟨deploy, rest⟩, hdeploy, h⟩ := bind_ok h
  obtain ⟨-, h⟩ := require_ok h
  obtain ⟨-, h⟩ := require_ok h
  obtain ⟨-, h⟩ := require_ok h
  obtain ⟨-, h⟩ := require_ok h
  obtain ⟨hsame, h⟩ := require_ok h
  obtain ⟨hpayee, h⟩ := require_ok h
  obtain ⟨hmotes, h⟩ := require_ok h
  obtain ⟨hid, h⟩ := require_ok h
  obtain ⟨-, h⟩ := require_ok h
  obtain ⟨-, h⟩ := require_ok h
  obtain rfl := Except.ok.inj h
  have hsource := exactHex_ok hsource
  have hrecipient := exactHex_ok hrecipient
  have hsame : accountHash rt deploy.sourcePublicKey = source := eq_of_beq hsame
  have hpayee : deploy.recipient = recipient := eq_of_beq hpayee
  have hmotes : deploy.amount = amount := eq_of_beq hmotes
  have hid : deploy.transferId = transferId := eq_of_beq hid
  constructor
  · rw [hsource, hsame]
  · rw [hrecipient, hpayee]
  · exact ⟨amount, unsigned_ok hamount, by rw [hmotes]⟩
  · exact ⟨transferId, unsigned_ok htransferId, by rw [hid]⟩
  · exact ⟨bytes, deploy, rest, hbytes, hdeploy, rfl, rfl, rfl, rfl, rfl⟩

end Acceptance

end Concordia.Verify.NativeDeploy
