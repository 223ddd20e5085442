import Concordia.Lib.BufferReader
import Concordia.Verify.NativeFinality

/-! The bytes of a signed deploy: the reader with its buffer and offset, and every field that it
comes across. What it accepts is the encoding of these fields. -/
namespace Concordia.Verify.DeployBytes
open Concordia.Js Concordia.Lib.Encoding Concordia.Lib.BufferReader
open Concordia.Verify.NativeDeploy hiding Reader demand read u8 u32le u64le vectorBytes text
  parsePublicKey requireName parseCanonicalU512 parseU512ClValue parseTargetClValue
  parseTransferIdClValue parseApprovals parseDeploy require

abbrev Reader := BufferReader String

section DeployReader

def read (length : Nat) (label : String) : Reader (List UInt8) :=
  Lib.BufferReader.read length s!"signed deploy is truncated while reading {label}"

def u8 (label : String) : Reader Nat := do
  let bytes ← read 1 label
  return beValue bytes

def u32le (label : String) : Reader Nat := do
  let bytes ← read 4 label
  return beValue bytes.reverse

def u64le (label : String) : Reader Nat := do
  let bytes ← read 8 label
  return beValue bytes.reverse

def vectorBytes (label : String) : Reader (List UInt8) := do
  let length ← u32le s!"{label} length"
  demand (length ≤ maxDeployBytes) s!"{label} exceeds the verifier size limit"
  read length label

variable (rt : NativeDeploy.Runtime)

def text (label : String) : Reader JsString := do
  let raw ← vectorBytes label
  match rt.decodeUtf8 raw with
  | some value =>
    demand (utf8 value == raw) s!"{label} is not canonical UTF-8"
    return value
  | none => throw s!"{label} is not canonical UTF-8"

def parsePublicKey (label : String) : Reader PublicKey := do
  let algorithm ← u8 s!"{label} algorithm"
  demand (algorithm == 1 || algorithm == 2) s!"{label} uses an unsupported algorithm"
  let raw ← read (if algorithm == 1 then 32 else 33) s!"{label} bytes"
  demand (algorithm == 1 || raw.head? == some 2 || raw.head? == some 3)
    s!"{label} secp256k1 key is not compressed"
  return ⟨algorithm, raw⟩

def requireName (expected : String) : Reader Unit := do
  let actual ← text rt "runtime argument name"
  demand (actual == js expected) s!"runtime arguments must be exactly ordered; expected {expected}"

def parseCanonicalU512 (raw : List UInt8) (label : String) : Reader Nat :=
  match raw with
  | [] => throw s!"{label} is malformed"
  | length :: magnitude => do
    demand (length.toNat ≤ 64 && magnitude.length == length.toNat) s!"{label} is not canonical U512"
    demand (magnitude.getLast? != some 0) s!"{label} is not canonical U512"
    return beValue magnitude.reverse

def parseU512ClValue (label : String) : Reader Nat := do
  let raw ← vectorBytes s!"{label} CLValue"
  let type ← u8 s!"{label} CLType"
  demand (type == 8) s!"{label} must be U512"
  parseCanonicalU512 raw label

def parseTargetClValue : Reader JsString := do
  let raw ← vectorBytes "target CLValue"
  let type ← u8 "target CLType"
  demand (type == 11 && raw.length == 33 && raw.head? == some 0)
    "target must be an account-variant Key"
  return toHex raw.tail

def parseTransferIdClValue : Reader Nat := do
  let raw ← vectorBytes "transfer id CLValue"
  let optionType ← u8 "transfer id option CLType"
  let nestedType ← u8 "transfer id nested CLType"
  demand (optionType == 13 && nestedType == 5 && raw.length == 9 && raw.head? == some 1)
    "transfer id must be Some U64"
  return beValue raw.tail.reverse

def parseDependencies : Nat → Reader (List (List UInt8))
  | 0 => return []
  | n + 1 => do
    let hash ← read 32 "dependency hash"
    let rest ← parseDependencies n
    return hash :: rest

def parseApprovals (signerHexes : List JsString) : Nat → Reader (List Approval)
  | 0 => return []
  | n + 1 => do
    let signer ← parsePublicKey "approval signer"
    let signatureAlgorithm ← u8 "approval signature algorithm"
    let signature ← read 64 "approval signature"
    demand (signatureAlgorithm == signer.algorithm)
      "approval signature algorithm does not match signer"
    let signerHex := toHex signer.encoded
    demand (!signerHexes.contains signerHex) "duplicate approval signer"
    let rest ← parseApprovals (signerHexes ++ [signerHex]) n
    return ⟨signer, signature⟩ :: rest

/-- Everything that is read, the values that the verifier makes no use of too. -/
structure DeployFields where
  sourcePublicKey : PublicKey
  timestamp : Nat
  ttl : Nat
  gasPrice : Nat
  bodyHash : List UInt8
  dependencies : List (List UInt8)
  chainName : JsString
  deployHash : List UInt8
  paymentAmount : Nat
  recipient : JsString
  amount : Nat
  transferId : Nat
  approvals : List Approval
  deriving DecidableEq

/-- The offsets between which the parts that are hashed lie. -/
structure Layout where
  headerStart : Nat
  headerEnd : Nat
  paymentStart : Nat
  sessionStart : Nat
  sessionEnd : Nat

def parseDeploy (size : Nat) : Reader (DeployFields × Layout) := do
  let headerStart ← position
  let sourcePublicKey ← parsePublicKey "header account"
  let timestamp ← u64le "timestamp"
  let ttl ← u64le "ttl"
  let gasPrice ← u64le "gas price"
  let bodyHash ← read 32 "body hash"
  let dependencyCount ← u32le "dependency count"
  demand (dependencyCount ≤ maxVectorItems) "dependency count exceeds limit"
  let dependencies ← parseDependencies dependencyCount
  let chainName ← text rt "chain name"
  let headerEnd ← position
  let deployHash ← read 32 "deploy hash"
  let paymentStart ← position
  let paymentVariant ← u8 "payment variant"
  demand (paymentVariant == 0) "payment must be exactly ModuleBytes"
  let moduleBytes ← vectorBytes "payment module bytes"
  demand moduleBytes.isEmpty "standard payment module bytes must be empty"
  let paymentArguments ← u32le "payment argument count"
  demand (paymentArguments == 1) "payment arguments must be exactly amount"
  requireName rt "amount"
  let paymentAmount ← parseU512ClValue "payment amount"
  let sessionStart ← position
  let sessionVariant ← u8 "session variant"
  demand (sessionVariant == 5) "session must be exactly Transfer"
  let sessionArguments ← u32le "session argument count"
  demand (sessionArguments == 3) "session arguments must be exactly ordered target, amount, id"
  requireName rt "target"
  let recipient ← parseTargetClValue
  requireName rt "amount"
  let amount ← parseU512ClValue "transfer amount"
  requireName rt "id"
  let transferId ← parseTransferIdClValue
  let sessionEnd ← position
  let approvalCount ← u32le "approval count"
  demand (approvalCount != 0 && approvalCount ≤ maxVectorItems)
    "signed deploy requires a bounded, non-empty approval set"
  let approvals ← parseApprovals [] approvalCount
  let offset ← position
  demand (offset == size) "signed deploy contains trailing bytes"
  return (⟨sourcePublicKey, timestamp, ttl, gasPrice, bodyHash, dependencies, chainName, deployHash,
    paymentAmount, recipient, amount, transferId, approvals⟩,
    ⟨headerStart, headerEnd, paymentStart, sessionStart, sessionEnd⟩)

/-- The reader over the whole buffer, with the buffer that it leaves. -/
def run (bytes : List UInt8) : Except String (DeployFields × Layout) × Buffer :=
  parseDeploy rt bytes.length (Buffer.start bytes)

end DeployReader

/-! The reader finds what the reader of the bytes to come finds, and stays within the buffer. -/
section Bounds
variable {bytes : List UInt8} {rt : NativeDeploy.Runtime}

theorem read_follows (length : Nat) (label : String) :
    Follows bytes (read length label) (NativeDeploy.read length label) Eq :=
  Follows.read length _

theorem demand_follows (condition : Bool) (message : String) :
    Follows bytes (demand condition message) (NativeDeploy.demand condition message) fun _ _ =>
      condition = true :=
  Follows.demand condition message

/-- A reader that both sides continue with the same value. -/
theorem follows_bind {α β γ : Type} {T : β → γ → Prop} {p : Reader α}
    {q : NativeDeploy.Reader α} {f : α → Reader β} {g : α → NativeDeploy.Reader γ}
    (hp : Follows bytes p q Eq) (hf : ∀ x, Follows bytes (f x) (g x) T) :
    Follows bytes (p >>= f) (q >>= g) T := by
  apply Follows.bind hp
  rintro x _ rfl
  exact hf x

theorem demand_bind {β γ : Type} {T : β → γ → Prop} {condition : Bool} {message : String}
    {f : Unit → Reader β} {g : Unit → NativeDeploy.Reader γ}
    (hf : condition = true → Follows bytes (f ()) (g ()) T) :
    Follows bytes (demand condition message >>= f)
      (NativeDeploy.demand condition message >>= g) T := by
  apply Follows.bind (demand_follows condition message)
  intro _ _ hcondition
  exact hf hcondition

theorem u8_follows (label : String) : Follows bytes (u8 label) (NativeDeploy.u8 label) Eq :=
  follows_bind (read_follows 1 label) fun _ => .pure rfl

theorem u32le_follows (label : String) :
    Follows bytes (u32le label) (NativeDeploy.u32le label) Eq :=
  follows_bind (read_follows 4 label) fun _ => .pure rfl

theorem u64le_follows (label : String) :
    Follows bytes (u64le label) (NativeDeploy.u64le label) Eq :=
  follows_bind (read_follows 8 label) fun _ => .pure rfl

theorem vectorBytes_follows (label : String) :
    Follows bytes (vectorBytes label) (NativeDeploy.vectorBytes label) Eq := by
  apply follows_bind (u32le_follows _)
  intro length
  apply demand_bind
  intro _
  exact read_follows length label

theorem text_follows (label : String) :
    Follows bytes (text rt label) (NativeDeploy.text rt label) Eq := by
  apply follows_bind (vectorBytes_follows label)
  intro raw
  cases rt.decodeUtf8 raw with
  | none => exact Follows.throw _
  | some value =>
    apply demand_bind
    intro _
    exact Follows.pure rfl

theorem parsePublicKey_follows (label : String) :
    Follows bytes (parsePublicKey label) (NativeDeploy.parsePublicKey label) Eq := by
  apply follows_bind (u8_follows _)
  intro algorithm
  apply demand_bind
  intro _
  apply follows_bind (read_follows _ _)
  intro raw
  apply demand_bind
  intro _
  exact Follows.pure rfl

theorem requireName_follows (expected : String) :
    Follows bytes (requireName rt expected) (NativeDeploy.requireName rt expected) Eq := by
  apply follows_bind (text_follows _)
  intro actual
  exact (demand_follows _ _).mono fun _ _ _ => rfl

theorem parseCanonicalU512_follows (raw : List UInt8) (label : String) :
    Follows bytes (parseCanonicalU512 raw label) (NativeDeploy.parseCanonicalU512 raw label) Eq := by
  cases raw with
  | nil => exact Follows.throw _
  | cons length magnitude =>
    apply demand_bind
    intro _
    apply demand_bind
    intro _
    exact Follows.pure rfl

theorem parseU512ClValue_follows (label : String) :
    Follows bytes (parseU512ClValue label) (NativeDeploy.parseU512ClValue label) Eq := by
  apply follows_bind (vectorBytes_follows _)
  intro raw
  apply follows_bind (u8_follows _)
  intro type
  apply demand_bind
  intro _
  exact parseCanonicalU512_follows raw label

theorem parseTargetClValue_follows :
    Follows bytes parseTargetClValue NativeDeploy.parseTargetClValue Eq := by
  apply follows_bind (vectorBytes_follows _)
  intro raw
  apply follows_bind (u8_follows _)
  intro type
  apply demand_bind
  intro _
  exact Follows.pure rfl

theorem parseTransferIdClValue_follows :
    Follows bytes parseTransferIdClValue NativeDeploy.parseTransferIdClValue Eq := by
  apply follows_bind (vectorBytes_follows _)
  intro raw
  apply follows_bind (u8_follows _)
  intro optionType
  apply follows_bind (u8_follows _)
  intro nestedType
  apply demand_bind
  intro _
  exact Follows.pure rfl

theorem parseDependencies_follows (n : Nat) :
    Follows bytes (parseDependencies n) (skipDependencies n) fun _ _ => True := by
  induction n with
  | zero => exact Follows.pure trivial
  | succ n ih =>
    apply follows_bind (read_follows _ _)
    intro hash
    -- The other reader keeps nothing, so its last step is a plain continuation.
    have hunit : skipDependencies n = skipDependencies n >>= fun _ => pure () := by
      simp
    rw [hunit]
    apply Follows.bind ih
    intro _ _ _
    exact Follows.pure trivial

theorem parseApprovals_follows (n : Nat) (signerHexes : List JsString) :
    Follows bytes (parseApprovals signerHexes n) (NativeDeploy.parseApprovals signerHexes n) Eq := by
  induction n generalizing signerHexes with
  | zero => exact Follows.pure rfl
  | succ n ih =>
    apply follows_bind (parsePublicKey_follows _)
    intro signer
    apply follows_bind (u8_follows _)
    intro signatureAlgorithm
    apply follows_bind (read_follows _ _)
    intro signature
    apply demand_bind
    intro _
    apply demand_bind
    intro _
    apply follows_bind (ih _)
    intro rest
    exact Follows.pure rfl

/-- The deploy of the verifier: what it keeps of the fields, and the parts that it hashes. -/
def DeployFields.deploy (fields : DeployFields) (bytes : List UInt8) (layout : Layout) : Deploy where
  header := slice bytes layout.headerStart layout.headerEnd
  sourcePublicKey := fields.sourcePublicKey
  suppliedBodyHash := fields.bodyHash
  chainName := fields.chainName
  suppliedDeployHash := fields.deployHash
  payment := slice bytes layout.paymentStart layout.sessionStart
  paymentAmount := fields.paymentAmount
  session := slice bytes layout.sessionStart layout.sessionEnd
  recipient := fields.recipient
  amount := fields.amount
  transferId := fields.transferId
  approvals := fields.approvals

theorem between_drop {start stop : Nat} (hstop : stop ≤ bytes.length) :
    between (bytes.drop start) (bytes.drop stop) = slice bytes start stop :=
  (slice_of_rests hstop).symm

theorem position_bind {β γ : Type} {T : β → γ → Prop} {f : Nat → Reader β}
    {g : List UInt8 → NativeDeploy.Reader γ}
    (hf : ∀ offset ≤ bytes.length, Follows bytes (f offset) (g (bytes.drop offset)) T) :
    Follows bytes (position >>= f) (get >>= g) T := by
  apply Follows.bind Follows.position
  rintro offset _ ⟨hoffset, rfl⟩
  exact hf offset hoffset

theorem parseDeploy_follows :
    Follows bytes (parseDeploy rt bytes.length) (NativeDeploy.parseDeploy rt)
      fun found deploy => deploy = found.1.deploy bytes found.2 := by
  apply position_bind
  intro headerStart _
  apply follows_bind (parsePublicKey_follows _)
  intro sourcePublicKey
  apply follows_bind (u64le_follows _)
  intro timestamp
  apply follows_bind (u64le_follows _)
  intro ttl
  apply follows_bind (u64le_follows _)
  intro gasPrice
  apply follows_bind (read_follows _ _)
  intro bodyHash
  apply follows_bind (u32le_follows _)
  intro dependencyCount
  apply demand_bind
  intro _
  apply Follows.bind (parseDependencies_follows _)
  intro dependencies _ _
  apply follows_bind (text_follows _)
  intro chainName
  apply position_bind
  intro headerEnd hheaderEnd
  apply follows_bind (read_follows _ _)
  intro deployHash
  apply position_bind
  intro paymentStart _
  apply follows_bind (u8_follows _)
  intro paymentVariant
  apply demand_bind
  intro _
  apply follows_bind (vectorBytes_follows _)
  intro moduleBytes
  apply demand_bind
  intro _
  apply follows_bind (u32le_follows _)
  intro paymentArguments
  apply demand_bind
  intro _
  apply follows_bind (requireName_follows _)
  intro _
  apply follows_bind (parseU512ClValue_follows _)
  intro paymentAmount
  apply position_bind
  intro sessionStart hsessionStart
  apply follows_bind (u8_follows _)
  intro sessionVariant
  apply demand_bind
  intro _
  apply follows_bind (u32le_follows _)
  intro sessionArguments
  apply demand_bind
  intro _
  apply follows_bind (requireName_follows _)
  intro _
  apply follows_bind parseTargetClValue_follows
  intro recipient
  apply follows_bind (requireName_follows _)
  intro _
  apply follows_bind (parseU512ClValue_follows _)
  intro amount
  apply follows_bind (requireName_follows _)
  intro _
  apply follows_bind parseTransferIdClValue_follows
  intro transferId
  apply position_bind
  intro sessionEnd hsessionEnd
  apply follows_bind (u32le_follows _)
  intro approvalCount
  apply demand_bind
  intro _
  apply follows_bind (parseApprovals_follows _ _)
  intro approvals
  apply position_bind
  intro offset hoffset
  have htrailing : (offset == bytes.length) = (bytes.drop offset).isEmpty := by
    rw [Bool.eq_iff_iff, beq_iff_eq, List.isEmpty_iff, List.drop_eq_nil_iff]
    omega
  rw [htrailing]
  apply demand_bind
  intro _
  rw [between_drop hheaderEnd, between_drop hsessionStart, between_drop hsessionEnd]
  exact Follows.pure rfl

/-- Whether the input is accepted or refused, no slice lies outside the buffer. -/
theorem run_within (rt : NativeDeploy.Runtime) (bytes : List UInt8) : (run rt bytes).2.Within bytes :=
  (parseDeploy_follows (Buffer.start bytes) (Buffer.start_within bytes)).1

/-- The verifier's reader accepts what this one accepts. -/
theorem parseDeploy_run {deploy : Deploy} {rest : List UInt8}
    (h : NativeDeploy.parseDeploy rt bytes = .ok (deploy, rest)) :
    ∃ fields layout, (run rt bytes).1 = .ok (fields, layout) ∧
      deploy = fields.deploy bytes layout := by
  obtain ⟨-, hagree⟩ := @parseDeploy_follows bytes rt (Buffer.start bytes) (Buffer.start_within bytes)
  change NativeDeploy.parseDeploy rt (Buffer.start bytes).rest = _ at h
  change Agree _ (run rt bytes).1 _ _ at hagree
  rw [h] at hagree
  cases hresult : (run rt bytes).1 with
  | error message =>
    rw [hresult] at hagree
    cases hagree
  | ok found =>
    rw [hresult] at hagree
    obtain ⟨deploy', heq, hdeploy⟩ := hagree
    obtain ⟨rfl, -⟩ := Prod.mk.inj (Except.ok.inj heq)
    exact ⟨found.1, found.2, rfl, hdeploy⟩

end Bounds

section Encoding

/-- Bytes behind their length, as the deploy holds them. -/
def vector (bytes : List UInt8) : List UInt8 := leBytes 4 bytes.length ++ bytes

def nameBytes (name : String) : List UInt8 := vector (utf8 (js name))

def u512ClValue (n : Nat) : List UInt8 :=
  vector ((minimalBytes n).length.toUInt8 :: minimalBytes n) ++ [8]

def targetClValue (recipient : JsString) : List UInt8 :=
  vector (0 :: (fromHex recipient).getD []) ++ [11]

def transferIdClValue (id : Nat) : List UInt8 := vector (1 :: leBytes 8 id) ++ [13, 5]

def approvalBytes (approval : Approval) : List UInt8 :=
  approval.signer.encoded ++ approval.signer.algorithm.toUInt8 :: approval.signature

namespace DeployFields
variable (fields : DeployFields)

def headerBytes : List UInt8 :=
  fields.sourcePublicKey.encoded ++ leBytes 8 fields.timestamp ++ leBytes 8 fields.ttl ++
    leBytes 8 fields.gasPrice ++ fields.bodyHash ++ leBytes 4 fields.dependencies.length ++
    fields.dependencies.flatten ++ vector (utf8 fields.chainName)

def paymentBytes : List UInt8 :=
  0 :: vector [] ++ leBytes 4 1 ++ nameBytes "amount" ++ u512ClValue fields.paymentAmount

def sessionBytes : List UInt8 :=
  5 :: leBytes 4 3 ++ nameBytes "target" ++ targetClValue fields.recipient ++ nameBytes "amount" ++
    u512ClValue fields.amount ++ nameBytes "id" ++ transferIdClValue fields.transferId

def approvalsBytes : List UInt8 :=
  leBytes 4 fields.approvals.length ++ fields.approvals.flatMap approvalBytes

/-- The deploy in bytes, from its fields alone. -/
def encode : List UInt8 :=
  fields.headerBytes ++ fields.deployHash ++ fields.paymentBytes ++ fields.sessionBytes ++
    fields.approvalsBytes

end DeployFields

variable {rt : NativeDeploy.Runtime} {b b' : Buffer} {label : String}

theorem read_ok {length : Nat} {bytes : List UInt8} (h : read length label b = (.ok bytes, b')) :
    b.rest = bytes ++ b'.rest ∧ bytes.length = length :=
  Lib.BufferReader.read_ok h

theorem u8_ok {n : Nat} (h : u8 label b = (.ok n, b')) : b.rest = n.toUInt8 :: b'.rest := by
  obtain ⟨bytes, b₁, hread, h⟩ := bind_ok h
  obtain ⟨rfl, rfl⟩ := pure_ok h
  obtain ⟨hrest, hlength⟩ := read_ok hread
  obtain ⟨byte, rfl⟩ := List.length_eq_one_iff.mp hlength
  have hvalue : beValue [byte] = byte.toNat := by simp [beValue]
  have hbyte : byte.toNat.toUInt8 = byte := UInt8.ofNat_toNat
  rw [hrest, hvalue, hbyte]
  rfl

theorem u32le_ok {n : Nat} (h : u32le label b = (.ok n, b')) : b.rest = leBytes 4 n ++ b'.rest := by
  obtain ⟨bytes, b₁, hread, h⟩ := bind_ok h
  obtain ⟨rfl, rfl⟩ := pure_ok h
  obtain ⟨hrest, hlength⟩ := read_ok hread
  rw [hrest, ← hlength, leBytes_beValue]

theorem u64le_ok {n : Nat} (h : u64le label b = (.ok n, b')) : b.rest = leBytes 8 n ++ b'.rest := by
  obtain ⟨bytes, b₁, hread, h⟩ := bind_ok h
  obtain ⟨rfl, rfl⟩ := pure_ok h
  obtain ⟨hrest, hlength⟩ := read_ok hread
  rw [hrest, ← hlength, leBytes_beValue]

theorem vectorBytes_ok {raw : List UInt8} (h : vectorBytes label b = (.ok raw, b')) :
    b.rest = vector raw ++ b'.rest := by
  obtain ⟨length, b₁, hlength, h⟩ := bind_ok h
  obtain ⟨-, h⟩ := demand_ok h
  obtain ⟨hraw, rfl⟩ := read_ok h
  rw [u32le_ok hlength, hraw, vector, List.append_assoc]

theorem text_ok {value : JsString} (h : text rt label b = (.ok value, b')) :
    b.rest = vector (utf8 value) ++ b'.rest := by
  obtain ⟨raw, b₁, hraw, h⟩ := bind_ok h
  cases hdecode : rt.decodeUtf8 raw with
  | none =>
    rw [hdecode] at h
    cases h
  | some s =>
    rw [hdecode] at h
    obtain ⟨hsame, h⟩ := demand_ok h
    obtain ⟨rfl, rfl⟩ := pure_ok h
    rw [vectorBytes_ok hraw, eq_of_beq hsame]

theorem parsePublicKey_ok {key : PublicKey} (h : parsePublicKey label b = (.ok key, b')) :
    b.rest = key.encoded ++ b'.rest := by
  obtain ⟨algorithm, b₁, halgorithm, h⟩ := bind_ok h
  obtain ⟨-, h⟩ := demand_ok h
  obtain ⟨raw, b₂, hraw, h⟩ := bind_ok h
  obtain ⟨-, h⟩ := demand_ok h
  obtain ⟨rfl, rfl⟩ := pure_ok h
  rw [u8_ok halgorithm, (read_ok hraw).1]
  rfl

theorem requireName_ok {expected : String} (h : requireName rt expected b = (.ok (), b')) :
    b.rest = nameBytes expected ++ b'.rest := by
  obtain ⟨actual, b₁, hactual, h⟩ := bind_ok h
  obtain ⟨hsame, h⟩ : actual = js expected ∧ b₁ = b' := by
    cases hcondition : actual == js expected with
    | false =>
      rw [hcondition] at h
      cases h
    | true =>
      rw [hcondition] at h
      obtain ⟨-, rfl⟩ := Prod.mk.inj h
      exact ⟨eq_of_beq hcondition, rfl⟩
  rw [text_ok hactual, hsame, h, nameBytes]

theorem parseCanonicalU512_ok {raw : List UInt8} {n : Nat}
    (h : parseCanonicalU512 raw label b = (.ok n, b')) :
    raw = (minimalBytes n).length.toUInt8 :: minimalBytes n ∧ b = b' := by
  cases raw with
  | nil => cases h
  | cons length magnitude =>
    obtain ⟨hlength, h⟩ := demand_ok h
    obtain ⟨hminimal, h⟩ := demand_ok h
    obtain ⟨rfl, rfl⟩ := pure_ok h
    have hlast : magnitude.getLast? ≠ some 0 := by simpa using hminimal
    have hsame : magnitude.length = length.toNat := eq_of_beq (Bool.and_eq_true_iff.mp hlength).2
    have hbyte : length.toNat.toUInt8 = length := UInt8.ofNat_toNat
    rw [minimalBytes_beValue hlast, hsame, hbyte]
    exact ⟨rfl, rfl⟩

theorem parseU512ClValue_ok {n : Nat} (h : parseU512ClValue label b = (.ok n, b')) :
    b.rest = u512ClValue n ++ b'.rest := by
  obtain ⟨raw, b₁, hraw, h⟩ := bind_ok h
  obtain ⟨type, b₂, htype, h⟩ := bind_ok h
  obtain ⟨height, h⟩ := demand_ok h
  obtain ⟨hcanonical, rfl⟩ := parseCanonicalU512_ok h
  have height : type = 8 := eq_of_beq height
  rw [vectorBytes_ok hraw, u8_ok htype, height, hcanonical, u512ClValue, List.append_assoc]
  rfl

theorem head_tail {raw : List UInt8} {byte : UInt8} (h : raw.head? = some byte) :
    raw = byte :: raw.tail :=
  (List.cons_head?_tail h).symm

theorem parseTargetClValue_ok {recipient : JsString}
    (h : parseTargetClValue b = (.ok recipient, b')) :
    b.rest = targetClValue recipient ++ b'.rest := by
  obtain ⟨raw, b₁, hraw, h⟩ := bind_ok h
  obtain ⟨type, b₂, htype, h⟩ := bind_ok h
  obtain ⟨hkey, h⟩ := demand_ok h
  obtain ⟨rfl, rfl⟩ := pure_ok h
  simp only [Bool.and_eq_true, beq_iff_eq] at hkey
  obtain ⟨⟨rfl, -⟩, hhead⟩ := hkey
  rw [vectorBytes_ok hraw, u8_ok htype, targetClValue, fromHex_toHex, Option.getD_some,
    ← head_tail hhead, List.append_assoc]
  rfl

theorem parseTransferIdClValue_ok {id : Nat} (h : parseTransferIdClValue b = (.ok id, b')) :
    b.rest = transferIdClValue id ++ b'.rest := by
  obtain ⟨raw, b₁, hraw, h⟩ := bind_ok h
  obtain ⟨optionType, b₂, hoption, h⟩ := bind_ok h
  obtain ⟨nestedType, b₃, hnested, h⟩ := bind_ok h
  obtain ⟨hid, h⟩ := demand_ok h
  obtain ⟨rfl, rfl⟩ := pure_ok h
  simp only [Bool.and_eq_true, beq_iff_eq] at hid
  obtain ⟨⟨⟨rfl, rfl⟩, hlength⟩, hhead⟩ := hid
  have htail : raw.tail.length = 8 := by rw [List.length_tail, hlength]
  have hbytes : leBytes 8 (beValue raw.tail.reverse) = raw.tail := by
    rw [← htail]
    exact leBytes_beValue _
  rw [vectorBytes_ok hraw, u8_ok hoption, u8_ok hnested, transferIdClValue, hbytes,
    ← head_tail hhead, List.append_assoc]
  rfl

theorem parseDependencies_ok {n : Nat} {hashes : List (List UInt8)}
    (h : parseDependencies n b = (.ok hashes, b')) :
    b.rest = hashes.flatten ++ b'.rest ∧ hashes.length = n := by
  induction n generalizing b hashes with
  | zero =>
    obtain ⟨rfl, rfl⟩ := pure_ok h
    exact ⟨rfl, rfl⟩
  | succ n ih =>
    obtain ⟨hash, b₁, hhash, h⟩ := bind_ok h
    obtain ⟨rest, b₂, hrest, h⟩ := bind_ok h
    obtain ⟨rfl, rfl⟩ := pure_ok h
    obtain ⟨hflat, rfl⟩ := ih hrest
    rw [(read_ok hhash).1, hflat, List.flatten_cons, List.append_assoc]
    exact ⟨rfl, rfl⟩

theorem parseApprovals_ok {n : Nat} {signerHexes : List JsString} {approvals : List Approval}
    (h : parseApprovals signerHexes n b = (.ok approvals, b')) :
    b.rest = approvals.flatMap approvalBytes ++ b'.rest ∧ approvals.length = n := by
  induction n generalizing b signerHexes approvals with
  | zero =>
    obtain ⟨rfl, rfl⟩ := pure_ok h
    exact ⟨rfl, rfl⟩
  | succ n ih =>
    obtain ⟨signer, b₁, hsigner, h⟩ := bind_ok h
    obtain ⟨signatureAlgorithm, b₂, halgorithm, h⟩ := bind_ok h
    obtain ⟨signature, b₃, hsignature, h⟩ := bind_ok h
    obtain ⟨hsame, h⟩ := demand_ok h
    obtain ⟨-, h⟩ := demand_ok h
    obtain ⟨rest, b₄, hrest, h⟩ := bind_ok h
    obtain ⟨rfl, rfl⟩ := pure_ok h
    obtain ⟨hflat, rfl⟩ := ih hrest
    have hsame : signatureAlgorithm = signer.algorithm := eq_of_beq hsame
    rw [parsePublicKey_ok hsigner, u8_ok halgorithm, (read_ok hsignature).1, hflat, hsame,
      List.flatMap_cons, approvalBytes]
    simp only [List.append_assoc, List.cons_append]
    exact ⟨trivial, rfl⟩

/-- What is accepted ends with the buffer and is the encoding of its fields. -/
theorem parseDeploy_ok {size : Nat} {fields : DeployFields} {layout : Layout}
    (h : parseDeploy rt size b = (.ok (fields, layout), b')) :
    b.rest = fields.encode ++ b'.rest ∧ b'.offset = size := by
  obtain ⟨headerStart, b₀, hstart, h⟩ := bind_ok h
  obtain ⟨-, rfl⟩ := position_ok hstart
  obtain ⟨sourcePublicKey, b₁, hkey, h⟩ := bind_ok h
  obtain ⟨timestamp, b₂, htimestamp, h⟩ := bind_ok h
  obtain ⟨ttl, b₃, httl, h⟩ := bind_ok h
  obtain ⟨gasPrice, b₄, hgasPrice, h⟩ := bind_ok h
  obtain ⟨bodyHash, b₅, hbodyHash, h⟩ := bind_ok h
  obtain ⟨dependencyCount, b₆, hcount, h⟩ := bind_ok h
  obtain ⟨-, h⟩ := demand_ok h
  obtain ⟨dependencies, b₇, hdependencies, h⟩ := bind_ok h
  obtain ⟨chainName, b₈, hchainName, h⟩ := bind_ok h
  obtain ⟨headerEnd, _, hend, h⟩ := bind_ok h
  obtain ⟨-, rfl⟩ := position_ok hend
  obtain ⟨deployHash, b₉, hdeployHash, h⟩ := bind_ok h
  obtain ⟨paymentStart, _, hstart, h⟩ := bind_ok h
  obtain ⟨-, rfl⟩ := position_ok hstart
  obtain ⟨paymentVariant, b₁₀, hpaymentVariant, h⟩ := bind_ok h
  obtain ⟨hpaymentZero, h⟩ := demand_ok h
  obtain ⟨moduleBytes, b₁₁, hmodule, h⟩ := bind_ok h
  obtain ⟨hempty, h⟩ := demand_ok h
  obtain ⟨paymentArguments, b₁₂, hpaymentArguments, h⟩ := bind_ok h
  obtain ⟨hone, h⟩ := demand_ok h
  obtain ⟨_, b₁₃, hpaymentName, h⟩ := bind_ok h
  obtain ⟨paymentAmount, b₁₄, hpaymentAmount, h⟩ := bind_ok h
  obtain ⟨sessionStart, _, hstart, h⟩ := bind_ok h
  obtain ⟨-, rfl⟩ := position_ok hstart
  obtain ⟨sessionVariant, b₁₅, hsessionVariant, h⟩ := bind_ok h
  obtain ⟨hfive, h⟩ := demand_ok h
  obtain ⟨sessionArguments, b₁₆, hsessionArguments, h⟩ := bind_ok h
  obtain ⟨hthree, h⟩ := demand_ok h
  obtain ⟨_, b₁₇, htargetName, h⟩ := bind_ok h
  obtain ⟨recipient, b₁₈, hrecipient, h⟩ := bind_ok h
  obtain ⟨_, b₁₉, hamountName, h⟩ := bind_ok h
  obtain ⟨amount, b₂₀, hamount, h⟩ := bind_ok h
  obtain ⟨_, b₂₁, hidName, h⟩ := bind_ok h
  obtain ⟨transferId, b₂₂, htransferId, h⟩ := bind_ok h
  obtain ⟨sessionEnd, _, hend, h⟩ := bind_ok h
  obtain ⟨-, rfl⟩ := position_ok hend
  obtain ⟨approvalCount, b₂₃, happrovalCount, h⟩ := bind_ok h
  obtain ⟨-, h⟩ := demand_ok h
  obtain ⟨approvals, b₂₄, happrovals, h⟩ := bind_ok h
  obtain ⟨offset, _, hoffset, h⟩ := bind_ok h
  obtain ⟨rfl, rfl⟩ := position_ok hoffset
  obtain ⟨hconsumed, h⟩ := demand_ok h
  obtain ⟨hfields, rfl⟩ := pure_ok h
  obtain ⟨rfl, -⟩ := Prod.mk.inj hfields
  refine ⟨?_, eq_of_beq hconsumed⟩
  -- The constants that the reader asks for are those of the encoding.
  obtain rfl : paymentVariant = 0 := eq_of_beq hpaymentZero
  obtain rfl : moduleBytes = [] := List.isEmpty_iff.mp hempty
  obtain rfl : paymentArguments = 1 := eq_of_beq hone
  obtain rfl : sessionVariant = 5 := eq_of_beq hfive
  obtain rfl : sessionArguments = 3 := eq_of_beq hthree
  obtain ⟨hhashes, rfl⟩ := parseDependencies_ok hdependencies
  obtain ⟨hsigned, rfl⟩ := parseApprovals_ok happrovals
  rw [parsePublicKey_ok hkey, u64le_ok htimestamp, u64le_ok httl, u64le_ok hgasPrice,
    (read_ok hbodyHash).1, u32le_ok hcount, hhashes, text_ok hchainName,
    (read_ok hdeployHash).1, u8_ok hpaymentVariant, vectorBytes_ok hmodule,
    u32le_ok hpaymentArguments, requireName_ok hpaymentName, parseU512ClValue_ok hpaymentAmount,
    u8_ok hsessionVariant, u32le_ok hsessionArguments, requireName_ok htargetName,
    parseTargetClValue_ok hrecipient, requireName_ok hamountName, parseU512ClValue_ok hamount,
    requireName_ok hidName, parseTransferIdClValue_ok htransferId, u32le_ok happrovalCount,
    hsigned]
  simp only [DeployFields.encode, DeployFields.headerBytes, DeployFields.paymentBytes,
    DeployFields.sessionBytes, DeployFields.approvalsBytes, List.append_assoc, List.cons_append]
  rfl

end Encoding

section Canonicity
variable (rt : NativeDeploy.Runtime)

def Accepts (bytes : List UInt8) (fields : DeployFields) : Prop :=
  ∃ layout, (run rt bytes).1 = .ok (fields, layout)

theorem run_encode {rt : NativeDeploy.Runtime} {bytes : List UInt8} {fields : DeployFields}
    (h : Accepts rt bytes fields) : fields.encode = bytes ∧ (run rt bytes).2.offset = bytes.length := by
  obtain ⟨layout, hresult⟩ := h
  have hrun : run rt bytes = (.ok (fields, layout), (run rt bytes).2) := by rw [← hresult]
  obtain ⟨hrest, hoffset⟩ := parseDeploy_ok hrun
  have hleft : (run rt bytes).2.rest = [] := by
    have hcontent := (run_within rt bytes).content
    rw [Buffer.rest, hoffset, hcontent, List.drop_length]
  rw [hleft, List.append_nil] at hrest
  exact ⟨hrest.symm, hoffset⟩

/-- The reader never leaves its buffer; what it accepts it has read to the end and is the encoding
of the fields; the verifier reads with it. -/
theorem signed_deploy_canonical :
    (∀ bytes, (run rt bytes).2.Within bytes) ∧
    (∀ bytes fields, Accepts rt bytes fields →
      (run rt bytes).2.offset = bytes.length ∧ fields.encode = bytes) ∧
    (∀ bytes other fields, Accepts rt bytes fields → Accepts rt other fields → bytes = other) ∧
    ∀ input facts, verifySignedNativeTransferDeploy rt input = .ok facts →
      ∃ bytes fields, hexText input.signedDeployHex = .ok bytes ∧ Accepts rt bytes fields := by
  refine ⟨run_within rt, ?_, ?_, ?_⟩
  · intro bytes fields h
    obtain ⟨hencode, hoffset⟩ := run_encode h
    exact ⟨hoffset, hencode⟩
  · intro bytes other fields h hother
    rw [← (run_encode h).1, (run_encode hother).1]
  · intro input facts h
    obtain ⟨bytes, deploy, rest, hbytes, hdeploy, -⟩ := (verifySigned_matches h).signed
    obtain ⟨fields, layout, hrun, -⟩ := parseDeploy_run hdeploy
    exact ⟨bytes, fields, hbytes, layout, hrun⟩

/-- The sample deploy is the encoding of its fields. -/
theorem signed_deploy_canonical_sample : ∃ bytes fields,
    hexText (.string NativeFinality.signedHex) = .ok bytes ∧
      Accepts NativeFinality.sampleRuntime bytes fields ∧ fields.encode = bytes := by
  obtain ⟨-, hencode, -, hverify⟩ := signed_deploy_canonical NativeFinality.sampleRuntime
  obtain ⟨bytes, fields, hbytes, haccepts⟩ := hverify _ _ (NativeFinality.sample_signed [])
  exact ⟨bytes, fields, hbytes, haccepts, (hencode bytes fields haccepts).2⟩

end Canonicity
end Concordia.Verify.DeployBytes
