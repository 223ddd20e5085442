import Concordia.Verify.DeployBytes
import Concordia.Verify.Rpc

/-! Signed deploys in JSON: typed arguments with their bytes and their displayed values, and the
bytes that the body hash is taken of. -/
namespace Concordia.Verify.DeployJson
open Concordia.Js Concordia.Lib.Encoding
open Concordia.Verify.NativeDeploy hiding Runtime text vectorBytes parsePublicKey
  parseCanonicalU512 maxDeployBytes accountHash
open Concordia.Verify.NativeFinality (isNull lowerUnit present prop_cons_self)
open Concordia.Verify.Rpc

def maxDeployBytes : Nat := 8 * 1024 * 1024
def maxCollectionItems : Nat := 1024

/-- Hashing, signatures, `Date.parse` and the two UTF-8 decoders: the fatal one as a plain decoder,
which keeps a byte order mark, and `Buffer.toString`. -/
structure Runtime where
  blake2b256 : List UInt8 → List UInt8
  validApproval : PublicKey → List UInt8 → List UInt8 → Except String Bool
  dateParse : JsString → Option Int
  decodeUtf8 : List UInt8 → Option JsString
  bufferToString : List UInt8 → JsString

def byteOrderMark : List UInt8 := [0xef, 0xbb, 0xbf]

/-- `new TextDecoder("utf-8", { fatal: true }).decode(bytes)`, which passes over a byte order mark. -/
def Runtime.textDecoder (rt : Runtime) (bytes : List UInt8) : Option JsString :=
  rt.decodeUtf8 (if byteOrderMark.isPrefixOf bytes then bytes.drop 3 else bytes)

structure DeployRuntimeArgument where
  name : JsString
  clType : Value
  bytes : List UInt8
  parsed : Value

inductive DeployExecutable where
  | moduleBytes (moduleBytes : List UInt8) (args : List DeployRuntimeArgument)
  | storedContractByHash (contractHash entryPoint : JsString) (args : List DeployRuntimeArgument)
  | storedVersionedContractByHash (packageHash : JsString) (version : Option Nat)
      (entryPoint : JsString) (args : List DeployRuntimeArgument)

def DeployExecutable.args : DeployExecutable → List DeployRuntimeArgument
  | .moduleBytes _ args => args
  | .storedContractByHash _ _ args => args
  | .storedVersionedContractByHash _ _ _ args => args

structure SignedDeployJsonFacts where
  deployHash : JsString
  bodyHash : JsString
  chainName : String
  timestampMs : JsString
  ttlMs : JsString
  gasPrice : JsString
  initiatorPublicKey : JsString
  initiatorAccountHash : JsString
  payment : DeployExecutable
  paymentBytes : List UInt8
  session : DeployExecutable
  sessionBytes : List UInt8
  approvalSigners : List JsString
  canonicalBytes : List UInt8

structure Expectation where
  deployHash : JsString
  initiatorPublicKey : JsString
  exactlyOneApproval : Bool

def dialect : Dialect where
  notExact label := s!"{label} must contain exactly the frozen own fields"
  paramsDiffer _ := ""
  bigintIds := false

section Fields

def isHexDigitAnyCase (u : UInt16) : Bool :=
  isDigit u || (0x61 ≤ u && u ≤ 0x66) || (0x41 ≤ u && u ≤ 0x46)

def littleUnsigned (value byteLength : Nat) : Except String (List UInt8) := do
  require (value < 256 ^ byteLength) s!"value is outside u{byteLength * 8} range"
  return leBytes byteLength value

def u32le (value : Nat) : Except String (List UInt8) := littleUnsigned value 4

def vector (value : List UInt8) : Except String (List UInt8) := do
  require (value.length ≤ maxDeployBytes) "deploy vector exceeds size limit"
  let length ← u32le value.length
  return length ++ value

/-- `lowerHash` without its check for zero. -/
def lowerHash (value : Value) (label : String) : Except String JsString :=
  let malformed := s!"{label} must be a 32-byte hexadecimal value"
  match value with
  | .string s =>
    if s.length == 64 && s.all isHexDigitAnyCase then .ok (s.map lowerUnit) else .error malformed
  | _ => .error malformed

def nonzeroHash (value : Value) (label : String) : Except String JsString := do
  let lowered ← lowerHash value label
  require (lowered != List.replicate 64 0x30) s!"{label} cannot be zero"
  return lowered

def caseInsensitiveHexBytes (value : Value) (label : String) : Except String (List UInt8) :=
  match value with
  | .string s =>
    if s.length % 2 == 0 && s.all isHexDigitAnyCase then hexText (.string (s.map lowerUnit))
    else .error s!"{label} must be even-length hexadecimal"
  | _ => .error s!"{label} must be even-length hexadecimal"

def parsePublicKey (value : Value) (label : String) : Except String PublicKey := do
  let _ ← (match value with
    | .string s => require (!s.isEmpty && s.all isHexDigitAnyCase)
        s!"{label} must be a Casper public key"
    | _ => .error s!"{label} must be a Casper public key" : Except String Unit)
  let encoded ← caseInsensitiveHexBytes value label
  let algorithm := encoded.head?
  require (algorithm == some 1 || algorithm == some 2) s!"{label} algorithm is unsupported"
  require (encoded.length == if algorithm == some 1 then 33 else 34) s!"{label} length is invalid"
  require (algorithm == some 1 || encoded.tail.head? == some 2 || encoded.tail.head? == some 3)
    s!"{label} secp256k1 key is not compressed"
  return ⟨if algorithm == some 1 then 1 else 2, encoded.tail⟩

/-- The bytes that a lowercase hash stands for. -/
def hashBytes (hash : JsString) : Except String (List UInt8) :=
  (hexBytes (.string hash) 32).mapError EncodingError.message

variable (rt : Runtime)

def text (value : Value) (label : String) : Except String (List UInt8) :=
  match value with
  | .string s => do
    let encoded := utf8 s
    require (encoded.length ≤ maxDeployBytes && rt.bufferToString encoded == s)
      s!"{label} must be canonical UTF-8"
    vector encoded
  | _ => .error s!"{label} must be text"

def accountHash (key : PublicKey) : JsString :=
  let algorithmName := if key.algorithm = 1 then "ed25519" else "secp256k1"
  toHex (rt.blake2b256 (utf8 (js algorithmName) ++ 0 :: key.raw))

/-- The text matches a template in which a `d` stands for any digit. -/
def fits (template : String) (s : JsString) : Bool :=
  s.length == (js template).length &&
    (s.zip (js template)).all fun u => if u.2 == 0x64 then isDigit u.1 else u.1 == u.2

/-- `(?::(\d{2})(?:\.(\d{1,3}))?)?Z` behind the minutes. -/
def secondsFit (s : JsString) : Bool :=
  fits "Z" s || fits ":ddZ" s || fits ":dd.dZ" s || fits ":dd.ddZ" s || fits ":dd.dddZ" s

def monthLength (year month : Nat) : Nat :=
  if month = 2 then if year % 4 = 0 ∧ (year % 100 ≠ 0 ∨ year % 400 = 0) then 29 else 28
  else if month = 4 ∨ month = 6 ∨ month = 9 ∨ month = 11 then 30 else 31

def timestampMillis (value : Value) : Except String Nat :=
  let malformed := "deploy timestamp must be canonical UTC RFC3339"
  match value with
  | .string s => do
    require (fits "dddd-dd-ddTdd:dd" (s.take 16) && secondsFit (s.drop 16)) malformed
    let number (start : Nat) (length : Nat) := digitsValue ((s.drop start).take length)
    let year := number 0 4
    let month := number 5 2
    let day := number 8 2
    let second := if fits "Z" (s.drop 16) then 0 else number 17 2
    require (year != 0 && 1 ≤ month && month ≤ 12 && number 11 2 ≤ 23 && number 14 2 ≤ 59 &&
      second ≤ 59) malformed
    require (1 ≤ day && day ≤ monthLength year month) malformed
    match rt.dateParse s with
    | some parsed => do
      require (0 ≤ parsed && parsed.natAbs ≤ 2 ^ 53 - 1)
        "deploy timestamp is outside the supported range"
      return parsed.toNat
    | none => .error "deploy timestamp is outside the supported range"
  | _ => .error malformed

def ttlUnits : List (String × Nat) := [("ms", 1), ("s", 1000), ("m", 60000), ("h", 3600000)]

def ttlMillis (value : Value) : Except String Nat :=
  match value with
  | .string s => do
    let magnitude := s.takeWhile isDigit
    match ttlUnits.find? fun unit => js unit.1 == s.drop magnitude.length with
    | some (_, multiplier) => do
      require (isCanonicalDecimal magnitude) "deploy ttl must be one canonical duration"
      let result := digitsValue magnitude * multiplier
      require (result < 2 ^ 64) "deploy ttl is outside u64 range"
      return result
    | none => .error "deploy ttl must be one canonical duration"
  | _ => .error "deploy ttl must be text"

end Fields

section Values

inductive ClType where
  | bool | u8 | u32 | u64 | u512 | string | byteArray
  deriving DecidableEq

def scalarTypes : List (String × ClType) :=
  [("Bool", .bool), ("U8", .u8), ("U32", .u32), ("U64", .u64), ("U512", .u512),
    ("String", .string)]

/-- The type of a `cl_type` that is a text. -/
def scalarType (value : Value) : Option ClType :=
  (scalarTypes.find? fun scalar => isLiteral value scalar.1).map (·.2)

def ClType.tag : ClType → UInt8
  | .bool => 0
  | .u8 => 3
  | .u32 => 4
  | .u64 => 5
  | .u512 => 8
  | .string => 10
  | .byteArray => 15

def clTypeBytes (value : Value) (label : String) : Except String (List UInt8) :=
  match scalarType value with
  | some type => .ok [type.tag]
  | none =>
    match value with
    | .object fields => do
      exactOwnKeys dialect fields ["ByteArray"] s!"{label} CLType"
      require (strictEq (prop fields "ByteArray") (.number 32))
        s!"{label} only supports ByteArray(32)"
      let length ← u32le 32
      return ClType.byteArray.tag :: length
    | _ => .error s!"{label} uses an unsupported CLType"

def parseLittle (value : List UInt8) (length : Nat) (label : String) : Except String Nat := do
  require (value.length == length) s!"{label} has an invalid byte length"
  return beValue value.reverse

def parseCanonicalU512 (value : List UInt8) (label : String) : Except String Nat :=
  match value with
  | [] => .error s!"{label} is malformed U512"
  | length :: magnitude => do
    require (length.toNat ≤ 64 && magnitude.length == length.toNat) s!"{label} is malformed U512"
    require (magnitude.getLast? != some 0) s!"{label} is non-canonical U512"
    return beValue magnitude.reverse

variable (rt : Runtime)

def validateUnsigned (raw : List UInt8) (name : String) (width : Nat) (parsed : Value)
    (label : String) : Except String Unit := do
  let decoded ← parseLittle raw width label
  let shown ← unsigned parsed (width * 8)
  require (shown == decoded) s!"{label} parsed {name} differs from bytes"

def validateString (raw : List UInt8) (parsed : Value) (label : String) : Except String Unit := do
  require (4 ≤ raw.length) s!"{label} String is malformed"
  let length ← parseLittle (raw.take 4) 4 label
  let encoded := raw.drop 4
  require (length == encoded.length) s!"{label} String length is non-canonical"
  match rt.textDecoder encoded with
  | some decoded =>
    require (strictEq parsed (.string decoded)) s!"{label} parsed String differs from bytes"
  | none => .error s!"{label} String is invalid UTF-8"

def validateParsedClValue (raw : List UInt8) (clType parsed : Value) (label : String) :
    Except String Unit :=
  match scalarType clType with
  | some .bool =>
    require ((raw == [0] || raw == [1]) &&
      isLiteral parsed (if raw.head? == some 1 then "True" else "False"))
      s!"{label} parsed Bool differs from bytes"
  | some .u8 => validateUnsigned raw "U8" 1 parsed label
  | some .u32 => validateUnsigned raw "U32" 4 parsed label
  | some .u64 => validateUnsigned raw "U64" 8 parsed label
  | some .u512 => do
    let shown ← unsigned parsed 512
    let decoded ← parseCanonicalU512 raw label
    require (shown == decoded) s!"{label} parsed U512 differs from bytes"
  | some .string => validateString rt raw parsed label
  | _ =>
    match clType with
    | .object fields => do
      require (strictEq (prop fields "ByteArray") (.number 32))
        s!"{label} uses an unsupported CLType"
      let expected ← lowerHash parsed s!"{label} parsed ByteArray"
      require (raw.length == 32 && toHex raw == expected)
        s!"{label} parsed ByteArray differs from bytes"
    | _ => .error s!"{label} uses an unsupported CLType"

/-- One pair of the list, with its bytes. -/
def runtimeArg (label : String) (names : List JsString) (item : Value) :
    Except String (DeployRuntimeArgument × List UInt8) :=
  match item with
  | .array [.string name, value] => do
    let path := s!"{label} {shownText name}"
    require (!name.isEmpty) s!"{label} runtime argument shape is invalid"
    require (!names.contains name)
      s!"{label} contains duplicate runtime argument {shownText name}"
    let clValue ← record value path
    exactOwnKeys dialect clValue ["bytes", "cl_type", "parsed"] path
    let _ ← (match prop clValue "bytes" with
      | .string _ => .ok ()
      | _ => .error s!"{path} bytes are missing" : Except String Unit)
    let raw ← caseInsensitiveHexBytes (prop clValue "bytes") s!"{path} bytes"
    let clType := prop clValue "cl_type"
    let parsed := prop clValue "parsed"
    validateParsedClValue rt raw clType parsed path
    let nameBytes ← text rt (.string name) s!"{label} argument name"
    let rawBytes ← vector raw
    let typeBytes ← clTypeBytes clType path
    return (⟨name, clType, raw, parsed⟩, nameBytes ++ rawBytes ++ typeBytes)
  | _ => .error s!"{label} runtime argument shape is invalid"

def runtimeArgList (label : String) (names : List JsString) :
    List Value → Except String (List DeployRuntimeArgument × List UInt8)
  | [] => return ([], [])
  | item :: rest => do
    let (fact, encoded) ← runtimeArg rt label names item
    let (facts, others) ← runtimeArgList label (names ++ [fact.name]) rest
    return (fact :: facts, encoded ++ others)

def runtimeArgs (value : Value) (label : String) :
    Except String (List DeployRuntimeArgument × List UInt8) :=
  match value with
  | .array items => do
    require (items.length ≤ maxCollectionItems) s!"{label} must be a bounded runtime-argument list"
    let count ← u32le items.length
    let (facts, encoded) ← runtimeArgList rt label [] items
    return (facts, count ++ encoded)
  | _ => .error s!"{label} must be a bounded runtime-argument list"

end Values

section Executables
variable (rt : Runtime)

def variantNames : List String :=
  ["ModuleBytes", "StoredContractByHash", "StoredVersionedContractByHash"]

/-- `null`, or a safe integer of 32 bits. -/
def parseVersion (value : Value) (label : String) : Except String (Option Nat) :=
  let malformed := s!"{label} version must be null or canonical u32"
  match value with
  | .null => .ok none
  | .number x =>
    match safeInteger x with
    | some n => if 0 ≤ n ∧ n ≤ 0xffffffff then .ok (some n.toNat) else .error malformed
    | none => .error malformed
  | _ => .error malformed

def versionBytes : Option Nat → Except String (List UInt8)
  | none => .ok [0]
  | some version => do
    let bytes ← u32le version
    return 1 :: bytes

def moduleExecutable (body : Fields) (label : String) :
    Except String (DeployExecutable × List UInt8) := do
  exactOwnKeys dialect body ["module_bytes", "args"] s!"{label} ModuleBytes"
  let _ ← (match prop body "module_bytes" with
    | .string _ => .ok ()
    | _ => .error s!"{label} module bytes are missing" : Except String Unit)
  let moduleBytes ← caseInsensitiveHexBytes (prop body "module_bytes") s!"{label} module bytes"
  let (args, argBytes) ← runtimeArgs rt (prop body "args") label
  let encoded ← vector moduleBytes
  return (.moduleBytes moduleBytes args, 0 :: encoded ++ argBytes)

/-- The entry point of a stored contract; what is no text or empty is refused. -/
def entryPointOf (body : Fields) (label : String) : Except String JsString :=
  match prop body "entry_point" with
  | .string s => if s.isEmpty then .error s!"{label} entry point is invalid" else .ok s
  | _ => .error s!"{label} entry point is invalid"

def storedExecutable (body : Fields) (label : String) :
    Except String (DeployExecutable × List UInt8) := do
  exactOwnKeys dialect body ["hash", "entry_point", "args"] s!"{label} StoredContractByHash"
  let contractHash ← nonzeroHash (prop body "hash") s!"{label} contract hash"
  let entryPoint ← entryPointOf body label
  let (args, argBytes) ← runtimeArgs rt (prop body "args") label
  let hash ← hashBytes contractHash
  let entry ← text rt (.string entryPoint) s!"{label} entry point"
  return (.storedContractByHash contractHash entryPoint args, 1 :: hash ++ entry ++ argBytes)

def versionedExecutable (body : Fields) (label : String) :
    Except String (DeployExecutable × List UInt8) := do
  exactOwnKeys dialect body ["hash", "version", "entry_point", "args"]
    s!"{label} StoredVersionedContractByHash"
  let packageHash ← nonzeroHash (prop body "hash") s!"{label} package hash"
  let entryPoint ← entryPointOf body label
  let (args, argBytes) ← runtimeArgs rt (prop body "args") label
  let version ← parseVersion (prop body "version") label
  let hash ← hashBytes packageHash
  let versioned ← versionBytes version
  let entry ← text rt (.string entryPoint) s!"{label} entry point"
  return (.storedVersionedContractByHash packageHash version entryPoint args,
    3 :: hash ++ versioned ++ entry ++ argBytes)

def executable (value : Value) (label : String) :
    Except String (DeployExecutable × List UInt8) := do
  let outer ← record value label
  match present outer variantNames with
  | [variant] => do
    require ((keys outer).length == 1) s!"{label} must contain one supported executable variant"
    let body ← record (prop outer variant) s!"{label} {variant}"
    if variant = "ModuleBytes" then moduleExecutable rt body label
    else if variant = "StoredVersionedContractByHash" then versionedExecutable rt body label
    else storedExecutable rt body label
  | _ => .error s!"{label} must contain one supported executable variant"

end Executables

section Verification
variable (rt : Runtime)

def dependencyHashes : List Value → Except String (List (List UInt8))
  | [] => return []
  | item :: rest => do
    let hash ← lowerHash item "deploy dependency"
    let bytes ← hashBytes hash
    let others ← dependencyHashes rest
    return bytes :: others

def verifyApprovals (deployHash : List UInt8) (signers : List JsString) :
    List Value → Except String (List JsString × List UInt8)
  | [] => return (signers, [])
  | raw :: rest => do
    let approval ← record raw "deploy approval"
    exactOwnKeys dialect approval ["signer", "signature"] "deploy approval"
    let signer ← parsePublicKey (prop approval "signer") "approval signer"
    let signerHex := toHex signer.encoded
    require (!signers.contains signerHex) "deploy contains a duplicate approval signer"
    let _ ← (match prop approval "signature" with
      | .string _ => .ok ()
      | _ => .error "approval signature is missing" : Except String Unit)
    let signature ← caseInsensitiveHexBytes (prop approval "signature") "approval signature"
    require (signature.length == 65 && signature.head? == some signer.algorithm.toUInt8)
      "approval signature algorithm or length is invalid"
    let valid ← rt.validApproval signer deployHash signature.tail
    require valid "approval signature is invalid"
    let (all, encoded) ← verifyApprovals deployHash (signers ++ [signerHex]) rest
    return (all, signer.encoded ++ signature ++ encoded)

structure Header where
  initiator : PublicKey
  timestamp : Nat
  ttl : Nat
  gasPrice : Nat
  bodyHash : JsString
  bytes : List UInt8

def headerFields : List String :=
  ["account", "body_hash", "chain_name", "dependencies", "gas_price", "timestamp", "ttl"]

def verifyHeader (header : Fields) (initiatorPublicKey : JsString) : Except String Header := do
  exactOwnKeys dialect header headerFields "deploy header"
  let initiator ← parsePublicKey (prop header "account") "deploy initiator"
  let expectedInitiator ← parsePublicKey (.string initiatorPublicKey) "expected deploy initiator"
  require (toHex initiator.encoded == toHex expectedInitiator.encoded)
    "deploy initiator differs from configured role"
  let timestamp ← timestampMillis rt (prop header "timestamp")
  let ttl ← ttlMillis (prop header "ttl")
  let gasPrice ← unsigned (prop header "gas_price") 64
  let bodyHash ← lowerHash (prop header "body_hash") "deploy body hash"
  let dependencies ← (match prop header "dependencies" with
    | .array items => do
      require (items.length ≤ maxCollectionItems) "deploy dependencies must be a bounded list"
      dependencyHashes items
    | _ => .error "deploy dependencies must be a bounded list" : Except String _)
  require (isLiteral (prop header "chain_name") "casper-test")
    "deploy chain must be exactly casper-test"
  let timestampBytes ← littleUnsigned timestamp 8
  let ttlBytes ← littleUnsigned ttl 8
  let gasBytes ← littleUnsigned gasPrice 8
  let bodyBytes ← hashBytes bodyHash
  let count ← u32le dependencies.length
  let chain ← text rt (prop header "chain_name") "deploy chain name"
  return ⟨initiator, timestamp, ttl, gasPrice, bodyHash,
    initiator.encoded ++ timestampBytes ++ ttlBytes ++ gasBytes ++ bodyBytes ++ count ++
      dependencies.flatten ++ chain⟩

def verifySignedDeployJson (value : Value) (expectation : Expectation) :
    Except String SignedDeployJsonFacts := do
  let deploy ← record value "signed deploy JSON"
  exactOwnKeys dialect deploy ["approvals", "hash", "header", "payment", "session"]
    "signed deploy JSON"
  let rawHeader ← record (prop deploy "header") "deploy header"
  let header ← verifyHeader rt rawHeader expectation.initiatorPublicKey
  let computedDeployHash := rt.blake2b256 header.bytes
  let expectedHash ← lowerHash (.string expectation.deployHash) "expected deploy hash"
  let suppliedHash ← lowerHash (prop deploy "hash") "supplied deploy hash"
  require (toHex computedDeployHash == expectedHash && suppliedHash == expectedHash)
    "deploy hash differs from canonical header bytes"
  let (payment, paymentBytes) ← executable rt (prop deploy "payment") "deploy payment"
  let (session, sessionBytes) ← executable rt (prop deploy "session") "deploy session"
  require (toHex (rt.blake2b256 (paymentBytes ++ sessionBytes)) == header.bodyHash)
    "deploy body hash differs from executable bytes"
  let rawApprovals ← (match prop deploy "approvals" with
    | .array items => do
      require (!items.isEmpty && items.length ≤ maxCollectionItems)
        "deploy approvals must be a bounded, non-empty list"
      return items
    | _ => .error "deploy approvals must be a bounded, non-empty list" : Except String (List Value))
  require (!expectation.exactlyOneApproval || rawApprovals.length == 1)
    "deploy must carry exactly one role approval"
  let count ← u32le rawApprovals.length
  let (signers, approvalBytes) ← verifyApprovals rt computedDeployHash [] rawApprovals
  require (signers.contains (toHex header.initiator.encoded))
    "deploy initiator did not approve the deploy"
  let canonicalBytes := header.bytes ++ computedDeployHash ++ paymentBytes ++ sessionBytes ++
    count ++ approvalBytes
  require (canonicalBytes.length ≤ maxDeployBytes) "canonical deploy exceeds size limit"
  return {
    deployHash := expectedHash
    bodyHash := header.bodyHash
    chainName := "casper-test"
    timestampMs := decimal header.timestamp
    ttlMs := decimal header.ttl
    gasPrice := decimal header.gasPrice
    initiatorPublicKey := toHex header.initiator.encoded
    initiatorAccountHash := accountHash rt header.initiator
    payment, paymentBytes, session, sessionBytes
    approvalSigners := signers
    canonicalBytes }

end Verification

/-! What a displayed value stands for, and what its bytes stand for. -/
section Meaning

inductive ClValue where
  | bool (b : Bool)
  | unsigned (n : Nat)
  | string (s : JsString)
  | byteArray (bytes : List UInt8)
  deriving DecidableEq

def ClType.json : ClType → Value
  | .bool => .string (js "Bool")
  | .u8 => .string (js "U8")
  | .u32 => .string (js "U32")
  | .u64 => .string (js "U64")
  | .u512 => .string (js "U512")
  | .string => .string (js "String")
  | .byteArray => .object [(js "ByteArray", .number 32)]

def ClType.bytes : ClType → List UInt8
  | .byteArray => ClType.byteArray.tag :: leBytes 4 32
  | type => [type.tag]

def little (width : Nat) (raw : List UInt8) : Option ClValue :=
  if raw.length = width then some (.unsigned (beValue raw.reverse)) else none

/-- The value that the bytes stand for, under a decoder of texts. -/
def ClType.decode (decoder : List UInt8 → Option JsString) : ClType → List UInt8 → Option ClValue
  | .bool, raw => if raw = [0] then some (.bool false) else if raw = [1] then some (.bool true)
      else none
  | .u8, raw => little 1 raw
  | .u32, raw => little 4 raw
  | .u64, raw => little 8 raw
  | .u512, raw => (parseCanonicalU512 raw "value").toOption.map .unsigned
  | .string, raw =>
    if 4 ≤ raw.length ∧ beValue (raw.take 4).reverse = (raw.drop 4).length then
      (decoder (raw.drop 4)).map .string
    else none
  | .byteArray, raw => if raw.length = 32 then some (.byteArray raw) else none

/-- The value that a displayed one stands for. -/
def ClType.denotes : ClType → Value → Option ClValue
  | .bool, shown => if isLiteral shown "True" then some (.bool true)
      else if isLiteral shown "False" then some (.bool false) else none
  | .u8, shown => (unsigned shown 8).toOption.map .unsigned
  | .u32, shown => (unsigned shown 32).toOption.map .unsigned
  | .u64, shown => (unsigned shown 64).toOption.map .unsigned
  | .u512, shown => (unsigned shown 512).toOption.map .unsigned
  | .string, .string s => some (.string s)
  | .string, _ => none
  | .byteArray, shown => ((lowerHash shown "value").toOption.bind fromHex).map .byteArray

variable (rt : Runtime)

/-- The displayed value is what the bytes decode to. -/
def Displayed (arg : DeployRuntimeArgument) : Prop :=
  ∃ (type : ClType) (value : ClValue), arg.clType = type.json ∧
    type.decode rt.decodeUtf8 arg.bytes = some value ∧ type.denotes arg.parsed = some value

/-- The argument is a text whose bytes start with the byte order mark. -/
def StartsWithMark (arg : DeployRuntimeArgument) : Prop :=
  arg.clType = ClType.string.json ∧ byteOrderMark <+: arg.bytes.drop 4

/-- The pair of a name and a `String` whose text starts with the byte order mark. -/
def MarkedText (item : Value) : Prop :=
  ∃ name fields label raw, item = .array [.string name, .object fields] ∧
    prop fields "cl_type" = ClType.string.json ∧
    caseInsensitiveHexBytes (prop fields "bytes") label = .ok raw ∧ byteOrderMark <+: raw.drop 4

/-- The pair stands in the arguments of the executable. -/
def ExecutableItem (part item : Value) : Prop :=
  ∃ outer variant body items, part = .object outer ∧ variant ∈ variantNames ∧
    prop outer variant = .object body ∧ prop body "args" = .array items ∧ item ∈ items

/-- The pair stands in the arguments of the payment or of the session. -/
def DeployItem (value item : Value) : Prop :=
  ∃ deploy, value = .object deploy ∧
    (ExecutableItem (prop deploy "payment") item ∨ ExecutableItem (prop deploy "session") item)

/-- What the fatal decoder finds is encoded by these bytes. -/
def LawfulUtf8 : Prop := ∀ bytes s, rt.decodeUtf8 bytes = some s → utf8 s = bytes

theorem scalarType_json (type : ClType) :
    scalarType type.json = if type = .byteArray then none else some type := by
  cases type with
  | byteArray => rfl
  | _ => decide +kernel

variable {rt}

theorem strictEq_number {value : Value} {x : ℚ} (h : strictEq value (.number x) = true) :
    value = .number x := by
  cases value with
  | number y => rw [eq_of_beq h]
  | _ => cases h

/-- The type is one of the supported ones, and its bytes are written. -/
theorem clTypeBytes_ok {value : Value} {label : String} {bytes : List UInt8}
    (h : clTypeBytes value label = .ok bytes) :
    ∃ type : ClType, value = type.json ∧ bytes = type.bytes := by
  unfold clTypeBytes at h
  cases hscalar : scalarType value with
  | some type =>
    rw [hscalar] at h
    obtain rfl := Except.ok.inj h
    unfold scalarType at hscalar
    obtain ⟨⟨name, type'⟩, hfound, rfl⟩ := Option.map_eq_some_iff.mp hscalar
    have hliteral := List.find?_some hfound
    have hin := List.mem_of_find?_eq_some hfound
    have hvalue : value = .string (js name) := by
      cases value with
      | string s => rw [(strictEq_string _ _).mp hliteral]
      | _ => cases hliteral
    refine ⟨type', ?_⟩
    rw [hvalue]
    simp only [scalarTypes, List.mem_cons, Prod.mk.injEq, List.not_mem_nil, or_false] at hin
    rcases hin with ⟨rfl, rfl⟩ | ⟨rfl, rfl⟩ | ⟨rfl, rfl⟩ | ⟨rfl, rfl⟩ | ⟨rfl, rfl⟩ | ⟨rfl, rfl⟩
    all_goals exact ⟨rfl, rfl⟩
  | none =>
    rw [hscalar] at h
    cases value with
    | object fields =>
      obtain ⟨⟨⟩, hkeys, h⟩ := bind_ok h
      obtain ⟨hsize, h⟩ := require_ok h
      obtain ⟨length, hlength, h⟩ := bind_ok h
      obtain ⟨-, hlength⟩ := require_ok hlength
      obtain rfl := Except.ok.inj hlength
      obtain rfl := Except.ok.inj h
      obtain ⟨v, rfl⟩ := exactOwnKeys_single hkeys
      rw [prop_cons_self] at hsize
      rw [strictEq_number hsize]
      exact ⟨.byteArray, rfl, rfl⟩
    | _ => cases h

theorem validateUnsigned_ok {raw : List UInt8} {name label : String} {width : Nat} {parsed : Value}
    (h : validateUnsigned raw name width parsed label = .ok ()) :
    ∃ n, little width raw = some (.unsigned n) ∧ unsigned parsed (width * 8) = .ok n := by
  obtain ⟨decoded, hdecoded, h⟩ := bind_ok h
  obtain ⟨shown, hshown, h⟩ := bind_ok h
  obtain ⟨hlength, hdecoded⟩ := require_ok hdecoded
  have hsame : shown = decoded := eq_of_beq (Rpc.require_unit h)
  refine ⟨decoded, ?_, hsame ▸ hshown⟩
  rw [little, if_pos (eq_of_beq hlength), Except.ok.inj hdecoded]

theorem validateString_ok {raw : List UInt8} {parsed : Value} {label : String}
    (h : validateString rt raw parsed label = .ok ()) :
    ∃ s, ClType.string.decode rt.textDecoder raw = some (.string s) ∧ parsed = .string s := by
  obtain ⟨hlong, h⟩ := require_ok h
  obtain ⟨length, hlength, h⟩ := bind_ok h
  obtain ⟨-, hlength⟩ := require_ok hlength
  obtain rfl := Except.ok.inj hlength
  obtain ⟨hsame, h⟩ := require_ok h
  have hsplit : 4 ≤ raw.length ∧ beValue (raw.take 4).reverse = (raw.drop 4).length :=
    ⟨of_decide_eq_true hlong, eq_of_beq hsame⟩
  cases hdecoded : rt.textDecoder (raw.drop 4) with
  | none =>
    rw [hdecoded] at h
    cases h
  | some s =>
    rw [hdecoded] at h
    refine ⟨s, ?_, ?_⟩
    · rw [ClType.decode, if_pos hsplit, hdecoded, Option.map_some]
    · have hshown := Rpc.require_unit h
      cases parsed with
      | string t => rw [(strictEq_string _ _).mp hshown]
      | _ => cases hshown

theorem lowerHash_ok {value : Value} {label : String} {s : JsString}
    (h : lowerHash value label = .ok s) (other : String) : lowerHash value other = .ok s := by
  cases value with
  | string t =>
    simp only [lowerHash] at h ⊢
    split at h
    · next hhex =>
      rw [if_pos hhex]
      exact h
    · cases h
  | _ => cases h

theorem parseCanonicalU512_ok {raw : List UInt8} {label : String} {n : Nat}
    (h : parseCanonicalU512 raw label = .ok n) (other : String) :
    parseCanonicalU512 raw other = .ok n := by
  cases raw with
  | nil => cases h
  | cons length magnitude =>
    obtain ⟨hlength, h⟩ := require_ok h
    obtain ⟨hminimal, h⟩ := require_ok h
    simp only [parseCanonicalU512, hlength, hminimal, NativeDeploy.require, if_true]
    exact h

theorem literal_of_isLiteral {value : Value} {s : String} (h : isLiteral value s = true) :
    value = .string (js s) := by
  cases value with
  | string t => rw [(strictEq_string _ _).mp h]
  | _ => cases h

theorem validateBool_ok {raw : List UInt8} {parsed : Value} {label : String}
    (h : validateParsedClValue rt raw ClType.bool.json parsed label = .ok ()) :
    ∃ value, ClType.bool.decode rt.textDecoder raw = some value ∧
      ClType.bool.denotes parsed = some value := by
  obtain ⟨hraw, hshown⟩ := Bool.and_eq_true_iff.mp (Rpc.require_unit h)
  rcases Bool.or_eq_true_iff.mp hraw with hzero | hone
  · obtain rfl : raw = [0] := eq_of_beq hzero
    have hparsed : parsed = .string (js "False") := literal_of_isLiteral hshown
    rw [hparsed]
    exact ⟨.bool false, rfl, by decide +kernel⟩
  · obtain rfl : raw = [1] := eq_of_beq hone
    have hparsed : parsed = .string (js "True") := literal_of_isLiteral hshown
    rw [hparsed]
    refine ⟨.bool true, ?_, by decide +kernel⟩
    rw [ClType.decode, if_neg (by decide), if_pos rfl]

theorem unsigned_denotes {parsed : Value} {bits n : Nat} (h : unsigned parsed bits = .ok n) :
    (unsigned parsed bits).toOption.map ClValue.unsigned = some (.unsigned n) := by
  rw [h]
  rfl

/-- A validated value is what the bytes decode to, with a byte order mark passed over. -/
theorem validate_ok {raw : List UInt8} {type : ClType} {parsed : Value} {label : String}
    (h : validateParsedClValue rt raw type.json parsed label = .ok ()) :
    ∃ value, type.decode rt.textDecoder raw = some value ∧ type.denotes parsed = some value := by
  cases type with
  | bool => exact validateBool_ok h
  | u8 =>
    unfold validateParsedClValue at h
    rw [scalarType_json] at h
    obtain ⟨n, hbytes, hshown⟩ := validateUnsigned_ok h
    exact ⟨_, hbytes, unsigned_denotes hshown⟩
  | u32 =>
    unfold validateParsedClValue at h
    rw [scalarType_json] at h
    obtain ⟨n, hbytes, hshown⟩ := validateUnsigned_ok h
    exact ⟨_, hbytes, unsigned_denotes hshown⟩
  | u64 =>
    unfold validateParsedClValue at h
    rw [scalarType_json] at h
    obtain ⟨n, hbytes, hshown⟩ := validateUnsigned_ok h
    exact ⟨_, hbytes, unsigned_denotes hshown⟩
  | u512 =>
    unfold validateParsedClValue at h
    rw [scalarType_json] at h
    obtain ⟨shown, hshown, h⟩ := bind_ok h
    obtain ⟨decoded, hdecoded, h⟩ := bind_ok h
    have hsame : shown = decoded := eq_of_beq (Rpc.require_unit h)
    refine ⟨.unsigned decoded, ?_, unsigned_denotes (hsame ▸ hshown)⟩
    rw [ClType.decode, parseCanonicalU512_ok hdecoded]
    rfl
  | string =>
    unfold validateParsedClValue at h
    rw [scalarType_json] at h
    obtain ⟨s, hbytes, rfl⟩ := validateString_ok h
    exact ⟨_, hbytes, rfl⟩
  | byteArray =>
    unfold validateParsedClValue at h
    rw [scalarType_json] at h
    obtain ⟨-, h⟩ := require_ok h
    obtain ⟨expected, hexpected, h⟩ := bind_ok h
    obtain ⟨hlength, hsame⟩ := Bool.and_eq_true_iff.mp (Rpc.require_unit h)
    have hsame : toHex raw = expected := eq_of_beq hsame
    refine ⟨.byteArray raw, ?_, ?_⟩
    · rw [ClType.decode, if_pos (eq_of_beq hlength)]
    · rw [ClType.denotes, lowerHash_ok hexpected, ← hsame]
      simp only [Except.toOption, Option.bind_some, fromHex_toHex, Option.map_some]

/-- Only texts are decoded with the decoder of texts. -/
theorem decode_of_ne_string {type : ClType} (h : type ≠ .string)
    (d d' : List UInt8 → Option JsString) (raw : List UInt8) :
    type.decode d raw = type.decode d' raw := by
  cases type with
  | string => exact absurd rfl h
  | _ => rfl

theorem json_injective {type other : ClType} (h : type.json = other.json) : type = other := by
  have hscalar := congrArg scalarType h
  rw [scalarType_json, scalarType_json] at hscalar
  cases type <;> cases other <;> first | rfl | cases hscalar

/-- What is displayed is what the bytes decode to, unless a mark was passed over. -/
theorem displayed_iff (hutf8 : LawfulUtf8 rt) {arg : DeployRuntimeArgument} {type : ClType}
    {value : ClValue} (htype : arg.clType = type.json)
    (hbytes : type.decode rt.textDecoder arg.bytes = some value)
    (hshown : type.denotes arg.parsed = some value) : Displayed rt arg ↔ ¬ StartsWithMark arg := by
  by_cases hstring : type = .string
  · subst hstring
    simp only [ClType.decode] at hbytes
    split at hbytes
    · next hsplit =>
      obtain ⟨s, hs, rfl⟩ := Option.map_eq_some_iff.mp hbytes
      unfold Runtime.textDecoder at hs
      by_cases hmark : byteOrderMark <+: arg.bytes.drop 4
      · rw [if_pos (List.isPrefixOf_iff_prefix.mpr hmark)] at hs
        constructor
        · rintro ⟨type, value, htype', hdecoded, hdenotes⟩ -
          obtain rfl : ClType.string = type := json_injective (htype.symm.trans htype')
          obtain rfl : ClValue.string s = value := Option.some.inj (hshown.symm.trans hdenotes)
          simp only [ClType.decode, if_pos hsplit] at hdecoded
          obtain ⟨t, ht, hsame⟩ := Option.map_eq_some_iff.mp hdecoded
          obtain rfl : t = s := ClValue.string.inj hsame
          -- The same text would be encoded with the mark and without it.
          have hlength := congrArg List.length ((hutf8 _ _ ht).symm.trans (hutf8 _ _ hs))
          have hlong := hmark.length_le
          simp only [byteOrderMark, List.length_cons, List.length_nil, List.length_drop] at hlength hlong
          omega
        · intro hno
          exact absurd ⟨htype, hmark⟩ hno
      · have hplain : byteOrderMark.isPrefixOf (arg.bytes.drop 4) = false := by
          rw [← Bool.not_eq_true, List.isPrefixOf_iff_prefix]
          exact hmark
        rw [hplain, if_neg Bool.false_ne_true] at hs
        constructor
        · intro _ hstarts
          exact hmark hstarts.2
        · intro _
          refine ⟨.string, .string s, htype, ?_, hshown⟩
          simp only [ClType.decode, if_pos hsplit, hs, Option.map_some]
    · cases hbytes
  · constructor
    · intro _ hstarts
      exact hstring (json_injective (htype.symm.trans hstarts.1))
    · intro _
      exact ⟨type, value, htype, decode_of_ne_string hstring _ _ _ ▸ hbytes, hshown⟩

end Meaning

/-! The bytes of an executable tell everything that it holds. -/
section Bytes
variable {rt : Runtime} {label : String}

def TextBytes (rt : Runtime) (s : JsString) (bytes : List UInt8) : Prop :=
  bytes = lePrefixed 4 (utf8 s) ∧ (utf8 s).length < 256 ^ 4 ∧ rt.bufferToString (utf8 s) = s

/-- The argument is valid, and these are its bytes. -/
def ArgumentBytes (rt : Runtime) (arg : DeployRuntimeArgument) (bytes : List UInt8) : Prop :=
  ∃ (type : ClType) (value : ClValue) (nameBytes : List UInt8), arg.clType = type.json ∧
    type.decode rt.textDecoder arg.bytes = some value ∧ type.denotes arg.parsed = some value ∧
    TextBytes rt arg.name nameBytes ∧ arg.bytes.length < 256 ^ 4 ∧
    bytes = nameBytes ++ (lePrefixed 4 arg.bytes ++ type.bytes)

def ArgumentsBytes (rt : Runtime) (args : List DeployRuntimeArgument) (bytes : List UInt8) : Prop :=
  ∃ encoded, List.Forall₂ (ArgumentBytes rt) args encoded ∧ args.length < 256 ^ 4 ∧
    bytes = leBytes 4 args.length ++ encoded.flatten

/-- `null` or a version, in bytes. -/
def optionBytes : Option Nat → List UInt8
  | none => [0]
  | some version => 1 :: leBytes 4 version

inductive ExecutableBytes (rt : Runtime) : DeployExecutable → List UInt8 → Prop
  | module {code : List UInt8} {args : List DeployRuntimeArgument} {argBytes : List UInt8}
      (bound : code.length < 256 ^ 4) (argsOk : ArgumentsBytes rt args argBytes) :
      ExecutableBytes rt (.moduleBytes code args) (0 :: (lePrefixed 4 code ++ argBytes))
  | stored {hash entryPoint : JsString} {args : List DeployRuntimeArgument}
      {hashRaw entry argBytes : List UInt8} (hashOk : fromHex hash = some hashRaw)
      (length : hashRaw.length = 32) (entryOk : TextBytes rt entryPoint entry)
      (argsOk : ArgumentsBytes rt args argBytes) :
      ExecutableBytes rt (.storedContractByHash hash entryPoint args)
        (1 :: (hashRaw ++ (entry ++ argBytes)))
  | versioned {hash entryPoint : JsString} {version : Option Nat}
      {args : List DeployRuntimeArgument} {hashRaw entry argBytes : List UInt8}
      (hashOk : fromHex hash = some hashRaw) (length : hashRaw.length = 32)
      (versionOk : ∀ n ∈ version, n < 256 ^ 4) (entryOk : TextBytes rt entryPoint entry)
      (argsOk : ArgumentsBytes rt args argBytes) :
      ExecutableBytes rt (.storedVersionedContractByHash hash version entryPoint args)
        (3 :: (hashRaw ++ (optionBytes version ++ (entry ++ argBytes))))

theorem vector_ok {value bytes : List UInt8} (h : vector value = .ok bytes) :
    bytes = lePrefixed 4 value ∧ value.length < 256 ^ 4 := by
  obtain ⟨-, h⟩ := require_ok h
  obtain ⟨length, hlength, h⟩ := bind_ok h
  obtain ⟨hbound, hlength⟩ := require_ok hlength
  obtain rfl := Except.ok.inj hlength
  obtain rfl := Except.ok.inj h
  exact ⟨rfl, of_decide_eq_true hbound⟩

theorem text_ok {s : JsString} {bytes : List UInt8} (h : text rt (.string s) label = .ok bytes) :
    TextBytes rt s bytes := by
  obtain ⟨hcanonical, h⟩ := require_ok h
  obtain ⟨hbytes, hbound⟩ := vector_ok h
  exact ⟨hbytes, hbound, eq_of_beq (Bool.and_eq_true_iff.mp hcanonical).2⟩

theorem runtimeArg_ok {names : List JsString} {item : Value} {arg : DeployRuntimeArgument}
    {bytes : List UInt8} (h : runtimeArg rt label names item = .ok (arg, bytes)) :
    ArgumentBytes rt arg bytes := by
  unfold runtimeArg at h
  split at h
  · next name value =>
    obtain ⟨-, h⟩ := require_ok h
    obtain ⟨-, h⟩ := require_ok h
    obtain ⟨clValue, -, h⟩ := bind_ok h
    obtain ⟨-, -, h⟩ := bind_ok h
    obtain ⟨-, -, h⟩ := bind_ok h
    obtain ⟨raw, -, h⟩ := bind_ok h
    obtain ⟨⟨⟩, hvalid, h⟩ := bind_ok h
    obtain ⟨nameBytes, hname, h⟩ := bind_ok h
    obtain ⟨rawBytes, hraw, h⟩ := bind_ok h
    obtain ⟨typeBytes, htype, h⟩ := bind_ok h
    obtain ⟨rfl, rfl⟩ := Prod.mk.inj (Except.ok.inj h)
    obtain ⟨type, hjson, rfl⟩ := clTypeBytes_ok htype
    obtain ⟨rfl, hbound⟩ := vector_ok hraw
    rw [hjson] at hvalid
    obtain ⟨shown, hbytes, hshown⟩ := validate_ok hvalid
    exact ⟨type, shown, nameBytes, hjson, hbytes, hshown, text_ok hname, hbound,
      List.append_assoc _ _ _⟩
  · cases h

theorem runtimeArgList_ok {names : List JsString} {items : List Value}
    {args : List DeployRuntimeArgument} {bytes : List UInt8}
    (h : runtimeArgList rt label names items = .ok (args, bytes)) :
    args.length = items.length ∧
      ∃ encoded, List.Forall₂ (ArgumentBytes rt) args encoded ∧ bytes = encoded.flatten := by
  induction items generalizing names args bytes with
  | nil =>
    obtain ⟨rfl, rfl⟩ := Prod.mk.inj (Except.ok.inj h)
    exact ⟨rfl, [], .nil, rfl⟩
  | cons item rest ih =>
    obtain ⟨⟨arg, first⟩, harg, h⟩ := bind_ok h
    obtain ⟨⟨others, behind⟩, hrest, h⟩ := bind_ok h
    obtain ⟨rfl, rfl⟩ := Prod.mk.inj (Except.ok.inj h)
    obtain ⟨hlength, encoded, hencoded, rfl⟩ := ih hrest
    exact ⟨congrArg Nat.succ hlength, first :: encoded, .cons (runtimeArg_ok harg) hencoded,
      List.flatten_cons.symm⟩

theorem runtimeArgs_ok {value : Value} {args : List DeployRuntimeArgument} {bytes : List UInt8}
    (h : runtimeArgs rt value label = .ok (args, bytes)) : ArgumentsBytes rt args bytes := by
  unfold runtimeArgs at h
  split at h
  · next items =>
    obtain ⟨-, h⟩ := require_ok h
    obtain ⟨count, hcount, h⟩ := bind_ok h
    obtain ⟨⟨facts, encoded⟩, hfacts, h⟩ := bind_ok h
    obtain ⟨rfl, rfl⟩ := Prod.mk.inj (Except.ok.inj h)
    obtain ⟨hbound, hcount⟩ := require_ok hcount
    obtain rfl := Except.ok.inj hcount
    obtain ⟨hlength, parts, hparts, rfl⟩ := runtimeArgList_ok hfacts
    rw [← hlength] at hbound ⊢
    exact ⟨parts, hparts, of_decide_eq_true hbound, rfl⟩
  · cases h

theorem hashBytes_ok {hash : JsString} {raw : List UInt8} (h : hashBytes hash = .ok raw) :
    fromHex hash = some raw ∧ raw.length = 32 := by
  unfold hashBytes hexBytes at h
  simp only at h
  cases hread : fromHex hash with
  | none =>
    rw [hread] at h
    cases h
  | some output =>
    rw [hread] at h
    simp only at h
    split at h
    · cases h
    · next hlength =>
      obtain rfl := Except.ok.inj h
      exact ⟨rfl, not_not.mp hlength⟩

theorem parseVersion_bound {value : Value} {version : Option Nat}
    (h : parseVersion value label = .ok version) : ∀ n ∈ version, n < 256 ^ 4 := by
  unfold parseVersion at h
  simp only at h
  split at h
  · obtain rfl := Except.ok.inj h
    intro n hn
    cases hn
  · split at h
    · next m hsafe =>
      split at h
      · next hrange =>
        obtain rfl := Except.ok.inj h
        intro n hn
        obtain rfl : m.toNat = n := Option.some.inj hn
        omega
      · cases h
    · cases h
  · cases h

theorem versionBytes_ok {version : Option Nat} {bytes : List UInt8}
    (h : versionBytes version = .ok bytes) : bytes = optionBytes version := by
  cases version with
  | none => exact (Except.ok.inj h).symm
  | some n =>
    obtain ⟨length, hlength, h⟩ := bind_ok h
    obtain ⟨-, hlength⟩ := require_ok hlength
    obtain rfl := Except.ok.inj hlength
    exact (Except.ok.inj h).symm

theorem moduleExecutable_ok {body : Fields} {exec : DeployExecutable} {bytes : List UInt8}
    (h : moduleExecutable rt body label = .ok (exec, bytes)) : ExecutableBytes rt exec bytes := by
  obtain ⟨-, -, h⟩ := bind_ok h
  obtain ⟨-, -, h⟩ := bind_ok h
  obtain ⟨code, -, h⟩ := bind_ok h
  obtain ⟨⟨args, argBytes⟩, hargs, h⟩ := bind_ok h
  obtain ⟨encoded, hencoded, h⟩ := bind_ok h
  obtain ⟨rfl, rfl⟩ := Prod.mk.inj (Except.ok.inj h)
  obtain ⟨rfl, hbound⟩ := vector_ok hencoded
  exact .module hbound (runtimeArgs_ok hargs)

theorem storedExecutable_ok {body : Fields} {exec : DeployExecutable} {bytes : List UInt8}
    (h : storedExecutable rt body label = .ok (exec, bytes)) : ExecutableBytes rt exec bytes := by
  obtain ⟨-, -, h⟩ := bind_ok h
  obtain ⟨contractHash, -, h⟩ := bind_ok h
  obtain ⟨entryPoint, -, h⟩ := bind_ok h
  obtain ⟨⟨args, argBytes⟩, hargs, h⟩ := bind_ok h
  obtain ⟨hash, hhash, h⟩ := bind_ok h
  obtain ⟨entry, hentry, h⟩ := bind_ok h
  obtain ⟨rfl, rfl⟩ := Prod.mk.inj (Except.ok.inj h)
  obtain ⟨hread, hlength⟩ := hashBytes_ok hhash
  have hbytes : 1 :: hash ++ entry ++ argBytes = 1 :: (hash ++ (entry ++ argBytes)) := by simp
  rw [hbytes]
  exact .stored hread hlength (text_ok hentry) (runtimeArgs_ok hargs)

theorem versionedExecutable_ok {body : Fields} {exec : DeployExecutable} {bytes : List UInt8}
    (h : versionedExecutable rt body label = .ok (exec, bytes)) : ExecutableBytes rt exec bytes := by
  obtain ⟨-, -, h⟩ := bind_ok h
  obtain ⟨packageHash, -, h⟩ := bind_ok h
  obtain ⟨entryPoint, -, h⟩ := bind_ok h
  obtain ⟨⟨args, argBytes⟩, hargs, h⟩ := bind_ok h
  obtain ⟨version, hversion, h⟩ := bind_ok h
  obtain ⟨hash, hhash, h⟩ := bind_ok h
  obtain ⟨versioned, hversioned, h⟩ := bind_ok h
  obtain ⟨entry, hentry, h⟩ := bind_ok h
  obtain ⟨rfl, rfl⟩ := Prod.mk.inj (Except.ok.inj h)
  obtain ⟨hread, hlength⟩ := hashBytes_ok hhash
  rw [versionBytes_ok hversioned]
  have hbytes : 3 :: hash ++ optionBytes version ++ entry ++ argBytes =
      3 :: (hash ++ (optionBytes version ++ (entry ++ argBytes))) := by simp
  rw [hbytes]
  exact .versioned hread hlength (parseVersion_bound hversion) (text_ok hentry) (runtimeArgs_ok hargs)

theorem executable_ok {value : Value} {exec : DeployExecutable} {bytes : List UInt8}
    (h : executable rt value label = .ok (exec, bytes)) : ExecutableBytes rt exec bytes := by
  obtain ⟨outer, -, h⟩ := bind_ok h
  split at h
  · next variant _ =>
    obtain ⟨-, h⟩ := require_ok h
    obtain ⟨body, -, h⟩ := bind_ok h
    split at h
    · exact moduleExecutable_ok h
    · split at h
      · exact versionedExecutable_ok h
      · exact storedExecutable_ok h
  · cases h

/-- The same argument, up to the form in which its value is displayed. -/
structure SameArgument (arg other : DeployRuntimeArgument) : Prop where
  name : arg.name = other.name
  clType : arg.clType = other.clType
  bytes : arg.bytes = other.bytes
  value : ∃ (type : ClType) (value : ClValue), arg.clType = type.json ∧
    type.denotes arg.parsed = some value ∧ type.denotes other.parsed = some value

inductive SameExecutable : DeployExecutable → DeployExecutable → Prop
  | module {code : List UInt8} {args others : List DeployRuntimeArgument}
      (same : List.Forall₂ SameArgument args others) :
      SameExecutable (.moduleBytes code args) (.moduleBytes code others)
  | stored {hash entryPoint : JsString} {args others : List DeployRuntimeArgument}
      (same : List.Forall₂ SameArgument args others) :
      SameExecutable (.storedContractByHash hash entryPoint args)
        (.storedContractByHash hash entryPoint others)
  | versioned {hash entryPoint : JsString} {version : Option Nat}
      {args others : List DeployRuntimeArgument} (same : List.Forall₂ SameArgument args others) :
      SameExecutable (.storedVersionedContractByHash hash version entryPoint args)
        (.storedVersionedContractByHash hash version entryPoint others)

theorem textBytes_cut : SelfDelimiting (TextBytes rt) Eq := by
  rintro a b x y r s ⟨rfl, hx, ha⟩ ⟨rfl, hy, hb⟩ h
  obtain ⟨hsame, hrest⟩ := lePrefixed_cut hx hy h
  refine ⟨?_, hrest⟩
  rw [← ha, ← hb, hsame]

theorem tag_injective {type other : ClType} (h : type.tag = other.tag) : type = other := by
  cases type <;> cases other <;> first | rfl | exact absurd h (by decide)

theorem bytes_eq_cons (type : ClType) : ∃ rest, type.bytes = type.tag :: rest := by
  cases type <;> exact ⟨_, rfl⟩

theorem typeBytes_cut {type other : ClType} {r s : List UInt8}
    (h : type.bytes ++ r = other.bytes ++ s) : type = other ∧ r = s := by
  obtain ⟨rest, hrest⟩ := bytes_eq_cons type
  obtain ⟨rest', hrest'⟩ := bytes_eq_cons other
  have htag : type.tag = other.tag := by
    rw [hrest, hrest'] at h
    exact (List.cons.inj h).1
  obtain rfl := tag_injective htag
  exact ⟨rfl, List.append_cancel_left h⟩

theorem argumentBytes_cut : SelfDelimiting (ArgumentBytes rt) SameArgument := by
  rintro arg other x y r s ⟨type, value, nameBytes, htype, hbytes, hshown, hname, hbound, rfl⟩
    ⟨type', value', nameBytes', htype', hbytes', hshown', hname', hbound', rfl⟩ h
  simp only [List.append_assoc] at h
  obtain ⟨hsameName, h⟩ := textBytes_cut hname hname' h
  obtain ⟨hsameBytes, h⟩ := lePrefixed_cut hbound hbound' h
  obtain ⟨rfl, hrest⟩ := typeBytes_cut h
  rw [hsameBytes] at hbytes
  obtain rfl : value = value' := Option.some.inj (hbytes.symm.trans hbytes')
  exact ⟨⟨hsameName, htype.trans htype'.symm, hsameBytes, type, value, htype, hshown, hshown'⟩,
    hrest⟩

theorem argumentsBytes_cut :
    SelfDelimiting (ArgumentsBytes rt) (List.Forall₂ SameArgument) := by
  rintro args others x y r s ⟨encoded, hencoded, hbound, rfl⟩ ⟨encoded', hencoded', hbound', rfl⟩ h
  simp only [List.append_assoc] at h
  obtain ⟨hlength, h⟩ := leBytes_cut hbound hbound' h
  exact argumentBytes_cut.list hencoded hencoded' hlength h

theorem hash_cut {hash other : JsString} {raw raw' r s : List UInt8}
    (hread : fromHex hash = some raw) (hread' : fromHex other = some raw')
    (hlength : raw.length = 32) (hlength' : raw'.length = 32) (h : raw ++ r = raw' ++ s) :
    hash = other ∧ r = s := by
  obtain ⟨rfl, hrest⟩ := List.append_inj h (hlength.trans hlength'.symm)
  exact ⟨(toHex_fromHex hread).symm.trans (toHex_fromHex hread'), hrest⟩

theorem optionBytes_cut {version other : Option Nat} {r s : List UInt8}
    (hbound : ∀ n ∈ version, n < 256 ^ 4) (hbound' : ∀ n ∈ other, n < 256 ^ 4)
    (h : optionBytes version ++ r = optionBytes other ++ s) : version = other ∧ r = s := by
  cases version with
  | none =>
    cases other with
    | none => exact ⟨rfl, (List.cons.inj h).2⟩
    | some n => exact absurd (List.cons.inj h).1 (by decide)
  | some m =>
    cases other with
    | none => exact absurd (List.cons.inj h).1 (by decide)
    | some n =>
      obtain ⟨hsame, hrest⟩ := leBytes_cut (hbound m rfl) (hbound' n rfl) (List.cons.inj h).2
      exact ⟨congrArg some hsame, hrest⟩

/-- The first byte tells the kind, and each kind ends by itself. -/
theorem executableBytes_cut : SelfDelimiting (ExecutableBytes rt) SameExecutable := by
  intro exec other x y r s hx hy h
  cases hx with
  | module hbound hargs =>
    cases hy with
    | module hbound' hargs' =>
      simp only [List.cons_append, List.cons.injEq, List.append_assoc, true_and] at h
      obtain ⟨rfl, hbehind⟩ := lePrefixed_cut hbound hbound' h
      obtain ⟨hsame, hrest⟩ := argumentsBytes_cut hargs hargs' hbehind
      exact ⟨.module hsame, hrest⟩
    | stored => exact absurd (List.cons.inj h).1 (by decide)
    | versioned => exact absurd (List.cons.inj h).1 (by decide)
  | stored hhash hlength hentry hargs =>
    cases hy with
    | module => exact absurd (List.cons.inj h).1 (by decide)
    | stored hhash' hlength' hentry' hargs' =>
      simp only [List.cons_append, List.cons.injEq, List.append_assoc, true_and] at h
      obtain ⟨rfl, hentries⟩ := hash_cut hhash hhash' hlength hlength' h
      obtain ⟨rfl, hbehind⟩ := textBytes_cut hentry hentry' hentries
      obtain ⟨hsame, hrest⟩ := argumentsBytes_cut hargs hargs' hbehind
      exact ⟨.stored hsame, hrest⟩
    | versioned => exact absurd (List.cons.inj h).1 (by decide)
  | versioned hhash hlength hversion hentry hargs =>
    cases hy with
    | module => exact absurd (List.cons.inj h).1 (by decide)
    | stored => exact absurd (List.cons.inj h).1 (by decide)
    | versioned hhash' hlength' hversion' hentry' hargs' =>
      simp only [List.cons_append, List.cons.injEq, List.append_assoc, true_and] at h
      obtain ⟨rfl, hversions⟩ := hash_cut hhash hhash' hlength hlength' h
      obtain ⟨rfl, hentries⟩ := optionBytes_cut hversion hversion' hversions
      obtain ⟨rfl, hbehind⟩ := textBytes_cut hentry hentry' hentries
      obtain ⟨hsame, hrest⟩ := argumentsBytes_cut hargs hargs' hbehind
      exact ⟨.versioned hsame, hrest⟩

/-- The arguments of an executable are those whose bytes it has. -/
theorem executableBytes_args {exec : DeployExecutable} {bytes : List UInt8}
    (h : ExecutableBytes rt exec bytes) : ∃ argBytes, ArgumentsBytes rt exec.args argBytes := by
  cases h with
  | module _ hargs => exact ⟨_, hargs⟩
  | stored _ _ _ hargs => exact ⟨_, hargs⟩
  | versioned _ _ _ _ hargs => exact ⟨_, hargs⟩

theorem argumentsBytes_mem {args : List DeployRuntimeArgument} {bytes : List UInt8}
    (h : ArgumentsBytes rt args bytes) {arg : DeployRuntimeArgument} (hin : arg ∈ args) :
    ∃ encoded, ArgumentBytes rt arg encoded := by
  obtain ⟨encoded, hencoded, -, -⟩ := h
  clear * - hencoded hin
  induction hencoded with
  | nil => cases hin
  | cons harg _ ih =>
    rcases List.mem_cons.mp hin with rfl | hin
    · exact ⟨_, harg⟩
    · exact ih hin

end Bytes

/-! From a pair of the JSON text to the argument that is read from it. -/
section Reading
variable {rt : Runtime} {label : String}

structure Reads (item : Value) (arg : DeployRuntimeArgument) : Prop where
  pair : ∃ fields path, item = .array [.string arg.name, .object fields] ∧
    prop fields "cl_type" = arg.clType ∧
    caseInsensitiveHexBytes (prop fields "bytes") path = .ok arg.bytes

theorem caseInsensitiveHexBytes_label {value : Value} {path path' : String} {raw raw' : List UInt8}
    (h : caseInsensitiveHexBytes value path = .ok raw)
    (h' : caseInsensitiveHexBytes value path' = .ok raw') : raw = raw' := by
  unfold caseInsensitiveHexBytes at h h'
  split at h
  · split at h
    · next hshape =>
      simp only [if_pos hshape] at h'
      exact Except.ok.inj (h.symm.trans h')
    · cases h
  · cases h

theorem Reads.marked_iff {item : Value} {arg : DeployRuntimeArgument} (h : Reads item arg) :
    MarkedText item ↔ StartsWithMark arg := by
  obtain ⟨fields, path, rfl, htype, hraw⟩ := h.pair
  constructor
  · rintro ⟨name, fields', path', raw', hitem, htext, hraw', hmark⟩
    obtain ⟨-, hfields⟩ : arg.name = name ∧ fields = fields' := by simpa using hitem
    subst hfields
    rw [← caseInsensitiveHexBytes_label hraw hraw'] at hmark
    exact ⟨htype.symm.trans htext, hmark⟩
  · rintro ⟨htext, hmark⟩
    exact ⟨arg.name, fields, path, arg.bytes, rfl, htype.trans htext, hraw, hmark⟩

theorem runtimeArg_reads {names : List JsString} {item : Value} {arg : DeployRuntimeArgument}
    {bytes : List UInt8} (h : runtimeArg rt label names item = .ok (arg, bytes)) :
    Reads item arg := by
  unfold runtimeArg at h
  split at h
  · next name value =>
    obtain ⟨-, h⟩ := require_ok h
    obtain ⟨-, h⟩ := require_ok h
    obtain ⟨clValue, hrecord, h⟩ := bind_ok h
    obtain ⟨-, -, h⟩ := bind_ok h
    obtain ⟨-, -, h⟩ := bind_ok h
    obtain ⟨raw, hraw, h⟩ := bind_ok h
    obtain ⟨-, -, h⟩ := bind_ok h
    obtain ⟨nameBytes, -, h⟩ := bind_ok h
    obtain ⟨rawBytes, -, h⟩ := bind_ok h
    obtain ⟨typeBytes, -, h⟩ := bind_ok h
    obtain ⟨rfl, -⟩ := Prod.mk.inj (Except.ok.inj h)
    obtain rfl := record_ok hrecord
    exact ⟨clValue, _, rfl, rfl, hraw⟩
  · cases h

theorem runtimeArgList_reads {names : List JsString} {items : List Value}
    {args : List DeployRuntimeArgument} {bytes : List UInt8}
    (h : runtimeArgList rt label names items = .ok (args, bytes)) :
    List.Forall₂ Reads items args := by
  induction items generalizing names args bytes with
  | nil =>
    obtain ⟨rfl, -⟩ := Prod.mk.inj (Except.ok.inj h)
    exact .nil
  | cons item rest ih =>
    obtain ⟨⟨arg, first⟩, harg, h⟩ := bind_ok h
    obtain ⟨⟨others, behind⟩, hrest, h⟩ := bind_ok h
    obtain ⟨rfl, -⟩ := Prod.mk.inj (Except.ok.inj h)
    exact .cons (runtimeArg_reads harg) (ih hrest)

/-- The body of a variant with its arguments, as they are read. -/
def BodyReads (body : Fields) (args : List DeployRuntimeArgument) : Prop :=
  ∃ items, prop body "args" = .array items ∧ List.Forall₂ Reads items args

theorem runtimeArgs_reads {body : Fields} {args : List DeployRuntimeArgument} {bytes : List UInt8}
    (h : runtimeArgs rt (prop body "args") label = .ok (args, bytes)) : BodyReads body args := by
  unfold runtimeArgs at h
  split at h
  · next items heq =>
    obtain ⟨-, h⟩ := require_ok h
    obtain ⟨count, -, h⟩ := bind_ok h
    obtain ⟨⟨facts, encoded⟩, hfacts, h⟩ := bind_ok h
    obtain ⟨rfl, -⟩ := Prod.mk.inj (Except.ok.inj h)
    exact ⟨items, heq, runtimeArgList_reads hfacts⟩
  · cases h

theorem moduleExecutable_reads {body : Fields} {exec : DeployExecutable} {bytes : List UInt8}
    (h : moduleExecutable rt body label = .ok (exec, bytes)) : BodyReads body exec.args := by
  obtain ⟨-, -, h⟩ := bind_ok h
  obtain ⟨-, -, h⟩ := bind_ok h
  obtain ⟨code, -, h⟩ := bind_ok h
  obtain ⟨⟨args, argBytes⟩, hargs, h⟩ := bind_ok h
  obtain ⟨encoded, -, h⟩ := bind_ok h
  obtain ⟨rfl, -⟩ := Prod.mk.inj (Except.ok.inj h)
  exact runtimeArgs_reads hargs

theorem storedExecutable_reads {body : Fields} {exec : DeployExecutable} {bytes : List UInt8}
    (h : storedExecutable rt body label = .ok (exec, bytes)) : BodyReads body exec.args := by
  obtain ⟨-, -, h⟩ := bind_ok h
  obtain ⟨contractHash, -, h⟩ := bind_ok h
  obtain ⟨entryPoint, -, h⟩ := bind_ok h
  obtain ⟨⟨args, argBytes⟩, hargs, h⟩ := bind_ok h
  obtain ⟨hash, -, h⟩ := bind_ok h
  obtain ⟨entry, -, h⟩ := bind_ok h
  obtain ⟨rfl, -⟩ := Prod.mk.inj (Except.ok.inj h)
  exact runtimeArgs_reads hargs

theorem versionedExecutable_reads {body : Fields} {exec : DeployExecutable} {bytes : List UInt8}
    (h : versionedExecutable rt body label = .ok (exec, bytes)) : BodyReads body exec.args := by
  obtain ⟨-, -, h⟩ := bind_ok h
  obtain ⟨packageHash, -, h⟩ := bind_ok h
  obtain ⟨entryPoint, -, h⟩ := bind_ok h
  obtain ⟨⟨args, argBytes⟩, hargs, h⟩ := bind_ok h
  obtain ⟨version, -, h⟩ := bind_ok h
  obtain ⟨hash, -, h⟩ := bind_ok h
  obtain ⟨versioned, -, h⟩ := bind_ok h
  obtain ⟨entry, -, h⟩ := bind_ok h
  obtain ⟨rfl, -⟩ := Prod.mk.inj (Except.ok.inj h)
  exact runtimeArgs_reads hargs

theorem executable_reads {value : Value} {exec : DeployExecutable} {bytes : List UInt8}
    (h : executable rt value label = .ok (exec, bytes)) :
    ∃ items, (∀ item, ExecutableItem value item ↔ item ∈ items) ∧
      List.Forall₂ Reads items exec.args := by
  obtain ⟨outer, hrecord, hrest⟩ := bind_ok h
  obtain rfl := record_ok hrecord
  clear h
  split at hrest
  · next variant hpresent =>
    obtain ⟨hone, h⟩ := require_ok hrest
    obtain ⟨body, hbody, h⟩ := bind_ok h
    have hread : BodyReads body exec.args := by
      split at h
      · exact moduleExecutable_reads h
      · split at h
        · exact versionedExecutable_reads h
        · exact storedExecutable_reads h
    obtain ⟨items, hitems, hargs⟩ := hread
    obtain ⟨hvariant, shown, rfl⟩ := present_single hpresent (eq_of_beq hone)
    refine ⟨items, ?_, hargs⟩
    intro item
    constructor
    · rintro ⟨outer', variant', body', items', houter, -, hbody', hitems', hin⟩
      obtain rfl := Value.object.inj houter
      -- the record has one field, so the variants are the same
      have hsame : js variant' = js variant := by
        by_contra hne
        have hfalse : (js variant' == js variant) = false := beq_eq_false_iff_ne.mpr hne
        simp [prop, List.lookup_cons, hfalse] at hbody'
      have hbodies : body' = body := by
        rw [prop, hsame] at hbody'
        have hfound := record_ok hbody
        rw [prop] at hfound
        exact Value.object.inj (hbody'.symm.trans hfound)
      rw [hbodies, hitems] at hitems'
      obtain rfl := Value.array.inj hitems'
      exact hin
    · intro hin
      exact ⟨_, variant, body, items, rfl, hvariant, record_ok hbody, hitems, hin⟩
  · cases hrest

end Reading

section Agreement
variable {rt : Runtime} {value : Value} {expectation : Expectation} {facts : SignedDeployJsonFacts}

/-- The arguments of both executables. -/
def SignedDeployJsonFacts.args (facts : SignedDeployJsonFacts) : List DeployRuntimeArgument :=
  facts.payment.args ++ facts.session.args

/-- The bytes that the body hash is taken of. -/
def SignedDeployJsonFacts.hashedBytes (facts : SignedDeployJsonFacts) : List UInt8 :=
  facts.paymentBytes ++ facts.sessionBytes

theorem verifySignedDeployJson_ok (h : verifySignedDeployJson rt value expectation = .ok facts) :
    ExecutableBytes rt facts.payment facts.paymentBytes ∧
      ExecutableBytes rt facts.session facts.sessionBytes ∧
      toHex (rt.blake2b256 facts.hashedBytes) = facts.bodyHash ∧
      ∃ items, (∀ item, DeployItem value item ↔ item ∈ items) ∧
        List.Forall₂ Reads items facts.args := by
  obtain ⟨deploy, hdeploy, h⟩ := bind_ok h
  obtain ⟨-, -, h⟩ := bind_ok h
  obtain ⟨rawHeader, -, h⟩ := bind_ok h
  obtain ⟨header, -, h⟩ := bind_ok h
  obtain ⟨expectedHash, -, h⟩ := bind_ok h
  obtain ⟨suppliedHash, -, h⟩ := bind_ok h
  obtain ⟨-, h⟩ := require_ok h
  obtain ⟨⟨payment, paymentBytes⟩, hpayment, h⟩ := bind_ok h
  obtain ⟨⟨session, sessionBytes⟩, hsession, h⟩ := bind_ok h
  obtain ⟨hhash, h⟩ := require_ok h
  obtain ⟨rawApprovals, -, h⟩ := bind_ok h
  obtain ⟨-, h⟩ := require_ok h
  obtain ⟨count, -, h⟩ := bind_ok h
  obtain ⟨⟨signers, approvalBytes⟩, -, h⟩ := bind_ok h
  obtain ⟨-, h⟩ := require_ok h
  obtain ⟨-, h⟩ := require_ok h
  obtain rfl := Except.ok.inj h
  obtain rfl := record_ok hdeploy
  obtain ⟨first, hfirst, hfirstRead⟩ := executable_reads hpayment
  obtain ⟨second, hsecond, hsecondRead⟩ := executable_reads hsession
  refine ⟨executable_ok hpayment, executable_ok hsession, eq_of_beq hhash, first ++ second, ?_,
    List.rel_append hfirstRead hsecondRead⟩
  intro item
  rw [List.mem_append, ← hfirst, ← hsecond]
  constructor
  · rintro ⟨deploy', hsame, hitem⟩
    obtain rfl := Value.object.inj hsame
    exact hitem
  · intro hitem
    exact ⟨deploy, rfl, hitem⟩

/-- The hashed bytes determine the executables. -/
theorem executables_determined {other : Value} {expectation' : Expectation}
    {facts' : SignedDeployJsonFacts} (h : verifySignedDeployJson rt value expectation = .ok facts)
    (h' : verifySignedDeployJson rt other expectation' = .ok facts')
    (hsame : facts.hashedBytes = facts'.hashedBytes) :
    SameExecutable facts.payment facts'.payment ∧ SameExecutable facts.session facts'.session := by
  obtain ⟨hpayment, hsession, -, -⟩ := verifySignedDeployJson_ok h
  obtain ⟨hpayment', hsession', -, -⟩ := verifySignedDeployJson_ok h'
  obtain ⟨hsamePayment, hrest⟩ := executableBytes_cut hpayment hpayment' hsame
  rw [← List.append_nil facts.sessionBytes, ← List.append_nil facts'.sessionBytes] at hrest
  exact ⟨hsamePayment, (executableBytes_cut hsession hsession' hrest).1⟩

theorem accepted_argument (h : verifySignedDeployJson rt value expectation = .ok facts)
    {arg : DeployRuntimeArgument} (hin : arg ∈ facts.args) :
    ∃ encoded, ArgumentBytes rt arg encoded := by
  obtain ⟨hpayment, hsession, -, -⟩ := verifySignedDeployJson_ok h
  rcases List.mem_append.mp hin with hin | hin
  · obtain ⟨argBytes, hargs⟩ := executableBytes_args hpayment
    exact argumentsBytes_mem hargs hin
  · obtain ⟨argBytes, hargs⟩ := executableBytes_args hsession
    exact argumentsBytes_mem hargs hin

theorem exists_marked_iff (h : verifySignedDeployJson rt value expectation = .ok facts) :
    (∃ item, DeployItem value item ∧ MarkedText item) ↔ ∃ arg ∈ facts.args, StartsWithMark arg := by
  obtain ⟨-, -, -, items, hitems, hread⟩ := verifySignedDeployJson_ok h
  have hboth : ∀ {items args}, List.Forall₂ Reads items args →
      ((∃ item ∈ items, MarkedText item) ↔ ∃ arg ∈ args, StartsWithMark arg) := by
    intro items args hread
    induction hread with
    | nil => simp
    | cons hfirst _ ih => simp only [List.exists_mem_cons_iff, hfirst.marked_iff, ih]
  rw [← hboth hread]
  constructor
  · rintro ⟨item, hitem, hmarked⟩
    exact ⟨item, (hitems item).mp hitem, hmarked⟩
  · rintro ⟨item, hin, hmarked⟩
    exact ⟨item, (hitems item).mpr hin, hmarked⟩

/-- Every accepted deploy is determined by its hashed bytes, and displays what they decode to
exactly when it gives no argument whose text starts with a byte order mark. -/
theorem deploy_json_agrees_iff (hutf8 : LawfulUtf8 rt)
    (h : verifySignedDeployJson rt value expectation = .ok facts) :
    ((∀ arg ∈ facts.args, Displayed rt arg) ∧
      ∀ other expectation' facts', verifySignedDeployJson rt other expectation' = .ok facts' →
        facts.hashedBytes = facts'.hashedBytes →
          SameExecutable facts.payment facts'.payment ∧
            SameExecutable facts.session facts'.session) ↔
      ¬ ∃ item, DeployItem value item ∧ MarkedText item := by
  have hargs : ∀ arg ∈ facts.args, (Displayed rt arg ↔ ¬ StartsWithMark arg) := by
    intro arg hin
    obtain ⟨encoded, type, shown, nameBytes, htype, hbytes, hshown, -⟩ := accepted_argument h hin
    exact displayed_iff hutf8 htype hbytes hshown
  rw [exists_marked_iff h]
  constructor
  · rintro ⟨hdisplayed, -⟩ ⟨arg, hin, hmarked⟩
    exact (hargs arg hin).mp (hdisplayed arg hin) hmarked
  · intro hplain
    refine ⟨fun arg hin => (hargs arg hin).mpr fun hmarked => hplain ⟨arg, hin, hmarked⟩, ?_⟩
    intro other expectation' facts' h' hsame
    exact executables_determined h h' hsame

end Agreement

section Sample

def asciiUnits (bytes : List UInt8) : Option JsString :=
  if bytes.all (· < 0x80) then some (bytes.map fun b => b.toNat.toUInt16) else none

/-- A decoder of ASCII after at most one mark, constant digests, the moment of the timestamp. -/
def sampleRuntime : Runtime where
  blake2b256 _ := List.replicate 32 0xaa
  validApproval _ _ _ := .ok true
  dateParse _ := some 1782907200000
  decodeUtf8 bytes :=
    if byteOrderMark.isPrefixOf bytes then (asciiUnits (bytes.drop 3)).map (0xfeff :: ·)
    else asciiUnits bytes
  bufferToString bytes := bytes.map fun b => b.toNat.toUInt16

theorem asciiUnits_some {bytes : List UInt8} {s : JsString} (h : asciiUnits bytes = some s) :
    utf8 s = bytes := by
  unfold asciiUnits at h
  split at h
  · next hascii =>
    obtain rfl := Option.some.inj h
    apply utf8_ascii
    intro b hb
    exact of_decide_eq_true (List.all_eq_true.mp hascii b hb)
  · cases h

theorem sampleRuntime_lawful : LawfulUtf8 sampleRuntime := by
  intro bytes s h
  simp only [sampleRuntime] at h
  split at h
  · next hmark =>
    obtain ⟨rest, rfl⟩ := List.isPrefixOf_iff_prefix.mp hmark
    obtain ⟨shown, hshown, rfl⟩ := Option.map_eq_some_iff.mp h
    rw [utf8_cons (by decide), asciiUnits_some hshown]
    rfl
  · exact asciiUnits_some h

def sampleHash : JsString := List.replicate 64 0x61
def sampleKey : JsString := js "01" ++ sampleHash

def moduleWith (args : List Value) : Value :=
  literal [("ModuleBytes", literal [("module_bytes", .string []), ("args", .array args)])]

def textArgument (bytes shown : String) : Value :=
  .array [.string (js "x"), literal [("bytes", .string (js bytes)),
    ("cl_type", .string (js "String")), ("parsed", .string (js shown))]]

def sampleDeploy (args : List Value) : Value :=
  literal [
    ("approvals", .array [literal [("signer", .string sampleKey),
      ("signature", .string (js "01" ++ sampleHash ++ sampleHash))]]),
    ("hash", .string sampleHash),
    ("header", literal [("account", .string sampleKey), ("body_hash", .string sampleHash),
      ("chain_name", .string (js "casper-test")), ("dependencies", .array []),
      ("gas_price", .number 1), ("timestamp", .string (js "2026-07-01T12:00Z")),
      ("ttl", .string (js "30m"))]),
    ("payment", moduleWith []),
    ("session", moduleWith args)]

def sampleExpectation : Expectation := ⟨sampleHash, sampleKey, true⟩

/-- The bytes are those of a byte order mark and of `a`, and `a` is displayed. -/
def markedArgument : Value := textArgument "04000000efbbbf61" "a"

def markedDeploy : Value := sampleDeploy [markedArgument]

theorem marked_accepted :
    ∃ facts, verifySignedDeployJson sampleRuntime markedDeploy sampleExpectation = .ok facts := by
  have haccepted :
      (verifySignedDeployJson sampleRuntime markedDeploy sampleExpectation).isOk = true := by
    decide +kernel
  cases hrun : verifySignedDeployJson sampleRuntime markedDeploy sampleExpectation with
  | ok facts => exact ⟨facts, rfl⟩
  | error message =>
    rw [hrun] at haccepted
    cases haccepted

theorem marked_item : ∃ item, DeployItem markedDeploy item ∧ MarkedText item := by
  refine ⟨markedArgument, ⟨_, rfl, .inr ?_⟩, ?_⟩
  · exact ⟨_, "ModuleBytes", _, [markedArgument], rfl, by decide, rfl, rfl, List.mem_singleton_self _⟩
  · exact ⟨_, _, "bytes", [4, 0, 0, 0, 0xef, 0xbb, 0xbf, 0x61], rfl, rfl, by decide +kernel,
      List.prefix_append _ [0x61]⟩

/-- An accepted deploy can display something else than its bytes. -/
theorem displayed_differs :
    ¬ ∀ rt value expectation facts, LawfulUtf8 rt →
      verifySignedDeployJson rt value expectation = .ok facts →
        ∀ arg ∈ facts.args, Displayed rt arg := by
  intro hall
  obtain ⟨facts, haccepted⟩ := marked_accepted
  obtain ⟨arg, hin, hmarked⟩ := (exists_marked_iff haccepted).mp marked_item
  obtain ⟨encoded, type, shown, nameBytes, htype, hbytes, hshown, -⟩ :=
    accepted_argument haccepted hin
  have hdisplayed := hall _ _ _ _ sampleRuntime_lawful haccepted arg hin
  exact (displayed_iff sampleRuntime_lawful htype hbytes hshown).mp hdisplayed hmarked

theorem deploy_json_agrees_iff_sample :
    ∃ facts, verifySignedDeployJson sampleRuntime markedDeploy sampleExpectation = .ok facts ∧
      ¬ ((∀ arg ∈ facts.args, Displayed sampleRuntime arg) ∧
        ∀ other expectation' facts',
          verifySignedDeployJson sampleRuntime other expectation' = .ok facts' →
            facts.hashedBytes = facts'.hashedBytes →
              SameExecutable facts.payment facts'.payment ∧
                SameExecutable facts.session facts'.session) := by
  obtain ⟨facts, haccepted⟩ := marked_accepted
  refine ⟨facts, haccepted, fun hagrees => ?_⟩
  exact (deploy_json_agrees_iff sampleRuntime_lawful haccepted).mp hagrees marked_item

end Sample
end Concordia.Verify.DeployJson
