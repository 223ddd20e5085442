import Concordia.Lib.SortedEncoding
import Concordia.Verify.Rendering
import Concordia.Verify.Rpc

/-! The manifests of evidence and of metadata: entries in the order of their names, each in its
canonical bytes. -/
namespace Concordia.Verify.Manifests
open Concordia.Js Concordia.Lib.Encoding Concordia.Lib.SortedEncoding
open Concordia.Verify.NativeDeploy (toHex_fromHex)
open Concordia.Verify.NativeFinality (isNullish)
open Concordia.Verify.Rpc (shownText sortedNames literal)

section Values

/-- The types of `TYPE_TAGS`; an envelope has fields of some of them only. -/
inductive CanonicalType where
  | field (type : FieldType)
  | bool | key | bytes | keyList | publicKey | optionU64
  deriving DecidableEq, Repr

/-- `TYPE_TAGS`. -/
def typeTags : List (String × CanonicalType × UInt8) :=
  [("bool", .bool, 1), ("u8", .field .u8, 2), ("u32", .field .u32, 3), ("u64", .field .u64, 4),
    ("U256", .field .u256, 5), ("U512", .field .u512, 6), ("Bytes32", .field .bytes32, 7),
    ("AccountHash", .field .accountHash, 8), ("Key", .key, 9), ("String", .field .string, 10),
    ("Bytes", .bytes, 11), ("List<Key>", .keyList, 12), ("PublicKey", .publicKey, 13),
    ("Option<u64>", .optionU64, 14)]

def typeTag (type : JsString) : Option (CanonicalType × UInt8) :=
  (typeTags.find? fun tag => js tag.1 == type).map (·.2)

def requireExactOwnKeys (value : Fields) (expected : List String) (label : String) :
    Encoded Unit :=
  throwIf (sortedNames (keys value) ≠ sortedNames (expected.map js))
    ⟨"InvalidFields", s!"{label} must contain exactly the required own properties", none⟩

/-- `hexBytes` of a value of any length. -/
def hexBytesAny (value : Value) : Encoded (List UInt8) :=
  let malformed : EncodingError :=
    ⟨"InvalidHex", "hex value must be canonical lowercase hexadecimal", none⟩
  match value with
  | .string s =>
    match fromHex s with
    | some output => .ok output
    | none => .error malformed
  | _ => .error malformed

/-- `lengthPrefixed` of bytes. -/
def lengthPrefixedBytes (bytes : List UInt8) : Encoded (List UInt8) := do
  let length ← fixedUnsigned (.number bytes.length) 32
  return length ++ bytes

def keyVariant (variant : Value) : Encoded UInt8 :=
  if isLiteral variant "Account" then .ok 0
  else if isLiteral variant "Hash" then .ok 1
  else .error ⟨"InvalidKey", "unsupported Key variant", none⟩

def encodeKey (value : Value) : Encoded (List UInt8) :=
  match value with
  | .object fields => do
    requireExactOwnKeys fields ["variant", "value"] "Key"
    let variant ← keyVariant (prop fields "variant")
    let raw ← hexBytes (prop fields "value") 32
    return variant :: raw
  | _ => .error ⟨"InvalidKey", "Key must be an object", none⟩

def encodeKeys : List Value → Encoded (List (List UInt8))
  | [] => .ok []
  | entry :: rest => do
    let bytes ← encodeKey entry
    let others ← encodeKeys rest
    return bytes :: others

def encodePublicKey (value : Value) : Encoded (List UInt8) :=
  match value with
  | .object fields => do
    requireExactOwnKeys fields ["algorithm", "value"] "PublicKey"
    let raw ← hexBytesAny (prop fields "value")
    if isLiteral (prop fields "algorithm") "Ed25519" then
      throwIf (raw.length ≠ 32)
        ⟨"InvalidPublicKey", "Ed25519 public key must contain exactly 32 bytes", none⟩
      return 1 :: raw
    else if isLiteral (prop fields "algorithm") "Secp256k1" then
      throwIf (raw.length ≠ 33 ∨ (raw.head? ≠ some 2 ∧ raw.head? ≠ some 3))
        ⟨"InvalidPublicKey", "Secp256k1 public key must be a 33-byte compressed point", none⟩
      return 2 :: raw
    else .error ⟨"InvalidPublicKey", "unsupported PublicKey algorithm", none⟩
  | _ => .error ⟨"InvalidPublicKey", "PublicKey must be an object", none⟩

def encodeOption (value : Value) : Encoded (List UInt8) :=
  match value with
  | .object fields => do
    requireExactOwnKeys fields ["variant", "value"] "Option<u64>"
    if isLiteral (prop fields "variant") "None" then
      throwIf (isNullish (prop fields "value") = false)
        ⟨"InvalidOption", "None Option<u64> cannot carry a value", none⟩
      return [0]
    else if isLiteral (prop fields "variant") "Some" then
      let inner ← fixedUnsigned (prop fields "value") 64
      return 1 :: inner
    else .error ⟨"InvalidOption", "unsupported Option<u64> variant", none⟩
  | _ => .error ⟨"InvalidOption", "Option<u64> must be an object", none⟩

def encodeTyped (type : CanonicalType) (value : Value) : Encoded (List UInt8) :=
  match type with
  | .field type => Concordia.Verify.encodeCanonicalValue type value
  | .bool =>
    match value with
    | .boolean b => .ok [if b then 1 else 0]
    | _ => .error ⟨"InvalidBoolean", "bool must be a JSON boolean", none⟩
  | .key => encodeKey value
  | .bytes => hexBytesAny value >>= lengthPrefixedBytes
  | .keyList =>
    match value with
    | .array entries => do
      let count ← fixedUnsigned (.number entries.length) 32
      let encoded ← encodeKeys entries
      return count ++ encoded.flatten
    | _ => .error ⟨"InvalidKey", "List<Key> must be an array", none⟩
  | .publicKey => encodePublicKey value
  | .optionU64 => encodeOption value

/-- `TYPE_TAGS[type]` with the value's encoding; the two name the same types. -/
def encodeCanonicalValue (type : JsString) (value : Value) : Encoded (UInt8 × List UInt8) :=
  match typeTag type with
  | some (known, tag) => do
    let bytes ← encodeTyped known value
    return (tag, bytes)
  | none => .error ⟨"UnknownType", s!"unknown type: {shownText type}", none⟩

end Values

section Entries

/-- `FieldSchema`, with the types in the words of `TYPE_TAGS`. -/
abbrev FieldSchema := List (String × String)

/-- `EVIDENCE_SCHEMA`. -/
def evidenceSchema : FieldSchema :=
  [("artifact_id", "String"), ("artifact_kind", "u8"), ("content_sha256", "Bytes32"),
    ("byte_length", "u64"), ("media_type", "String"), ("provenance_class", "u8"),
    ("captured_at_unix_seconds", "u64")]

/-- The fields from `index` on, behind those of `result`. -/
def readFields (index : Nat) (result : Fields) : FieldSchema → List Value → Encoded Fields
  | [], _ => .ok result
  | (name, type) :: schema, .object field :: items => do
    requireExactOwnKeys field ["name", "type", "value"] s!"field {index}"
    throwIf (¬ (isLiteral (prop field "name") name && isLiteral (prop field "type") type))
      ⟨"InvalidFields", s!"field {index} must be {name}:{type}", none⟩
    throwIf (hasOwn result name) ⟨"DuplicateArgumentName", s!"duplicate field {name}", none⟩
    readFields (index + 1) (result ++ [(js name, prop field "value")]) schema items
  | _ :: _, _ => .error ⟨"InvalidFields", "malformed typed field", none⟩

def fieldsToRecord (fields : Value) (schema : FieldSchema) : Encoded Fields :=
  match fields with
  | .array items => do
    throwIf (items.length ≠ schema.length)
      ⟨"InvalidFields", s!"expected {schema.length} fields, received {items.length}", none⟩
    readFields 0 [] schema items
  | _ => .error ⟨"InvalidFields", "typed fields must be an array", none⟩

def encodeRecord (values : Fields) : FieldSchema → Encoded (List UInt8)
  | [] => .ok []
  | (name, type) :: schema => do
    throwIf (hasOwn values name = false) ⟨"InvalidFields", s!"missing field {name}", none⟩
    let (_, bytes) ← encodeCanonicalValue (js type) (prop values name)
    let rest ← encodeRecord values schema
    return bytes ++ rest

structure TypedField where
  name : JsString
  type : JsString
  value : Value

def requireAncillaryEntry (value : Value) : Encoded TypedField :=
  let malformed : EncodingError := ⟨"InvalidFields", "malformed typed argument", none⟩
  match value with
  | .object fields =>
    match prop fields "name", prop fields "type" with
    | .string name, .string type => .ok ⟨name, type, prop fields "value"⟩
    | _, _ => .error malformed
  | _ => .error malformed

def encodeTypedField (entry : TypedField) : Encoded (List UInt8) := do
  let name ← lengthPrefixedString entry.name
  let (tag, bytes) ← encodeCanonicalValue entry.type entry.value
  return name ++ tag :: bytes

end Entries

section Manifests

/-- `MACHINE_NAME_RE`. -/
def isMachineName : JsString → Bool
  | [] => false
  | first :: rest =>
    97 ≤ first && first ≤ 122 && rest.length ≤ 63 &&
      rest.all fun u => (97 ≤ u && u ≤ 122) || (48 ≤ u && u ≤ 57) || u == 95

/-- The names are different, and each is a machine name. -/
def checkNames (duplicate : EncodingError) (invalid : JsString → EncodingError)
    (names : List JsString) : Encoded Unit := do
  throwIf (¬ names.Nodup) duplicate
  match names.find? fun name => !isMachineName name with
  | some name => .error (invalid name)
  | none => .ok ()

/-- `f` of every entry, up to the first error. -/
def mapEntries {α β : Type} (f : α → Encoded β) : List α → Encoded (List β)
  | [] => .ok []
  | a :: rest => do
    let b ← f a
    let others ← mapEntries f rest
    return b :: others

/-- `entries.sort` with `compareAscii` of the names. A single entry is compared with none; of more,
each is compared, and a name that cannot be is an error. -/
def sortEntries {α : Type} (name : α → Encoded JsString) (entries : List α) : Encoded (List α) :=
  if entries.length < 2 then .ok entries
  else do
    let keyed ← mapEntries (fun entry => do
      let text ← name entry
      let bytes ← asciiBytes text
      return (bytes, entry)) entries
    return (sortBy (· ≤ ·) Prod.fst keyed).map Prod.snd

/-- The entries of a manifest of version 1. -/
def entriesInInputOrder (input : Value) (kind : String) : Encoded (List Value) :=
  let version : EncodingError :=
    ⟨"InvalidManifestVersion", s!"{kind} manifest version must equal 1", none⟩
  match input with
  | .object fields =>
    match prop fields "version" with
    | .object shown => do
      throwIf (isLiteral (prop shown "value") "1" = false) version
      match prop fields "entries_in_input_order" with
      | .array entries => return entries
      | _ => .error ⟨"InvalidFields", s!"{kind} entries must be an array", none⟩
    | _ => .error version
  | _ => .error version

structure Manifest where
  canonical : List UInt8
  order : List JsString
  deriving DecidableEq

def encodeEvidenceManifest (input : Value) : Encoded Manifest := do
  let given ← entriesInInputOrder input "evidence"
  let records ← mapEntries (fieldsToRecord · evidenceSchema) given
  let entries ← sortEntries (fun entry => asString (prop entry "artifact_id")) records
  let names ← mapEntries (fun entry => asString (prop entry "artifact_id")) entries
  checkNames ⟨"DuplicateArtifactId", "duplicate artifact IDs are forbidden", none⟩
    (fun name => ⟨"InvalidArtifactId", s!"invalid artifact ID {shownText name}", none⟩) names
  let version ← fixedUnsigned (.number 1) 32
  let count ← fixedUnsigned (.number entries.length) 32
  let encoded ← mapEntries (encodeRecord · evidenceSchema) entries
  return ⟨version ++ count ++ encoded.flatten, names⟩

def encodeAncillary (entries : List TypedField) : Encoded (List UInt8) := do
  checkNames ⟨"DuplicateArgumentName", "duplicate argument names are forbidden", none⟩
    (fun name => ⟨"InvalidArgumentName", s!"invalid argument name {shownText name}", none⟩)
    (entries.map TypedField.name)
  let count ← fixedUnsigned (.number entries.length) 32
  let encoded ← mapEntries encodeTypedField entries
  return count ++ encoded.flatten

def encodeMetadataManifest (input : Value) : Encoded Manifest := do
  let given ← entriesInInputOrder input "metadata"
  let typed ← mapEntries requireAncillaryEntry given
  let entries ← sortEntries (fun entry => .ok entry.name) typed
  let canonicalEntries ← encodeAncillary entries
  let version ← fixedUnsigned (.number 1) 32
  return ⟨version ++ canonicalEntries, entries.map TypedField.name⟩

end Manifests

/-! What the entries say, whatever form their numbers have. -/
section Contents

structure KeyContent where
  account : Bool
  value : JsString
  deriving DecidableEq

inductive Content where
  | bool (b : Bool)
  | unsigned (n : Nat)
  | text (s : JsString)
  | key (k : KeyContent)
  | keys (ks : List KeyContent)
  | publicKey (ed25519 : Bool) (value : JsString)
  | option (n : Option Nat)
  deriving DecidableEq

def textOf : Value → Option JsString
  | .string s => some s
  | _ => none

def numberOf (bits : Nat) (value : Value) : Option Nat := (parseUnsigned value bits).toOption

def numericBits : FieldType → Option Nat
  | .u8 => some 8
  | .u32 => some 32
  | .u64 => some 64
  | .u256 => some 256
  | .u512 => some 512
  | .bytes32 | .accountHash | .string => none

def fieldContent (type : FieldType) (value : Value) : Option Content :=
  match numericBits type with
  | some bits => (numberOf bits value).map .unsigned
  | none => (textOf value).map .text

def keyContent : Value → Option KeyContent
  | .object fields =>
    (textOf (prop fields "value")).map (KeyContent.mk (isLiteral (prop fields "variant") "Account"))
  | _ => none

def publicKeyContent : Value → Option Content
  | .object fields => (textOf (prop fields "value")).map
      (Content.publicKey (isLiteral (prop fields "algorithm") "Ed25519"))
  | _ => none

def optionContent : Value → Option Content
  | .object fields =>
    if isLiteral (prop fields "variant") "None" then some (.option none)
    else (numberOf 64 (prop fields "value")).map fun n => .option (some n)
  | _ => none

def contentOf : CanonicalType → Value → Option Content
  | .field type, value => fieldContent type value
  | .bool, .boolean b => some (.bool b)
  | .bool, _ => none
  | .key, value => (keyContent value).map .key
  | .bytes, value => (textOf value).map .text
  | .keyList, .array entries => (entries.mapM keyContent).map .keys
  | .keyList, _ => none
  | .publicKey, value => publicKeyContent value
  | .optionU64, value => optionContent value

/-- The bytes of a hash in hexadecimal. -/
def HexBytes (length : Nat) (s : JsString) (raw : List UInt8) : Prop :=
  fromHex s = some raw ∧ raw.length = length

inductive EncodesKey : KeyContent → List UInt8 → Prop
  | key {account : Bool} {s : JsString} {raw : List UInt8} (h : HexBytes 32 s raw) :
      EncodesKey ⟨account, s⟩ ((if account then 0 else 1) :: raw)

inductive Encodes : CanonicalType → Content → List UInt8 → Prop
  | unsigned {type : FieldType} {bits n : Nat} (hbits : numericBits type = some bits)
      (h : n < 256 ^ (bits / 8)) : Encodes (.field type) (.unsigned n) (beBytes (bits / 8) n)
  | hash {type : FieldType} {s : JsString} {raw : List UInt8}
      (htype : type = .bytes32 ∨ type = .accountHash) (h : HexBytes 32 s raw) :
      Encodes (.field type) (.text s) raw
  | string {s : JsString} {raw : List UInt8} (h : asciiBytes s = .ok raw)
      (hbound : raw.length < 256 ^ 4) : Encodes (.field .string) (.text s) (lengthPrefixed 4 raw)
  | bool {b : Bool} : Encodes .bool (.bool b) [if b then 1 else 0]
  | key {k : KeyContent} {raw : List UInt8} (h : EncodesKey k raw) : Encodes .key (.key k) raw
  | bytes {s : JsString} {raw : List UInt8} (h : fromHex s = some raw)
      (hbound : raw.length < 256 ^ 4) : Encodes .bytes (.text s) (lengthPrefixed 4 raw)
  | keys {ks : List KeyContent} {parts : List (List UInt8)} (h : List.Forall₂ EncodesKey ks parts)
      (hbound : ks.length < 256 ^ 4) :
      Encodes .keyList (.keys ks) (beBytes 4 ks.length ++ parts.flatten)
  | ed25519 {s : JsString} {raw : List UInt8} (h : HexBytes 32 s raw) :
      Encodes .publicKey (.publicKey true s) (1 :: raw)
  | secp256k1 {s : JsString} {raw : List UInt8} (h : HexBytes 33 s raw) :
      Encodes .publicKey (.publicKey false s) (2 :: raw)
  | none : Encodes .optionU64 (.option none) [0]
  | some {n : Nat} (h : n < 256 ^ 8) : Encodes .optionU64 (.option (some n)) (1 :: beBytes 8 n)

theorem bind_ok {α β : Type} {x : Encoded α} {f : α → Encoded β} {b : β}
    (h : (x >>= f) = .ok b) : ∃ a, x = .ok a ∧ f a = .ok b := by
  cases x with
  | error e => cases h
  | ok a => exact ⟨a, rfl, h⟩

theorem numberOf_ok {bits n : Nat} {value : Value} (h : parseUnsigned value bits = .ok n) :
    numberOf bits value = some n := by
  rw [numberOf, h]
  rfl

/-- The integer that a value spells. -/
inductive Spells : Value → Int → Prop
  | bigint {i : Int} : Spells (.bigint i) i
  | number {x : ℚ} {i : Int} (h : safeInteger x = some i) : Spells (.number x) i
  | decimal {s : JsString} : Spells (.string s) (Int.ofNat (digitsValue s))

theorem range_ok {i : Int} {bits n : Nat} {e : EncodingError}
    (h : (if i < 0 ∨ i ≥ 2 ^ bits then Except.error e else .ok i.toNat : Encoded Nat) = .ok n) :
    i = n ∧ n < 2 ^ bits := by
  split at h
  · cases h
  · next hrange =>
    obtain rfl := Except.ok.inj h
    rw [not_or, not_lt, ge_iff_le, not_le] at hrange
    have hnat : (i.toNat : Int) = i := Int.toNat_of_nonneg hrange.1
    refine ⟨hnat.symm, ?_⟩
    zify
    rw [hnat]
    exact hrange.2

theorem parseUnsigned_ok {bits n : Nat} {value : Value} (h : parseUnsigned value bits = .ok n) :
    Spells value n ∧ n < 2 ^ bits := by
  unfold parseUnsigned at h
  simp only at h
  split at h
  · next i =>
    obtain ⟨rfl, hbound⟩ := range_ok h
    exact ⟨.bigint, hbound⟩
  · split at h
    · next i hsafe =>
      obtain ⟨rfl, hbound⟩ := range_ok h
      exact ⟨.number hsafe, hbound⟩
    · cases h
  · split at h
    · next s _ =>
      obtain ⟨hvalue, hbound⟩ := range_ok h
      exact ⟨hvalue ▸ .decimal, hbound⟩
    · cases h
  · cases h

theorem fixedUnsigned_ok {bits : Nat} {value : Value} {bytes : List UInt8}
    (h : fixedUnsigned value bits = .ok bytes) :
    ∃ n, parseUnsigned value bits = .ok n ∧ bytes = beBytes (bits / 8) n := by
  unfold fixedUnsigned at h
  cases hparsed : parseUnsigned value bits with
  | error e =>
    rw [hparsed] at h
    cases h
  | ok n =>
    rw [hparsed] at h
    exact ⟨n, rfl, (Except.ok.inj h).symm⟩

/-- The length of a list, in four bytes. -/
theorem count_ok {n : Nat} {bytes : List UInt8} (h : fixedUnsigned (.number n) 32 = .ok bytes) :
    n < 256 ^ 4 ∧ bytes = beBytes 4 n := by
  obtain ⟨m, hparsed, rfl⟩ := fixedUnsigned_ok h
  obtain ⟨hspells, hbound⟩ := parseUnsigned_ok hparsed
  have hsame : m = n := by
    cases hspells with
    | number hsafe =>
      have hvalue := (Transcript.safeInteger_some hsafe).1
      exact_mod_cast hvalue.symm
  subst hsame
  exact ⟨hbound, rfl⟩

theorem hexBytes_ok {value : Value} {n : Nat} {raw : List UInt8}
    (h : hexBytes value n = .ok raw) : ∃ s, value = .string s ∧ HexBytes n s raw := by
  unfold hexBytes at h
  split at h
  · next s =>
    split at h
    · next output hread =>
      split at h
      · cases h
      · next hlength =>
        obtain rfl := Except.ok.inj h
        exact ⟨s, rfl, hread, not_not.mp hlength⟩
    · cases h
  · cases h

theorem hexBytesAny_ok {value : Value} {raw : List UInt8} (h : hexBytesAny value = .ok raw) :
    ∃ s, value = .string s ∧ fromHex s = some raw := by
  unfold hexBytesAny at h
  simp only at h
  split at h
  · next s =>
    split at h
    · next output hread =>
      obtain rfl := Except.ok.inj h
      exact ⟨s, rfl, hread⟩
    · cases h
  · cases h

theorem prefixed_ok {raw bytes : List UInt8} (h : lengthPrefixedBytes raw = .ok bytes) :
    raw.length < 256 ^ 4 ∧ bytes = lengthPrefixed 4 raw := by
  obtain ⟨length, hlength, h⟩ := bind_ok h
  obtain ⟨hbound, rfl⟩ := count_ok hlength
  exact ⟨hbound, (Except.ok.inj h).symm⟩

theorem lengthPrefixedString_ok {s : JsString} {bytes : List UInt8}
    (h : lengthPrefixedString s = .ok bytes) :
    ∃ raw, asciiBytes s = .ok raw ∧ raw.length < 256 ^ 4 ∧ bytes = lengthPrefixed 4 raw := by
  obtain ⟨raw, hraw, h⟩ := bind_ok h
  exact ⟨raw, hraw, prefixed_ok h⟩

theorem numericBits_width {type : FieldType} {bits : Nat} (h : numericBits type = some bits) :
    2 ^ bits = 256 ^ (bits / 8) := by
  have height : bits = 8 * (bits / 8) := by
    cases type <;> cases h <;> rfl
  conv_lhs => rw [height, pow_mul]
  rfl

/-- An envelope field of this manifest is encoded as its content is. -/
theorem field_ok {type : FieldType} {value : Value} {bytes : List UInt8}
    (h : Concordia.Verify.encodeCanonicalValue type value = .ok bytes) :
    ∃ c, fieldContent type value = some c ∧ Encodes (.field type) c bytes := by
  have hnumeric : ∀ {bits}, numericBits type = some bits → fixedUnsigned value bits = .ok bytes →
      ∃ c, fieldContent type value = some c ∧ Encodes (.field type) c bytes := by
    intro bits hbits hfixed
    obtain ⟨n, hparsed, rfl⟩ := fixedUnsigned_ok hfixed
    refine ⟨.unsigned n, ?_, .unsigned hbits ?_⟩
    · rw [fieldContent, hbits]
      simp only [numberOf_ok hparsed, Option.map_some]
    · rw [← numericBits_width hbits]
      exact (parseUnsigned_ok hparsed).2
  have hhash : type = .bytes32 ∨ type = .accountHash → hexBytes value 32 = .ok bytes →
      ∃ c, fieldContent type value = some c ∧ Encodes (.field type) c bytes := by
    intro htype hhex
    obtain ⟨s, rfl, hs⟩ := hexBytes_ok hhex
    refine ⟨.text s, ?_, .hash htype hs⟩
    rcases htype with rfl | rfl <;> rfl
  cases type with
  | u8 => exact hnumeric rfl h
  | u32 => exact hnumeric rfl h
  | u64 => exact hnumeric rfl h
  | u256 => exact hnumeric rfl h
  | u512 => exact hnumeric rfl h
  | bytes32 => exact hhash (.inl rfl) h
  | accountHash => exact hhash (.inr rfl) h
  | string =>
    obtain ⟨s, hs, h⟩ := bind_ok h
    cases value with
    | string t =>
      obtain rfl := Except.ok.inj hs
      obtain ⟨raw, hraw, hbound, rfl⟩ := lengthPrefixedString_ok h
      exact ⟨.text t, rfl, .string hraw hbound⟩
    | _ => cases hs

theorem throwIf_then {α : Type} {c : Prop} [Decidable c] {e : EncodingError}
    {f : Unit → Encoded α} {a : α} (h : (throwIf c e >>= f) = .ok a) : ¬ c ∧ f () = .ok a :=
  throwIf_bind_ok.mp h

theorem encodeKey_ok {value : Value} {bytes : List UInt8} (h : encodeKey value = .ok bytes) :
    ∃ k, keyContent value = some k ∧ EncodesKey k bytes := by
  cases value with
  | object fields =>
    obtain ⟨-, h⟩ := throwIf_then h
    obtain ⟨variant, hvariant, h⟩ := bind_ok h
    obtain ⟨raw, hraw, h⟩ := bind_ok h
    obtain rfl := Except.ok.inj h
    obtain ⟨s, hs, hhex⟩ := hexBytes_ok hraw
    refine ⟨⟨isLiteral (prop fields "variant") "Account", s⟩, by simp [keyContent, hs, textOf], ?_⟩
    have htag : variant = if isLiteral (prop fields "variant") "Account" then 0 else 1 := by
      unfold keyVariant at hvariant
      split at hvariant
      · next haccount =>
        rw [haccount]
        exact (Except.ok.inj hvariant).symm
      · next haccount =>
        rw [if_neg haccount]
        split at hvariant
        · exact (Except.ok.inj hvariant).symm
        · cases hvariant
    rw [htag]
    exact .key hhex
  | _ => cases h

theorem encodeKeys_ok {values : List Value} {parts : List (List UInt8)}
    (h : encodeKeys values = .ok parts) : ∃ ks, values.mapM keyContent = some ks ∧
      ks.length = values.length ∧ List.Forall₂ EncodesKey ks parts := by
  induction values generalizing parts with
  | nil =>
    obtain rfl := Except.ok.inj h
    exact ⟨[], rfl, rfl, .nil⟩
  | cons value rest ih =>
    obtain ⟨bytes, hbytes, h⟩ := bind_ok h
    obtain ⟨others, hothers, h⟩ := bind_ok h
    obtain rfl := Except.ok.inj h
    obtain ⟨k, hk, hencodes⟩ := encodeKey_ok hbytes
    obtain ⟨ks, hks, hlength, hall⟩ := ih hothers
    refine ⟨k :: ks, ?_, congrArg Nat.succ hlength, .cons hencodes hall⟩
    rw [List.mapM_cons, hk, hks]
    rfl

theorem encodePublicKey_ok {value : Value} {bytes : List UInt8}
    (h : encodePublicKey value = .ok bytes) :
    ∃ c, publicKeyContent value = some c ∧ Encodes .publicKey c bytes := by
  cases value with
  | object fields =>
    obtain ⟨-, h⟩ := throwIf_then h
    obtain ⟨raw, hraw, h⟩ := bind_ok h
    obtain ⟨s, hs, hread⟩ := hexBytesAny_ok hraw
    refine ⟨.publicKey (isLiteral (prop fields "algorithm") "Ed25519") s,
      by simp [publicKeyContent, hs, textOf], ?_⟩
    split at h
    · next hed =>
      obtain ⟨hlength, h⟩ := throwIf_then h
      obtain rfl := Except.ok.inj h
      rw [hed]
      exact .ed25519 ⟨hread, not_not.mp hlength⟩
    · next hed =>
      split at h
      · obtain ⟨hshape, h⟩ := throwIf_then h
        obtain rfl := Except.ok.inj h
        rw [Bool.not_eq_true] at hed
        rw [hed]
        exact .secp256k1 ⟨hread, not_not.mp (not_or.mp hshape).1⟩
      · cases h
  | _ => cases h

theorem encodeOption_ok {value : Value} {bytes : List UInt8} (h : encodeOption value = .ok bytes) :
    ∃ c, optionContent value = some c ∧ Encodes .optionU64 c bytes := by
  cases value with
  | object fields =>
    obtain ⟨-, h⟩ := throwIf_then h
    rw [optionContent]
    split at h
    · next hnone =>
      obtain ⟨-, h⟩ := throwIf_then h
      obtain rfl := Except.ok.inj h
      rw [if_pos hnone]
      exact ⟨_, rfl, .none⟩
    · next hsome =>
      rw [if_neg hsome]
      split at h
      · obtain ⟨inner, hinner, h⟩ := bind_ok h
        obtain rfl := Except.ok.inj h
        obtain ⟨n, hparsed, rfl⟩ := fixedUnsigned_ok hinner
        rw [numberOf_ok hparsed]
        exact ⟨_, rfl, .some (parseUnsigned_ok hparsed).2⟩
      · cases h
  | _ => cases h

/-- A value is encoded as its content is. -/
theorem encodeTyped_ok {type : CanonicalType} {value : Value} {bytes : List UInt8}
    (h : encodeTyped type value = .ok bytes) :
    ∃ c, contentOf type value = some c ∧ Encodes type c bytes := by
  cases type with
  | field type => exact field_ok h
  | bool =>
    cases value with
    | boolean b =>
      obtain rfl := Except.ok.inj h
      exact ⟨.bool b, rfl, .bool⟩
    | _ => cases h
  | key =>
    obtain ⟨k, hk, hencodes⟩ := encodeKey_ok h
    exact ⟨.key k, by rw [contentOf, hk, Option.map_some], .key hencodes⟩
  | bytes =>
    obtain ⟨raw, hraw, hprefixed⟩ := bind_ok h
    obtain ⟨s, rfl, hread⟩ := hexBytesAny_ok hraw
    obtain ⟨hbound, rfl⟩ := prefixed_ok hprefixed
    exact ⟨.text s, rfl, .bytes hread hbound⟩
  | keyList =>
    cases value with
    | array entries =>
      obtain ⟨count, hcount, h⟩ := bind_ok h
      obtain ⟨parts, hparts, h⟩ := bind_ok h
      obtain rfl := Except.ok.inj h
      obtain ⟨hbound, rfl⟩ := count_ok hcount
      obtain ⟨ks, hks, hlength, hall⟩ := encodeKeys_ok hparts
      rw [← hlength] at hbound ⊢
      exact ⟨.keys ks, by rw [contentOf, hks, Option.map_some], .keys hall hbound⟩
    | _ => cases h
  | publicKey => exact encodePublicKey_ok h
  | optionU64 => exact encodeOption_ok h

end Contents

/-! The bytes of a content of known type say what it is, and where they end. -/
section Cutting

theorem fromHex_injective {s t : JsString} {raw : List UInt8} (hs : fromHex s = some raw)
    (ht : fromHex t = some raw) : s = t := by
  rw [← toHex_fromHex hs, toHex_fromHex ht]

theorem asciiBytes_ok {s : JsString} {raw : List UInt8} (h : asciiBytes s = .ok raw) :
    raw.map (fun b => b.toNat.toUInt16) = s := by
  unfold asciiBytes at h
  split at h
  · cases h
  · next hascii =>
    obtain rfl := Except.ok.inj h
    rw [Bool.not_eq_true, List.any_eq_false] at hascii
    have hunit : ∀ u ∈ s, u.toNat.toUInt8.toNat.toUInt16 = u := by
      intro u hu
      have hrange := hascii u hu
      simp only [Bool.or_eq_true, decide_eq_true_eq, not_or] at hrange
      have hhigh : u.toNat ≤ 126 := not_lt.mp fun h => hrange.2 (UInt16.lt_iff_toNat_lt.mpr h)
      apply UInt16.toNat_inj.mp
      rw [UInt16.toNat_ofNat', UInt8.toNat_ofNat']
      omega
    rw [List.map_map]
    exact (List.map_congr_left hunit).trans (List.map_id' s)

theorem asciiBytes_injective {s t : JsString} {raw : List UInt8} (hs : asciiBytes s = .ok raw)
    (ht : asciiBytes t = .ok raw) : s = t := by
  rw [← asciiBytes_ok hs, asciiBytes_ok ht]

theorem HexBytes.cut {n : Nat} {s t : JsString} {raw other r u : List UInt8}
    (hs : HexBytes n s raw) (ht : HexBytes n t other) (h : raw ++ r = other ++ u) :
    s = t ∧ r = u := by
  obtain ⟨rfl, hrest⟩ := List.append_inj h (hs.2.trans ht.2.symm)
  exact ⟨fromHex_injective hs.1 ht.1, hrest⟩

theorem encodesKey_cut : SelfDelimiting EncodesKey Eq := by
  intro k l x y r s hx hy h
  cases hx with
  | @key account t raw ht =>
    cases hy with
    | @key account' t' raw' ht' =>
      simp only [List.cons_append, List.cons.injEq] at h
      obtain ⟨htag, hrest⟩ := h
      obtain ⟨rfl, rfl⟩ := ht.cut ht' hrest
      have haccount : account = account' := by
        cases account <;> cases account' <;> simp_all
      exact ⟨by rw [haccount], rfl⟩

theorem encodes_cut (type : CanonicalType) : SelfDelimiting (Encodes type) Eq := by
  intro c d x y r s hx hy h
  cases hx with
  | unsigned hbits hn =>
    cases hy with
    | unsigned hbits' hm =>
      obtain rfl := Option.some.inj (hbits.symm.trans hbits')
      obtain ⟨rfl, hrest⟩ := beBytes_cut hn hm h
      exact ⟨rfl, hrest⟩
    | hash htype _ => rcases htype with rfl | rfl <;> cases hbits
    | string _ _ => cases hbits
  | hash htype ht =>
    cases hy with
    | unsigned hbits _ => rcases htype with rfl | rfl <;> cases hbits
    | hash _ ht' =>
      obtain ⟨rfl, hrest⟩ := ht.cut ht' h
      exact ⟨rfl, hrest⟩
    | string _ _ => rcases htype with htype | htype <;> cases htype
  | string ht hbound =>
    cases hy with
    | unsigned hbits _ => cases hbits
    | hash htype _ => rcases htype with htype | htype <;> cases htype
    | string ht' hbound' =>
      obtain ⟨rfl, hrest⟩ := lengthPrefixed_cut hbound hbound' h
      exact ⟨congrArg Content.text (asciiBytes_injective ht ht'), hrest⟩
  | @bool b =>
    cases hy with
    | @bool b' =>
      simp only [List.cons_append, List.nil_append, List.cons.injEq] at h
      refine ⟨congrArg Content.bool ?_, h.2⟩
      cases b <;> cases b' <;> simp_all
  | key hk =>
    cases hy with
    | key hl =>
      obtain ⟨rfl, hrest⟩ := encodesKey_cut hk hl h
      exact ⟨rfl, hrest⟩
  | bytes ht hbound =>
    cases hy with
    | bytes ht' hbound' =>
      obtain ⟨rfl, hrest⟩ := lengthPrefixed_cut hbound hbound' h
      exact ⟨congrArg Content.text (fromHex_injective ht ht'), hrest⟩
  | keys hall hbound =>
    cases hy with
    | keys hall' hbound' =>
      rw [List.append_assoc, List.append_assoc] at h
      obtain ⟨hlength, hrest⟩ := beBytes_cut hbound hbound' h
      obtain ⟨hsame, hrest⟩ :=
        SelfDelimiting.list (E := EncodesKey) encodesKey_cut hall hall' hlength hrest
      rw [List.forall₂_eq_eq_eq] at hsame
      exact ⟨congrArg Content.keys hsame, hrest⟩
  | ed25519 ht =>
    cases hy with
    | ed25519 ht' =>
      obtain ⟨rfl, hrest⟩ := ht.cut ht' (List.cons.inj h).2
      exact ⟨rfl, hrest⟩
    | secp256k1 _ => exact absurd (List.cons.inj h).1 (by decide)
  | secp256k1 ht =>
    cases hy with
    | ed25519 _ => exact absurd (List.cons.inj h).1 (by decide)
    | secp256k1 ht' =>
      obtain ⟨rfl, hrest⟩ := ht.cut ht' (List.cons.inj h).2
      exact ⟨rfl, hrest⟩
  | none =>
    cases hy with
    | none => exact ⟨rfl, (List.cons.inj h).2⟩
    | some _ => exact absurd (List.cons.inj h).1 (by decide)
  | some hn =>
    cases hy with
    | none => exact absurd (List.cons.inj h).1 (by decide)
    | some hm =>
      obtain ⟨rfl, hrest⟩ := beBytes_cut hn hm (List.cons.inj h).2
      exact ⟨rfl, hrest⟩

theorem encodesKey_functional : ∀ k x y, EncodesKey k x → EncodesKey k y → x = y := by
  intro k x y hx hy
  cases hx with
  | key h =>
    cases hy with
    | key h' => rw [Option.some.inj (h.1.symm.trans h'.1)]

theorem encodes_functional (type : CanonicalType) :
    ∀ c x y, Encodes type c x → Encodes type c y → x = y := by
  intro c x y hx hy
  cases hx with
  | unsigned hbits _ =>
    cases hy with
    | unsigned hbits' _ => rw [Option.some.inj (hbits.symm.trans hbits')]
  | hash htype h =>
    cases hy with
    | hash _ h' => exact Option.some.inj (h.1.symm.trans h'.1)
    | string _ _ => rcases htype with htype | htype <;> cases htype
  | string h _ =>
    cases hy with
    | hash htype _ => rcases htype with htype | htype <;> cases htype
    | string h' _ => rw [Except.ok.inj (h.symm.trans h')]
  | bool =>
    cases hy
    rfl
  | key h =>
    cases hy with
    | key h' => exact encodesKey_functional _ _ _ h h'
  | bytes h _ =>
    cases hy with
    | bytes h' _ => rw [Option.some.inj (h.symm.trans h')]
  | keys h _ =>
    cases hy with
    | keys h' _ => rw [forall₂_functional encodesKey_functional h h']
  | ed25519 h =>
    cases hy with
    | ed25519 h' => rw [Option.some.inj (h.1.symm.trans h'.1)]
  | secp256k1 h =>
    cases hy with
    | secp256k1 h' => rw [Option.some.inj (h.1.symm.trans h'.1)]
  | none =>
    cases hy
    rfl
  | some _ =>
    cases hy
    rfl

end Cutting

/-! From an entry to its contents. -/
section Entries

def fieldsContent (values : Fields) : FieldSchema → Option (List Content)
  | [] => some []
  | (name, type) :: schema => do
    let (known, _) ← typeTag (js type)
    let content ← contentOf known (prop values name)
    let rest ← fieldsContent values schema
    return content :: rest

/-- The contents of an evidence entry. -/
def evidenceContent (values : Fields) : Option (List Content) := fieldsContent values evidenceSchema

structure MetadataContent where
  name : JsString
  type : JsString
  content : Content
  deriving DecidableEq

def metadataContent (entry : TypedField) : Option MetadataContent := do
  let (known, _) ← typeTag entry.type
  let content ← contentOf known entry.value
  return ⟨entry.name, entry.type, content⟩

inductive EncodesFields : FieldSchema → List Content → List UInt8 → Prop
  | nil : EncodesFields [] [] []
  | cons {name type : String} {known : CanonicalType} {tag : UInt8} {schema : FieldSchema}
      {c : Content} {cs : List Content} {x xs : List UInt8}
      (htype : typeTag (js type) = some (known, tag)) (h : Encodes known c x)
      (hrest : EncodesFields schema cs xs) :
      EncodesFields ((name, type) :: schema) (c :: cs) (x ++ xs)

inductive EncodesMetadata : MetadataContent → List UInt8 → Prop
  | entry {name type : JsString} {raw : List UInt8} {known : CanonicalType} {tag : UInt8}
      {c : Content} {x : List UInt8} (hname : asciiBytes name = .ok raw)
      (hbound : raw.length < 256 ^ 4) (htype : typeTag type = some (known, tag))
      (h : Encodes known c x) : EncodesMetadata ⟨name, type, c⟩ (lengthPrefixed 4 raw ++ tag :: x)

theorem encodeCanonicalValue_ok {type : JsString} {value : Value} {tag : UInt8}
    {bytes : List UInt8} (h : encodeCanonicalValue type value = .ok (tag, bytes)) :
    ∃ known c, typeTag type = some (known, tag) ∧ contentOf known value = some c ∧
      Encodes known c bytes := by
  unfold encodeCanonicalValue at h
  split at h
  · next known tag' htype =>
    obtain ⟨raw, hraw, h⟩ := bind_ok h
    obtain ⟨rfl, rfl⟩ := Prod.mk.inj (Except.ok.inj h)
    obtain ⟨c, hc, hencodes⟩ := encodeTyped_ok hraw
    exact ⟨known, c, htype, hc, hencodes⟩
  · cases h

theorem encodeRecord_ok {values : Fields} {schema : FieldSchema} {bytes : List UInt8}
    (h : encodeRecord values schema = .ok bytes) :
    ∃ cs, fieldsContent values schema = some cs ∧ EncodesFields schema cs bytes := by
  induction schema generalizing bytes with
  | nil =>
    obtain rfl := Except.ok.inj h
    exact ⟨[], rfl, .nil⟩
  | cons field schema ih =>
    obtain ⟨name, type⟩ := field
    obtain ⟨-, h⟩ := throwIf_then h
    obtain ⟨⟨tag, first⟩, hfirst, h⟩ := bind_ok h
    obtain ⟨rest, hrest, h⟩ := bind_ok h
    obtain rfl := Except.ok.inj h
    obtain ⟨known, c, htype, hc, hencodes⟩ := encodeCanonicalValue_ok hfirst
    obtain ⟨cs, hcs, hall⟩ := ih hrest
    refine ⟨c :: cs, ?_, .cons htype hencodes hall⟩
    simp only [fieldsContent, htype, hc, hcs, Option.bind_eq_bind, Option.bind_some,
      Option.pure_def]

theorem encodeTypedField_ok {entry : TypedField} {bytes : List UInt8}
    (h : encodeTypedField entry = .ok bytes) :
    ∃ c, metadataContent entry = some c ∧ EncodesMetadata c bytes := by
  obtain ⟨name, hname, h⟩ := bind_ok h
  obtain ⟨⟨tag, raw⟩, hraw, h⟩ := bind_ok h
  obtain rfl := Except.ok.inj h
  obtain ⟨text, htext, hbound, rfl⟩ := lengthPrefixedString_ok hname
  obtain ⟨known, c, htype, hc, hencodes⟩ := encodeCanonicalValue_ok hraw
  refine ⟨⟨entry.name, entry.type, c⟩, ?_, .entry htext hbound htype hencodes⟩
  simp only [metadataContent, htype, hc, Option.bind_eq_bind, Option.bind_some, Option.pure_def]

theorem encodesFields_cut (schema : FieldSchema) : SelfDelimiting (EncodesFields schema) Eq := by
  induction schema with
  | nil =>
    intro cs ds x y r s hx hy h
    cases hx
    cases hy
    exact ⟨rfl, h⟩
  | cons field schema ih =>
    intro cs ds x y r s hx hy h
    cases hx with
    | cons htype hc hcs =>
      cases hy with
      | cons htype' hd hds =>
        obtain ⟨rfl, -⟩ := Prod.mk.inj (Option.some.inj (htype.symm.trans htype'))
        rw [List.append_assoc, List.append_assoc] at h
        obtain ⟨rfl, hrest⟩ := encodes_cut _ hc hd h
        obtain ⟨rfl, hend⟩ := ih hcs hds hrest
        exact ⟨rfl, hend⟩

theorem encodesFields_functional (schema : FieldSchema) :
    ∀ cs x y, EncodesFields schema cs x → EncodesFields schema cs y → x = y := by
  induction schema with
  | nil =>
    intro cs x y hx hy
    cases hx
    cases hy
    rfl
  | cons field schema ih =>
    intro cs x y hx hy
    cases hx with
    | cons htype hc hcs =>
      cases hy with
      | cons htype' hd hds =>
        obtain ⟨rfl, -⟩ := Prod.mk.inj (Option.some.inj (htype.symm.trans htype'))
        rw [encodes_functional _ _ _ _ hc hd, ih _ _ _ hcs hds]

theorem typeTag_some {type : JsString} {tagged : CanonicalType × UInt8}
    (h : typeTag type = some tagged) : ∃ name, (name, tagged) ∈ typeTags ∧ js name = type := by
  obtain ⟨⟨name, found⟩, hfind, rfl⟩ := Option.map_eq_some_iff.mp h
  have hname := List.find?_some hfind
  exact ⟨name, List.mem_of_find?_eq_some hfind, eq_of_beq hname⟩

theorem typeTags_tags : ∀ e ∈ typeTags, ∀ e' ∈ typeTags, e.2.2 = e'.2.2 → e = e' := by
  decide +kernel

/-- A tag stands for one type. -/
theorem typeTag_injective {type other : JsString} {known known' : CanonicalType} {tag : UInt8}
    (h : typeTag type = some (known, tag)) (h' : typeTag other = some (known', tag)) :
    type = other ∧ known = known' := by
  obtain ⟨name, hin, rfl⟩ := typeTag_some h
  obtain ⟨name', hin', rfl⟩ := typeTag_some h'
  obtain ⟨rfl, hsame⟩ := Prod.mk.inj (typeTags_tags _ hin _ hin' rfl)
  exact ⟨rfl, congrArg Prod.fst hsame⟩

theorem encodesMetadata_cut : SelfDelimiting EncodesMetadata Eq := by
  intro c d x y r s hx hy h
  cases hx with
  | entry hname hbound htype hc =>
    cases hy with
    | entry hname' hbound' htype' hd =>
      rw [List.append_assoc, List.append_assoc] at h
      obtain ⟨rfl, hrest⟩ := lengthPrefixed_cut hbound hbound' h
      obtain ⟨rfl, htail⟩ := List.cons.inj hrest
      obtain ⟨rfl, rfl⟩ := typeTag_injective htype htype'
      obtain ⟨rfl, hend⟩ := encodes_cut _ hc hd htail
      obtain rfl := asciiBytes_injective hname hname'
      exact ⟨rfl, hend⟩

theorem encodesMetadata_functional :
    ∀ c x y, EncodesMetadata c x → EncodesMetadata c y → x = y := by
  intro c x y hx hy
  cases hx with
  | entry hname _ htype hc =>
    cases hy with
    | entry hname' _ htype' hd =>
      obtain ⟨rfl, rfl⟩ := Prod.mk.inj (Option.some.inj (htype.symm.trans htype'))
      rw [Except.ok.inj (hname.symm.trans hname'), encodes_functional _ _ _ _ hc hd]

end Entries

/-! What acceptance says about the entries in the order in which they are given. -/
section Acceptance
variable {α γ : Type} {name : α → Encoded JsString} {encode : α → Encoded (List UInt8)}
variable {content : α → Option γ} {key : γ → List UInt8} {E : γ → List UInt8 → Prop}
variable {entries sorted : List α} {names : List JsString} {parts : List (List UInt8)}

instance total_bytes : Std.Total fun a b : List UInt8 => a ≤ b := ⟨List.le_total⟩
instance trans_bytes : IsTrans (List UInt8) fun a b => a ≤ b := ⟨fun _ _ _ => List.le_trans⟩
instance antisymm_bytes : Std.Antisymm fun a b : List UInt8 => a ≤ b := ⟨fun _ _ => List.le_antisymm⟩

def asciiKey (s : JsString) : List UInt8 := (asciiBytes s).toOption.getD []

/-- What an entry is compared by. -/
def sortKey (name : α → Encoded JsString) (a : α) : List UInt8 :=
  (name a >>= asciiBytes).toOption.getD []

theorem sortKey_ok {a : α} {s : JsString} (h : name a = .ok s) : sortKey name a = asciiKey s := by
  rw [sortKey, h]
  rfl

theorem mapEntries_ok {β : Type} {f : α → Encoded β} {results : List β}
    (h : mapEntries f entries = .ok results) :
    List.Forall₂ (fun a b => f a = .ok b) entries results := by
  induction entries generalizing results with
  | nil =>
    obtain rfl := Except.ok.inj h
    exact .nil
  | cons a rest ih =>
    obtain ⟨b, hb, h⟩ := bind_ok h
    obtain ⟨others, hothers, h⟩ := bind_ok h
    obtain rfl := Except.ok.inj h
    exact .cons hb (ih hothers)

/-- Each entry beside what it is compared by. -/
theorem keyed_ok {keyed : List (List UInt8 × α)} (h : mapEntries (fun entry => do
      let text ← name entry
      let bytes ← asciiBytes text
      return (bytes, entry)) entries = .ok keyed) :
    keyed = entries.map fun a => (sortKey name a, a) := by
  have hall := mapEntries_ok h
  clear h
  induction hall with
  | nil => rfl
  | @cons a _ _ _ hfirst _ ih =>
    obtain ⟨text, htext, hfirst⟩ := bind_ok hfirst
    obtain ⟨bytes, hbytes, hfirst⟩ := bind_ok hfirst
    obtain rfl := Except.ok.inj hfirst
    have hkey : sortKey name a = bytes := by
      rw [sortKey_ok htext, asciiKey, hbytes]
      rfl
    rw [List.map_cons, hkey, ih]

theorem sortEntries_ok (h : sortEntries name entries = .ok sorted) :
    sorted = sortBy (· ≤ ·) (sortKey name) entries := by
  unfold sortEntries at h
  split at h
  · next hshort =>
    obtain rfl := Except.ok.inj h
    match entries, hshort with
    | [], _ => rfl
    | [a], _ => rfl
  · obtain ⟨keyed, hkeyed, h⟩ := bind_ok h
    obtain rfl := Except.ok.inj h
    have hsort : (sortBy (· ≤ ·) (sortKey name) entries).map (fun a => (sortKey name a, a)) =
        sortBy (· ≤ ·) Prod.fst (entries.map fun a => (sortKey name a, a)) :=
      sortBy_map _ fun a _ => rfl
    rw [keyed_ok hkeyed, ← hsort, List.map_map]
    exact List.map_id _

theorem checkNames_ok {duplicate : EncodingError} {invalid : JsString → EncodingError}
    (h : checkNames duplicate invalid names = .ok ()) :
    names.Nodup ∧ ∀ n ∈ names, isMachineName n = true := by
  obtain ⟨hnodup, h⟩ := throwIf_then h
  refine ⟨not_not.mp hnodup, ?_⟩
  split at h
  · cases h
  · next hnone =>
    intro n hn
    have hvalid := List.find?_eq_none.mp hnone n hn
    simpa using hvalid

theorem isMachineName_ascii {s : JsString} (h : isMachineName s = true) :
    asciiBytes s = .ok (asciiKey s) := by
  have hunits : s.any (fun code => code < 0x20 || code > 0x7e) = false := by
    cases s with
    | nil => rfl
    | cons first rest =>
      simp only [isMachineName, Bool.and_eq_true, decide_eq_true_eq, List.all_eq_true,
        Bool.or_eq_true, beq_iff_eq, UInt16.le_iff_toNat_le] at h
      obtain ⟨⟨⟨hlow, hhigh⟩, -⟩, hrest⟩ := h
      have hfirst : 0x20 ≤ first.toNat ∧ first.toNat ≤ 0x7e := by
        have hlow : 97 ≤ first.toNat := hlow
        have hhigh : first.toNat ≤ 122 := hhigh
        omega
      have hbehind : ∀ u ∈ rest, 0x20 ≤ u.toNat ∧ u.toNat ≤ 0x7e := by
        intro u hu
        rcases hrest u hu with (⟨hlow, hhigh⟩ | ⟨hlow, hhigh⟩) | rfl
        · have hlow : 97 ≤ u.toNat := hlow
          have hhigh : u.toNat ≤ 122 := hhigh
          omega
        · have hlow : 48 ≤ u.toNat := hlow
          have hhigh : u.toNat ≤ 57 := hhigh
          omega
        · decide
      rw [List.any_eq_false]
      intro u hu
      have hrange : 0x20 ≤ u.toNat ∧ u.toNat ≤ 0x7e := by
        rcases List.mem_cons.mp hu with rfl | hu
        · exact hfirst
        · exact hbehind u hu
      simp only [Bool.or_eq_true, decide_eq_true_eq, not_or, gt_iff_lt, UInt16.lt_iff_toNat_lt,
        not_lt]
      exact hrange
  rw [asciiKey, asciiBytes, if_neg (by rw [hunits]; decide)]
  rfl

theorem sortKeys_nodup (hnames : mapEntries name sorted = .ok names) (hnodup : names.Nodup)
    (hmachine : ∀ n ∈ names, isMachineName n = true) : (sorted.map (sortKey name)).Nodup := by
  have hkeys : sorted.map (sortKey name) = names.map asciiKey := by
    have hall := mapEntries_ok hnames
    clear hnames hnodup hmachine
    induction hall with
    | nil => rfl
    | cons hfirst _ ih => rw [List.map_cons, List.map_cons, sortKey_ok hfirst, ih]
  rw [hkeys]
  apply hnodup.map_on
  intro n hn n' hn' hsame
  have hascii := isMachineName_ascii (hmachine n hn)
  rw [hsame] at hascii
  exact asciiBytes_injective hascii (isMachineName_ascii (hmachine n' hn'))

theorem contents_ok (hsome : ∀ a ∈ entries, (content a).isSome = true) :
    entries.map content = (entries.filterMap content).map some := by
  induction entries with
  | nil => rfl
  | cons a rest ih =>
    obtain ⟨c, hc⟩ := Option.isSome_iff_exists.mp (hsome a List.mem_cons_self)
    rw [List.filterMap_cons_some hc, List.map_cons, List.map_cons, hc,
      ih fun b hb => hsome b (List.mem_cons_of_mem a hb)]

/-- The contents of the entries, under different keys, and their bytes. -/
structure Described (content : α → Option γ) (key : γ → List UInt8)
    (E : γ → List UInt8 → Prop) (entries : List α) (bytes : List UInt8) : Prop where
  read : ∀ a ∈ entries, (content a).isSome = true
  keys : ((entries.filterMap content).map key).Nodup
  encodes : EncodesAll (· ≤ ·) key E 4 (entries.filterMap content) bytes

/-- The sorted entries in their bytes describe the entries as they were given. -/
theorem described (hencode : ∀ a x, encode a = .ok x → ∃ c, content a = some c ∧ E c x)
    (hkey : ∀ a c, content a = some c → key c = sortKey name a)
    (hsorted : sortEntries name entries = .ok sorted) (hnames : mapEntries name sorted = .ok names)
    (hnodup : names.Nodup) (hmachine : ∀ n ∈ names, isMachineName n = true) {count : List UInt8}
    (hcount : fixedUnsigned (.number sorted.length) 32 = .ok count)
    (hparts : mapEntries encode sorted = .ok parts) :
    Described content key E entries (count ++ parts.flatten) := by
  have hsort := sortEntries_ok hsorted
  have hmem : ∀ a, a ∈ sorted ↔ a ∈ entries := by
    intro a
    rw [hsort, mem_sortBy]
  have hlength : sorted.length = entries.length := by rw [hsort, (sortBy_perm _ _ _).length_eq]
  have hall : List.Forall₂ (fun a x => (content a).isSome = true ∧ ∃ c, content a = some c ∧ E c x)
      sorted parts := by
    apply (mapEntries_ok hparts).imp
    intro a x hx
    obtain ⟨c, hc, hE⟩ := hencode a x hx
    exact ⟨Option.isSome_iff_exists.mpr ⟨c, hc⟩, c, hc, hE⟩
  obtain ⟨hsome, hall⟩ := (List.forall₂_and_left _ _).mp hall
  have hread : ∀ a ∈ entries, (content a).isSome = true := fun a ha => hsome a ((hmem a).mpr ha)
  have hcontents := contents_ok hread
  -- the contents are sorted as their entries are
  let other : Option γ → List UInt8 := fun o => (o.map key).getD []
  have hother : ∀ a ∈ entries, other (content a) = sortKey name a := by
    intro a ha
    obtain ⟨c, hc⟩ := Option.isSome_iff_exists.mp (hread a ha)
    rw [← hkey a c hc, hc]
    rfl
  have hsome' : ∀ c ∈ entries.filterMap content, other (some c) = key c := fun _ _ => rfl
  have hsorted : sorted.map content =
      (sortBy (· ≤ ·) key (entries.filterMap content)).map some := by
    rw [hsort, sortBy_map _ hother, hcontents, ← sortBy_map _ hsome']
  have hkeys : (entries.filterMap content).map key = entries.map (sortKey name) := by
    calc (entries.filterMap content).map key
        = ((entries.filterMap content).map some).map other := by rw [List.map_map]; rfl
      _ = (entries.map content).map other := by rw [hcontents]
      _ = entries.map (sortKey name) := by rw [List.map_map]; exact List.map_congr_left hother
  have hcount' := count_ok hcount
  have hsize : (entries.filterMap content).length = entries.length := by
    have h := congrArg List.length hcontents
    rw [List.length_map, List.length_map] at h
    exact h.symm
  refine ⟨hread, ?_, parts, ?_, ?_, ?_⟩
  · have hperm : (sorted.map (sortKey name)).Perm (entries.map (sortKey name)) := by
      rw [hsort]
      exact (sortBy_perm _ _ _).map _
    rw [hkeys]
    exact hperm.nodup_iff.mp (sortKeys_nodup hnames hnodup hmachine)
  · have hencoded : List.Forall₂ (fun o x => ∃ c, o = some c ∧ E c x) (sorted.map content) parts :=
      List.forall₂_map_left_iff.mpr hall
    rw [hsorted] at hencoded
    apply (List.forall₂_map_left_iff.mp hencoded).imp
    rintro c x ⟨d, hd, hE⟩
    rw [Option.some.inj hd]
    exact hE
  · rw [hsize, ← hlength]
    exact hcount'.1
  · rw [hsize, ← hlength, hcount'.2]

/-- The names of the entries as they were given are different, too. -/
theorem names_nodup (hsorted : sortEntries name entries = .ok sorted)
    (hnames : mapEntries name sorted = .ok names) (hnodup : names.Nodup) :
    (entries.filterMap fun a => (name a).toOption).Nodup := by
  have hshown : (sorted.filterMap fun a => (name a).toOption) = names := by
    have hall := mapEntries_ok hnames
    clear hsorted hnames hnodup
    induction hall with
    | nil => rfl
    | cons hfirst _ ih =>
      rw [List.filterMap_cons, hfirst, ih]
      rfl
  have hperm : (sorted.filterMap fun a => (name a).toOption).Perm
      (entries.filterMap fun a => (name a).toOption) := by
    rw [sortEntries_ok hsorted]
    exact (sortBy_perm _ _ _).filterMap _
  rw [hshown] at hperm
  exact hperm.nodup_iff.mp hnodup

theorem filterMap_read {β : Type} {read : Value → Encoded α} {given : List Value}
    (f : α → Option β) (h : List.Forall₂ (fun v a => read v = .ok a) given entries) :
    (given.filterMap fun v => (read v).toOption.bind f) = entries.filterMap f := by
  induction h with
  | nil => rfl
  | @cons v a _ _ hfirst _ ih =>
    have hread : (read v).toOption.bind f = f a := by
      rw [hfirst]
      rfl
    rw [List.filterMap_cons, List.filterMap_cons, hread, ih]

theorem exists_read {read : Value → Encoded α} {given : List Value}
    (h : List.Forall₂ (fun v a => read v = .ok a) given entries) :
    ∀ v ∈ given, ∃ a ∈ entries, read v = .ok a := by
  induction h with
  | nil => simp
  | cons hfirst _ ih =>
    intro v hv
    rcases List.mem_cons.mp hv with rfl | hv
    · exact ⟨_, List.mem_cons_self, hfirst⟩
    · obtain ⟨a, ha, hread⟩ := ih v hv
      exact ⟨a, List.mem_cons_of_mem _ ha, hread⟩

/-- `input.entries_in_input_order`, where it is an array. -/
def rawEntries (input : Value) : List Value :=
  match input with
  | .object fields =>
    match prop fields "entries_in_input_order" with
    | .array entries => entries
    | _ => []
  | _ => []

theorem entriesInInputOrder_ok {input : Value} {kind : String} {given : List Value}
    (h : entriesInInputOrder input kind = .ok given) : rawEntries input = given := by
  unfold entriesInInputOrder at h
  simp only at h
  split at h
  · split at h
    · obtain ⟨-, h⟩ := throwIf_then h
      split at h
      · next hentries =>
        obtain rfl := Except.ok.inj h
        rw [rawEntries, hentries]
      · cases h
    · cases h
  · cases h

/-- A manifest's bytes are determined by what its entries say: all of them are read, two manifests
have the same bytes exactly when their entries say the same, and no name is given twice. -/
structure DeterminedBy (encode : Value → Encoded Manifest) (entryOf : Value → Option γ)
    (nameOf : Value → Option JsString) : Prop where
  read : ∀ {input m}, encode input = .ok m → ∀ v ∈ rawEntries input, (entryOf v).isSome = true
  bytes : ∀ {input other m m'}, encode input = .ok m → encode other = .ok m' →
    (m.canonical = m'.canonical ↔ ∀ c,
      c ∈ (rawEntries input).filterMap entryOf ↔ c ∈ (rawEntries other).filterMap entryOf)
  distinct : ∀ {input}, ¬ ((rawEntries input).filterMap nameOf).Nodup → ∀ m, encode input ≠ .ok m

/-- What an accepted manifest is made of. -/
def MadeOf (read : Value → Encoded α) (name : α → Encoded JsString) (content : α → Option γ)
    (key : γ → List UInt8) (E : γ → List UInt8 → Prop) (input : Value) (m : Manifest) : Prop :=
  ∃ entries bytes, List.Forall₂ (fun v a => read v = .ok a) (rawEntries input) entries ∧
    m.canonical = beBytes 4 1 ++ bytes ∧ Described content key E entries bytes ∧
    (entries.filterMap fun a => (name a).toOption).Nodup

theorem determined {encodeManifest : Value → Encoded Manifest} {read : Value → Encoded α}
    (hcut : SelfDelimiting E Eq) (hfun : ∀ c x y, E c x → E c y → x = y)
    (hmade : ∀ {input m}, encodeManifest input = .ok m →
      MadeOf read name content key E input m) :
    DeterminedBy encodeManifest (fun v => (read v).toOption.bind content)
      (fun v => (read v).toOption.bind fun a => (name a).toOption) where
  read := by
    intro input m h v hv
    obtain ⟨entries, bytes, hread, -, hdescribed, -⟩ := hmade h
    obtain ⟨a, ha, hv⟩ := exists_read hread v hv
    rw [hv]
    exact hdescribed.read a ha
  bytes := by
    intro input other m m' h h'
    obtain ⟨entries, bytes, hread, hbytes, hdescribed, -⟩ := hmade h
    obtain ⟨entries', bytes', hread', hbytes', hdescribed', -⟩ := hmade h'
    rw [filterMap_read content hread, filterMap_read content hread', hbytes, hbytes',
      List.append_cancel_left_eq]
    exact encodesAll_iff hcut hfun hdescribed.keys hdescribed'.keys hdescribed.encodes
      hdescribed'.encodes
  distinct := by
    intro input hnot m h
    obtain ⟨entries, bytes, hread, -, -, hnodup⟩ := hmade h
    apply hnot
    rw [filterMap_read _ hread]
    exact hnodup

end Acceptance

section Results

def artifactName (entry : Fields) : Encoded JsString := asString (prop entry "artifact_id")

def evidenceKey : List Content → List UInt8
  | .text s :: _ => asciiKey s
  | _ => []

theorem evidenceKey_ok {values : Fields} {cs : List Content}
    (h : evidenceContent values = some cs) : evidenceKey cs = sortKey artifactName values := by
  unfold evidenceContent evidenceSchema fieldsContent at h
  obtain ⟨⟨known, tag⟩, htype, h⟩ := Option.bind_eq_some_iff.mp h
  obtain ⟨c, hc, h⟩ := Option.bind_eq_some_iff.mp h
  obtain ⟨rest, -, h⟩ := Option.bind_eq_some_iff.mp h
  obtain rfl := Option.some.inj h
  have hstring : typeTag (js "String") = some (.field .string, 10) := by decide +kernel
  obtain ⟨rfl, -⟩ := Prod.mk.inj (Option.some.inj (htype.symm.trans hstring))
  obtain ⟨s, hs, rfl⟩ := Option.map_eq_some_iff.mp hc
  cases hvalue : prop values "artifact_id" with
  | string t =>
    rw [hvalue] at hs
    obtain rfl := Option.some.inj hs
    have hname : artifactName values = .ok t := by
      rw [artifactName, hvalue]
      rfl
    rw [sortKey_ok hname]
    rfl
  | _ =>
    rw [hvalue] at hs
    cases hs

theorem evidence_madeOf {input : Value} {m : Manifest} (h : encodeEvidenceManifest input = .ok m) :
    MadeOf (fieldsToRecord · evidenceSchema) artifactName evidenceContent evidenceKey
      (EncodesFields evidenceSchema) input m := by
  obtain ⟨given, hgiven, h⟩ := bind_ok h
  obtain ⟨records, hrecords, h⟩ := bind_ok h
  obtain ⟨sorted, hsorted, h⟩ := bind_ok h
  obtain ⟨names, hnames, h⟩ := bind_ok h
  obtain ⟨⟨⟩, hcheck, h⟩ := bind_ok h
  obtain ⟨version, hversion, h⟩ := bind_ok h
  obtain ⟨count, hcount, h⟩ := bind_ok h
  obtain ⟨encoded, hencoded, h⟩ := bind_ok h
  obtain rfl := Except.ok.inj h
  obtain rfl := entriesInInputOrder_ok hgiven
  obtain ⟨hnodup, hmachine⟩ := checkNames_ok hcheck
  have hone : version = beBytes 4 1 := (count_ok (n := 1) (by exact_mod_cast hversion)).2
  refine ⟨records, count ++ encoded.flatten, mapEntries_ok hrecords, ?_, ?_, ?_⟩
  · rw [hone, List.append_assoc]
  · apply described _ _ hsorted hnames hnodup hmachine hcount hencoded
    · intro values x hx
      exact encodeRecord_ok hx
    · intro values cs hcs
      exact evidenceKey_ok hcs
  · exact names_nodup hsorted hnames hnodup

def argumentName (entry : TypedField) : Encoded JsString := .ok entry.name

theorem mapEntries_names (entries : List TypedField) :
    mapEntries argumentName entries = .ok (entries.map TypedField.name) := by
  induction entries with
  | nil => rfl
  | cons entry rest ih =>
    rw [mapEntries, ih]
    rfl

theorem metadataContent_name {entry : TypedField} {c : MetadataContent}
    (h : metadataContent entry = some c) : c.name = entry.name := by
  obtain ⟨tagged, -, h⟩ := Option.bind_eq_some_iff.mp h
  obtain ⟨content, -, h⟩ := Option.bind_eq_some_iff.mp h
  obtain rfl := Option.some.inj h
  rfl

theorem metadata_madeOf {input : Value} {m : Manifest} (h : encodeMetadataManifest input = .ok m) :
    MadeOf requireAncillaryEntry argumentName metadataContent (fun c => asciiKey c.name)
      EncodesMetadata input m := by
  obtain ⟨given, hgiven, h⟩ := bind_ok h
  obtain ⟨typed, htyped, h⟩ := bind_ok h
  obtain ⟨sorted, hsorted, h⟩ := bind_ok h
  obtain ⟨canonical, hcanonical, h⟩ := bind_ok h
  obtain ⟨version, hversion, h⟩ := bind_ok h
  obtain rfl := Except.ok.inj h
  obtain ⟨⟨⟩, hcheck, hcanonical⟩ := bind_ok hcanonical
  obtain ⟨count, hcount, hcanonical⟩ := bind_ok hcanonical
  obtain ⟨encoded, hencoded, hcanonical⟩ := bind_ok hcanonical
  obtain rfl := Except.ok.inj hcanonical
  obtain rfl := entriesInInputOrder_ok hgiven
  obtain ⟨hnodup, hmachine⟩ := checkNames_ok hcheck
  have hone : version = beBytes 4 1 := (count_ok (n := 1) (by exact_mod_cast hversion)).2
  have hnames := mapEntries_names sorted
  refine ⟨typed, count ++ encoded.flatten, mapEntries_ok htyped, ?_, ?_, ?_⟩
  · rw [hone]
  · apply described _ _ hsorted hnames hnodup hmachine hcount hencoded
    · intro entry x hx
      exact encodeTypedField_ok hx
    · intro entry c hc
      rw [metadataContent_name hc]
      rfl
  · exact names_nodup hsorted hnames hnodup

def evidenceEntry (entry : Value) : Option (List Content) :=
  (fieldsToRecord entry evidenceSchema).toOption.bind evidenceContent

def artifactId (entry : Value) : Option JsString :=
  (fieldsToRecord entry evidenceSchema).toOption.bind fun values => (artifactName values).toOption

def metadataEntry (entry : Value) : Option MetadataContent :=
  (requireAncillaryEntry entry).toOption.bind metadataContent

def ancillaryName (entry : Value) : Option JsString :=
  (requireAncillaryEntry entry).toOption.bind fun typed => (argumentName typed).toOption

/-- Manifests ignore the order in which their entries are given, and nothing that the entries say. -/
theorem manifests_ignore_order :
    DeterminedBy encodeEvidenceManifest evidenceEntry artifactId ∧
      DeterminedBy encodeMetadataManifest metadataEntry ancillaryName :=
  ⟨determined (encodesFields_cut evidenceSchema) (encodesFields_functional evidenceSchema)
      evidence_madeOf,
    determined encodesMetadata_cut encodesMetadata_functional metadata_madeOf⟩

end Results

section Sample

def typedField (name type : String) (value : Value) : Value :=
  literal [("name", .string (js name)), ("type", .string (js type)), ("value", value)]

def sampleEntry (byteLength : Value) : Value :=
  .array [typedField "artifact_id" "String" (.string (js "report")),
    typedField "artifact_kind" "u8" (.number 1),
    typedField "content_sha256" "Bytes32" (.string (List.replicate 64 0x61)),
    typedField "byte_length" "u64" byteLength,
    typedField "media_type" "String" (.string (js "text/plain")),
    typedField "provenance_class" "u8" (.number 1),
    typedField "captured_at_unix_seconds" "u64" (.number 1782907200)]

def sampleManifest (entries : List Value) : Value :=
  literal [("version", literal [("value", .string (js "1"))]),
    ("entries_in_input_order", .array entries)]

theorem spelled_twice :
    encodeEvidenceManifest (sampleManifest [sampleEntry (.number 5)]) =
        encodeEvidenceManifest (sampleManifest [sampleEntry (.string (js "5"))]) ∧
      (encodeEvidenceManifest (sampleManifest [sampleEntry (.number 5)])).isOk = true := by
  decide +kernel

/-- The bytes do not tell a number from its decimal text. -/
theorem spelling_ignored :
    ¬ ∀ input other m m', encodeEvidenceManifest input = .ok m →
      encodeEvidenceManifest other = .ok m' →
        (m.canonical = m'.canonical ↔ ∀ v, v ∈ rawEntries input ↔ v ∈ rawEntries other) := by
  intro hall
  obtain ⟨hsame, haccepted⟩ := spelled_twice
  cases hrun : encodeEvidenceManifest (sampleManifest [sampleEntry (.number 5)]) with
  | error e =>
    rw [hrun] at haccepted
    cases haccepted
  | ok m =>
    have hentries := (hall _ _ m m hrun (hsame ▸ hrun)).mp rfl
    have hin : sampleEntry (.number 5) ∈ [sampleEntry (.string (js "5"))] :=
      (hentries (sampleEntry (.number 5))).mp (List.mem_singleton_self _)
    have heq := List.mem_singleton.mp hin
    simp [sampleEntry, typedField, literal] at heq

end Sample
end Concordia.Verify.Manifests
