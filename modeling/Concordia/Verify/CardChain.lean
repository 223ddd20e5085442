import Concordia.Contract.Injectivity
import Concordia.Js.Utf8
import Concordia.Lib.HashChain
import Concordia.Verify.CasperState

/-! The card-chain adapter: the texts of a proposal's cards, hashed and linked again. URLs, dates and
the digest are parameters. -/
namespace Concordia.Verify.CardChain
open Concordia.Js Concordia.Lib.HashChain
open Concordia.Contract (except_bind_ok exists_unit)

structure UtcDate where
  year : Nat
  month : Nat
  day : Nat
  hour : Nat
  minute : Nat
  second : Nat
  deriving DecidableEq

structure Runtime where
  sha256 : List UInt8 → Contract.Bytes32
  parseUrl : JsString → Option CasperState.Url
  /-- The UTC fields of `new Date(Date.parse(s))`. -/
  utcDate : JsString → Option UtcDate

inductive Thrown where
  | error (message : JsString)
  | strictJson (error : StrictJsonError)

abbrev Checked := Except Thrown

/-- `if (!condition) throw new Error(message)`. -/
def check (condition : Bool) (message : JsString) : Checked Unit :=
  if condition then .ok () else .error (.error message)

def schemaVersion : String := "concordia.card_chain.v1"

def topLevelFields : List String :=
  ["schema_version", "proposal_id", "captured_at", "source_url", "cards"]

def cardFields : List String :=
  ["sequence_number", "card_type", "card_hash", "canonical_card_json", "published_at"]

def maxCards : Nat := 256
def maxCardJsonBytes : Nat := 1024 * 1024
def maxTotalCardJsonBytes : Nat := 8 * 1024 * 1024

section Patterns

def isAlnum (u : UInt16) : Bool := (65 ≤ u && u ≤ 90) || (97 ≤ u && u ≤ 122) || isDigit u

/-- `PROPOSAL_ID`. -/
def isChainProposalId : JsString → Bool
  | [] => false
  | u :: rest => isAlnum u && rest.length ≤ 127 &&
    rest.all fun v => isAlnum v || v == 0x2e || v == 0x5f || v == 0x3a || v == 0x2d

/-- `/(?:\.\d{1,9})?Z$/`, or with another ending. -/
def isFractionBefore (ending rest : JsString) : Bool :=
  rest == ending || (rest.head? == some 0x2e &&
    let digits := rest.tail.takeWhile isDigit
    1 ≤ digits.length && digits.length ≤ 9 && rest.tail.dropWhile isDigit == ending)

/-- `CAPTURED_AT` with the ending `Z`, `PUBLISHED_AT` with two endings. -/
def isTimestamp (endings : List JsString) (s : JsString) : Bool :=
  let field (start width : Nat) : JsString := (s.drop start).take width
  let isField (start width : Nat) : Bool :=
    (field start width).length == width && (field start width).all isDigit
  isField 0 4 && field 4 1 == [0x2d] && isField 5 2 && field 7 1 == [0x2d] && isField 8 2 &&
    field 10 1 == [0x54] && isField 11 2 && field 13 1 == [0x3a] && isField 14 2 &&
    field 16 1 == [0x3a] && isField 17 2 && endings.any fun ending => isFractionBefore ending (s.drop 19)

def capturedEndings : List JsString := [js "Z"]
def publishedEndings : List JsString := [js "Z", js "+00:00"]

end Patterns

section Adapter
variable (rt : Runtime)

def isRfc3339Utc (value : Value) (endings : List JsString) : Bool :=
  match value with
  | .string s =>
    let field (start width : Nat) : Nat := digitsValue ((s.drop start).take width)
    isTimestamp endings s && s.take 4 != js "0000" &&
      rt.utcDate s == some ⟨field 0 4, field 5 2, field 8 2, field 11 2, field 14 2, field 17 2⟩
  | _ => false

def requireExactRecord (value : Value) (expectedFields : List String) (label : String) :
    Checked Fields :=
  match value with
  | .object fields => do
    let missingFields := expectedFields.filter fun field => !hasOwn fields field
    check missingFields.isEmpty
      (js label ++ js " is missing fields: " ++ joined (sorted (missingFields.map js)) ",")
    let unknownFields := (keys fields).filter fun field => !includes expectedFields field
    check unknownFields.isEmpty
      (js label ++ js " has unknown fields: " ++ joined (sorted unknownFields) ",")
    return fields
  | _ => .error (.error (js label ++ js " must be an object"))

def sourcePath (proposalId : JsString) : JsString :=
  js "/proof-artifacts/v1/" ++ proposalId ++ js "/card-chain"

def requireSourceUrl (value : Value) (proposalId : JsString) (label : String) : Checked JsString :=
  match value with
  | .string s =>
    if 2048 < (utf8 s).length then .error (.error (js label ++ js " must be an HTTPS URL"))
    else
      match rt.parseUrl s with
      | none => .error (.error (js label ++ js " must be an HTTPS URL"))
      | some url => do
        check (url.protocol == js "https:" && !url.hostname.isEmpty && url.username.isEmpty &&
            url.password.isEmpty && url.hash.isEmpty && url.search.isEmpty &&
            url.pathname == sourcePath proposalId)
          (js label ++ js " must be an HTTPS URL without credentials or fragment")
        return url.href
  | _ => .error (.error (js label ++ js " must be an HTTPS URL"))

/-- `typeof value === "string" && test(value)`, as the string. -/
def requireString (value : Value) (test : JsString → Bool) (message : JsString) : Checked JsString :=
  match value with
  | .string s => if test s then .ok s else .error (.error message)
  | _ => .error (.error message)

/-- `Number.isSafeInteger(value) && value === n`. -/
def isSequence (value : Value) (n : Nat) : Bool :=
  match value with
  | .number x => (safeInteger x).isSome && x == n
  | _ => false

/-- `null`, or the hash of the card before. -/
def linkValue : Option JsString → Value
  | none => .null
  | some hash => .string hash

def parsePreimage (text : JsString) (label : String) : Checked Fields :=
  match parseJsonStrict text with
  | .ok (.object parsed) => .ok parsed
  | .ok _ => .error (.error (js label ++ js " canonical_card_json must decode to an object"))
  | .error e => .error (.strictJson e)

/-- What a decoded card says of its place in the chain. -/
def checkPreimage (proposalId cardType : JsString) (sequence : Nat) (previousHash : Option JsString)
    (parsed : Fields) (label : String) : Checked Unit := do
  check (!hasOwn parsed "card_hash") (js label ++ js " canonical preimage must exclude card_hash")
  check (strictEq (prop parsed "sequence_number") (.number sequence))
    (js label ++ js " wrapper/preimage sequence_number mismatch")
  check (strictEq (prop parsed "card_type") (.string cardType))
    (js label ++ js " wrapper/preimage card_type mismatch")
  check (hasOwn parsed "previous_card_hash" &&
      strictEq (prop parsed "previous_card_hash") (linkValue previousHash))
    (js label ++ js " previous_card_hash breaks chain linkage")
  if sequence = 1 then
    check (strictEq (prop parsed "signal_id") (.string proposalId))
      (js "card-chain ProposalCard signal_id differs from artifact proposal_id")
  else do
    check (!isLiteral (prop parsed "card_type") "ProposalCard")
      (js label ++ js " cannot repeat ProposalCard")
    check (strictEq (prop parsed "proposal_id") (.string proposalId))
      (js label ++ js " proposal_id differs from artifact proposal_id")

/-- One round of the loop: the hash of the card, and the bytes so far with its own. -/
def verifyCard (proposalId : JsString) (sequence : Nat) (previousHash : Option JsString)
    (totalPreimageBytes : Nat) (value : Value) : Checked (JsString × Nat) := do
  let label := s!"card-chain card {sequence}"
  let card ← requireExactRecord value cardFields label
  check (isSequence (prop card "sequence_number") sequence)
    (js label ++ js " sequence_number must equal " ++ decimal sequence)
  let cardType ← requireString (prop card "card_type") (fun s => !s.isEmpty)
    (js label ++ js " card_type is invalid")
  let cardHash ← requireString (prop card "card_hash") (isHexOf 64)
    (js label ++ js " card_hash must be lowercase hex32")
  let text ← requireString (prop card "canonical_card_json") (fun _ => true)
    (js label ++ js " canonical_card_json must be a string")
  let preimage := utf8 text
  check (preimage.length ≤ maxCardJsonBytes)
    (js label ++ js " canonical_card_json exceeds its size limit")
  check (totalPreimageBytes + preimage.length ≤ maxTotalCardJsonBytes)
    (js "card-chain canonical_card_json aggregate exceeds its size limit")
  check (fromHex cardHash == some (rt.sha256 preimage).toList)
    (js label ++ js " hash does not match exact UTF-8 preimage")
  check (isNull (prop card "published_at") ||
      isRfc3339Utc rt (prop card "published_at") publishedEndings)
    (js label ++ js " published_at must be null or RFC3339 UTC")
  let parsed ← parsePreimage text label
  checkPreimage proposalId cardType sequence previousHash parsed label
  return (cardHash, totalPreimageBytes + preimage.length)

/-- The loop over the cards, from `index` on. -/
def verifyCards (proposalId : JsString) (index : Nat) (previousHash : Option JsString)
    (totalPreimageBytes : Nat) : List Value → Checked (List JsString)
  | [] => return []
  | value :: rest => do
    let (cardHash, bytes) ←
      verifyCard rt proposalId (index + 1) previousHash totalPreimageBytes value
    return cardHash :: (← verifyCards proposalId (index + 1) (some cardHash) bytes rest)

structure CardChainFacts where
  schemaVersion : JsString
  proposalId : JsString
  capturedAt : Value
  sourceUrl : JsString
  cardCount : Nat
  firstCardHash : JsString
  finalCardHash : JsString
  cardHashes : List JsString

def requireCards (value : Value) : Checked (List Value) :=
  match value with
  | .array (first :: rest) => do
    check ((first :: rest).length ≤ maxCards) (js "card-chain cards exceeds the 256-card limit")
    match first with
    | .object card => do
      check (isLiteral (prop card "card_type") "ProposalCard")
        (js "card-chain first card must be ProposalCard")
      return first :: rest
    | _ => .error (.error (js "card-chain first card must be ProposalCard"))
  | _ => .error (.error (js "card-chain cards must be a non-empty array"))

/-- The terminal hash, where the caller expects one. -/
def checkFinal (finalCardHash : JsString) : Option JsString → Checked Unit
  | none => .ok ()
  | some expected => do
    check (isHexOf 64 expected) (js "expected terminal final_card_hash must be lowercase hex32")
    check (fromHex finalCardHash == fromHex expected)
      (js "card-chain terminal hash differs from expected historical final_card_hash")

def verifyCardChainArtifact (input : Value) (expectedFinalCardHash : Option JsString) :
    Checked CardChainFacts := do
  let artifact ← requireExactRecord input topLevelFields "card-chain artifact"
  check (isLiteral (prop artifact "schema_version") schemaVersion)
    (js "card-chain schema_version must equal " ++ js schemaVersion)
  let proposalId ← requireString (prop artifact "proposal_id") isChainProposalId
    (js "card-chain proposal_id is not canonical")
  check (isRfc3339Utc rt (prop artifact "captured_at") capturedEndings)
    (js "card-chain captured_at must be a valid RFC3339 UTC timestamp")
  let sourceUrl ← requireSourceUrl rt (prop artifact "source_url") proposalId "card-chain source_url"
  let cards ← requireCards (prop artifact "cards")
  let cardHashes ← verifyCards rt proposalId 0 none 0 cards
  let finalCardHash := cardHashes.getLast?.getD []
  checkFinal finalCardHash expectedFinalCardHash
  return {
    schemaVersion := js schemaVersion
    proposalId := proposalId
    capturedAt := prop artifact "captured_at"
    sourceUrl := sourceUrl
    cardCount := cardHashes.length
    firstCardHash := cardHashes.head?.getD []
    finalCardHash := finalCardHash
    cardHashes := cardHashes }

end Adapter

section Checks

@[simp] theorem check_ok {condition : Bool} {message : JsString} :
    check condition message = .ok () ↔ condition = true := by
  cases condition with
  | false => simp [check]
  | true => simp [check]

@[simp] theorem check_bind_ok {α : Type} {condition : Bool} {message : JsString} {f : Unit → Checked α}
    {a : α} : (check condition message >>= f) = .ok a ↔ condition = true ∧ f () = .ok a := by
  rw [except_bind_ok, exists_unit, check_ok]

/-- The fields of a record are the expected ones. -/
def Exact (expectedFields : List String) (fields : Fields) : Prop :=
  (∀ field ∈ expectedFields, hasOwn fields field = true) ∧
    ∀ key ∈ keys fields, includes expectedFields key = true

theorem exact_of_keys {fields : Fields} {expectedFields : List String}
    (h : keys fields = expectedFields.map js) : Exact expectedFields fields := by
  constructor
  · intro field hfield
    have hmem : js field ∈ keys fields := by
      rw [h]
      exact List.mem_map_of_mem hfield
    obtain ⟨entry, hentry, hkey⟩ := List.mem_map.mp hmem
    rw [hasOwn, List.lookup_isSome_iff]
    exact ⟨entry, hentry, beq_iff_eq.mpr hkey.symm⟩
  · intro key hkey
    rw [h] at hkey
    obtain ⟨field, hfield, rfl⟩ := List.mem_map.mp hkey
    exact List.any_eq_true.mpr ⟨field, hfield, beq_self_eq_true _⟩

theorem requireExactRecord_ok {value : Value} {expectedFields : List String} {label : String}
    {fields : Fields} : requireExactRecord value expectedFields label = .ok fields ↔
      value = .object fields ∧ Exact expectedFields fields := by
  cases value with
  | object own =>
    simp only [requireExactRecord, check_bind_ok, List.isEmpty_iff, List.filter_eq_nil_iff, Exact,
      Bool.not_eq_true', Bool.not_eq_false, pure, Except.pure, Except.ok.injEq, Value.object.injEq]
    constructor
    · rintro ⟨hmissing, hunknown, rfl⟩
      exact ⟨rfl, hmissing, hunknown⟩
    · rintro ⟨rfl, hmissing, hunknown⟩
      exact ⟨hmissing, hunknown, rfl⟩
  | _ => simp [requireExactRecord]

theorem requireString_ok {value : Value} {test : JsString → Bool} {message s : JsString} :
    requireString value test message = .ok s ↔ value = .string s ∧ test s = true := by
  cases value with
  | string text =>
    simp only [requireString, Value.string.injEq]
    split_ifs with htest
    · constructor
      · intro h
        rw [← Except.ok.inj h]
        exact ⟨rfl, htest⟩
      · rintro ⟨rfl, -⟩
        rfl
    · constructor
      · intro h
        cases h
      · rintro ⟨rfl, h⟩
        exact absurd h htest
  | _ => simp [requireString]

theorem parsePreimage_ok {text : JsString} {label : String} {parsed : Fields} :
    parsePreimage text label = .ok parsed ↔ parseJsonStrict text = .ok (.object parsed) := by
  unfold parsePreimage
  cases h : parseJsonStrict text with
  | error e => simp
  | ok v =>
    cases v with
    | object fields => simp
    | _ => simp

theorem strictEq_numeral {value : Value} {n : Nat} :
    strictEq value (.number n) = true ↔ value = .number n := by
  cases value with
  | number x => simp [strictEq]
  | _ => simp [strictEq]

theorem strictEq_text {value : Value} {s : JsString} :
    strictEq value (.string s) = true ↔ value = .string s := by
  cases value with
  | string t => simp [strictEq]
  | _ => simp [strictEq]

theorem strictEq_link {value : Value} {previousHash : Option JsString} :
    strictEq value (linkValue previousHash) = true ↔ value = linkValue previousHash := by
  cases previousHash with
  | some hash => exact strictEq_text
  | none =>
    cases value with
    | null => simp [strictEq, linkValue]
    | _ => simp [strictEq, linkValue]

end Checks

section Chain

/-- A card of the chain: its hash, the text that is hashed, and what the text says. -/
structure Entry where
  cardHash : JsString
  text : JsString
  parsed : Fields

/-- What the decoded text says of its place. -/
structure Placed (proposalId : JsString) (n : Nat) (prev : Option JsString) (parsed : Fields) :
    Prop where
  unhashed : hasOwn parsed "card_hash" = false
  numbered : prop parsed "sequence_number" = .number n
  linked : hasOwn parsed "previous_card_hash" = true ∧
    prop parsed "previous_card_hash" = linkValue prev
  identified : if n = 1 then prop parsed "signal_id" = .string proposalId
    else prop parsed "card_type" ≠ .string (js "ProposalCard") ∧
      prop parsed "proposal_id" = .string proposalId

variable (rt : Runtime)

/-- The entry at a position of the chain, behind the hash `prev`. -/
structure Fits (proposalId : JsString) (i : Nat) (prev : Option JsString) (e : Entry) : Prop where
  digest : fromHex e.cardHash = some (rt.sha256 (utf8 e.text)).toList
  decoded : parseJsonStrict e.text = .ok (.object e.parsed)
  placed : Placed proposalId (i + 1) prev e.parsed

/-- The record of the artifact around an entry. -/
structure Carries (n : Nat) (card : Fields) (cardType : JsString) (e : Entry) : Prop where
  exact : Exact cardFields card
  numbered : isSequence (prop card "sequence_number") n = true
  typed : prop card "card_type" = .string cardType
  named : (!cardType.isEmpty) = true
  hashed : prop card "card_hash" = .string e.cardHash
  hexadecimal : isHexOf 64 e.cardHash = true
  carried : prop card "canonical_card_json" = .string e.text
  small : (utf8 e.text).length ≤ maxCardJsonBytes
  published : (isNull (prop card "published_at") ||
    isRfc3339Utc rt (prop card "published_at") publishedEndings) = true
  agrees : prop e.parsed "card_type" = .string cardType

variable {rt}

theorem checkPreimage_ok {proposalId cardType : JsString} {n : Nat} {prev : Option JsString}
    {parsed : Fields} {label : String} : checkPreimage proposalId cardType n prev parsed label = .ok () ↔
      Placed proposalId n prev parsed ∧ prop parsed "card_type" = .string cardType := by
  simp only [checkPreimage, check_bind_ok, strictEq_numeral, strictEq_text, strictEq_link,
    Bool.and_eq_true, Bool.not_eq_true']
  constructor
  · rintro ⟨hunhashed, hnumbered, htyped, hlinked, hrest⟩
    refine ⟨⟨hunhashed, hnumbered, hlinked, ?_⟩, htyped⟩
    split_ifs at hrest ⊢ with hfirst
    · simpa [strictEq_text] using hrest
    · simpa [isLiteral, strictEq_text, Bool.eq_false_iff] using hrest
  · rintro ⟨⟨hunhashed, hnumbered, hlinked, hidentified⟩, htyped⟩
    refine ⟨hunhashed, hnumbered, htyped, hlinked, ?_⟩
    split_ifs at hidentified ⊢ with hfirst
    · simpa [strictEq_text] using hidentified
    · simpa [isLiteral, strictEq_text, Bool.eq_false_iff] using hidentified

/-- What one round accepts. -/
theorem verifyCard_ok {proposalId : JsString} {i bytes : Nat} {prev : Option JsString} {value : Value}
    {r : JsString × Nat} : verifyCard rt proposalId (i + 1) prev bytes value = .ok r ↔
      ∃ card cardType e, value = .object card ∧ Carries rt (i + 1) card cardType e ∧
        Fits rt proposalId i prev e ∧ bytes + (utf8 e.text).length ≤ maxTotalCardJsonBytes ∧
          r = (e.cardHash, bytes + (utf8 e.text).length) := by
  simp only [verifyCard, except_bind_ok, check_ok, exists_unit, requireExactRecord_ok, requireString_ok,
    parsePreimage_ok, checkPreimage_ok, decide_eq_true_eq, beq_iff_eq, pure, Except.pure,
    Except.ok.injEq]
  constructor
  · rintro ⟨card, ⟨hvalue, hexact⟩, hnumbered, cardType, ⟨htyped, hnamed⟩, cardHash, ⟨hhashed, hhex⟩,
      text, ⟨hcarried, -⟩, hsmall, htotal, hdigest, hpublished, parsed, hdecoded, ⟨hplaced, hagrees⟩, rfl⟩
    exact ⟨card, cardType, ⟨cardHash, text, parsed⟩, hvalue, ⟨hexact, hnumbered, htyped, hnamed,
      hhashed, hhex, hcarried, hsmall, hpublished, hagrees⟩, ⟨hdigest, hdecoded, hplaced⟩, htotal, rfl⟩
  · rintro ⟨card, cardType, ⟨cardHash, text, parsed⟩, hvalue, ⟨hexact, hnumbered, htyped, hnamed,
      hhashed, hhex, hcarried, hsmall, hpublished, hagrees⟩, ⟨hdigest, hdecoded, hplaced⟩, htotal, rfl⟩
    exact ⟨card, ⟨hvalue, hexact⟩, hnumbered, cardType, ⟨htyped, hnamed⟩, cardHash, ⟨hhashed, hhex⟩,
      text, ⟨hcarried, trivial⟩, hsmall, htotal, hdigest, hpublished, parsed, hdecoded,
      ⟨hplaced, hagrees⟩, rfl⟩

/-- The records of an artifact carry the entries one by one. -/
def Carried (rt : Runtime) : Nat → List Value → List Entry → Prop
  | _, [], [] => True
  | i, value :: values, e :: es =>
    (∃ card cardType, value = .object card ∧ Carries rt (i + 1) card cardType e) ∧
      Carried rt (i + 1) values es
  | _, _, _ => False

def Entry.size (e : Entry) : Nat := (utf8 e.text).length

/-- What the loop accepts: a chain that fits behind `prev`. -/
theorem verifyCards_ok {proposalId : JsString} {i bytes : Nat} {prev : Option JsString}
    {values : List Value} {hashes : List JsString} (hbytes : bytes ≤ maxTotalCardJsonBytes) :
    verifyCards rt proposalId i prev bytes values = .ok hashes ↔
      ∃ es, Carried rt i values es ∧ Linked Entry.cardHash (Fits rt proposalId) i prev es ∧
        bytes + (es.map Entry.size).sum ≤ maxTotalCardJsonBytes ∧ hashes = es.map Entry.cardHash := by
  induction values generalizing i bytes prev hashes with
  | nil =>
    constructor
    · intro h
      cases h
      exact ⟨[], trivial, trivial, by simpa using hbytes, rfl⟩
    · rintro ⟨es, hcarried, -, -, rfl⟩
      cases es with
      | nil => rfl
      | cons e es => exact hcarried.elim
  | cons value values ih =>
    simp only [verifyCards, except_bind_ok, pure, Except.pure, Except.ok.injEq]
    constructor
    · rintro ⟨r, hcard, rest, hrest, rfl⟩
      obtain ⟨card, cardType, e, hvalue, hcarries, hfits, htotal, rfl⟩ := verifyCard_ok.mp hcard
      obtain ⟨es, hcarried, hlinked, hsum, rfl⟩ := (ih htotal).mp hrest
      refine ⟨e :: es, ⟨⟨card, cardType, hvalue, hcarries⟩, hcarried⟩, ⟨hfits, hlinked⟩, ?_, rfl⟩
      rw [List.map_cons, List.sum_cons, ← Nat.add_assoc]
      exact hsum
    · rintro ⟨es, hcarried, hlinked, hsum, rfl⟩
      cases es with
      | nil => exact hcarried.elim
      | cons e es =>
        obtain ⟨⟨card, cardType, hvalue, hcarries⟩, hcarried⟩ := hcarried
        obtain ⟨hfits, hlinked⟩ := hlinked
        rw [List.map_cons, List.sum_cons, ← Nat.add_assoc] at hsum
        have htotal : bytes + e.size ≤ maxTotalCardJsonBytes := le_trans (Nat.le_add_right _ _) hsum
        exact ⟨_, verifyCard_ok.mpr ⟨card, cardType, e, hvalue, hcarries, hfits, htotal, rfl⟩, _,
          (ih htotal).mpr ⟨es, hcarried, hlinked, hsum, rfl⟩, rfl⟩

theorem requireCards_ok {value : Value} {values : List Value} : requireCards value = .ok values ↔
    value = .array values ∧ values.length ≤ maxCards ∧ ∃ card rest, values = .object card :: rest ∧
      isLiteral (prop card "card_type") "ProposalCard" = true := by
  cases value with
  | array listed =>
    cases listed with
    | nil =>
      constructor
      · intro h
        cases h
      · rintro ⟨hlist, -, card, rest, rfl, -⟩
        cases hlist
    | cons first rest =>
      cases first with
      | object card =>
        simp only [requireCards, check_bind_ok, decide_eq_true_eq, pure, Except.pure, Except.ok.injEq,
          Value.array.injEq]
        constructor
        · rintro ⟨hlength, htyped, rfl⟩
          exact ⟨rfl, hlength, card, rest, rfl, htyped⟩
        · rintro ⟨rfl, hlength, other, others, hsame, htyped⟩
          obtain ⟨hcard, rfl⟩ := List.cons.inj hsame
          obtain rfl := Value.object.inj hcard
          exact ⟨hlength, htyped, rfl⟩
      | _ =>
        constructor
        · intro h
          simp [requireCards] at h
        · rintro ⟨hlist, -, card, others, rfl, -⟩
          cases hlist
  | _ =>
    constructor
    · intro h
      cases h
    · rintro ⟨hlist, -⟩
      cases hlist

/-- What an artifact says around its cards. -/
structure Envelope (rt : Runtime) (artifact : Fields) (proposalId sourceUrl : JsString)
    (values : List Value) : Prop where
  exact : Exact topLevelFields artifact
  versioned : isLiteral (prop artifact "schema_version") schemaVersion = true
  named : prop artifact "proposal_id" = .string proposalId
  canonical : isChainProposalId proposalId = true
  captured : isRfc3339Utc rt (prop artifact "captured_at") capturedEndings = true
  located : requireSourceUrl rt (prop artifact "source_url") proposalId "card-chain source_url" =
    .ok sourceUrl
  listed : requireCards (prop artifact "cards") = .ok values

/-- The facts about an accepted chain. -/
def factsOf (artifact : Fields) (proposalId sourceUrl : JsString) (es : List Entry) : CardChainFacts where
  schemaVersion := js schemaVersion
  proposalId := proposalId
  capturedAt := prop artifact "captured_at"
  sourceUrl := sourceUrl
  cardCount := es.length
  firstCardHash := (es.map Entry.cardHash).head?.getD []
  finalCardHash := (es.map Entry.cardHash).getLast?.getD []
  cardHashes := es.map Entry.cardHash

/-- What the adapter accepts: the entries of the artifact are one chain from its start. -/
theorem verifyCardChainArtifact_ok {input : Value} {expected : Option JsString}
    {facts : CardChainFacts} : verifyCardChainArtifact rt input expected = .ok facts ↔
      ∃ artifact proposalId sourceUrl values es, input = .object artifact ∧
        Envelope rt artifact proposalId sourceUrl values ∧ Carried rt 0 values es ∧
          Linked Entry.cardHash (Fits rt proposalId) 0 none es ∧
            (es.map Entry.size).sum ≤ maxTotalCardJsonBytes ∧
              checkFinal ((es.map Entry.cardHash).getLast?.getD []) expected = .ok () ∧
                facts = factsOf artifact proposalId sourceUrl es := by
  simp only [verifyCardChainArtifact, except_bind_ok, check_ok, exists_unit, requireExactRecord_ok,
    requireString_ok, verifyCards_ok (Nat.zero_le _), Nat.zero_add, pure, Except.pure, Except.ok.injEq]
  constructor
  · rintro ⟨artifact, ⟨hinput, hexact⟩, hversion, proposalId, ⟨hnamed, hcanonical⟩, hcaptured,
      sourceUrl, hlocated, values, hlisted, hashes, ⟨es, hcarried, hlinked, hsum, rfl⟩, hfinal, rfl⟩
    refine ⟨artifact, proposalId, sourceUrl, values, es, hinput, ⟨hexact, hversion, hnamed, hcanonical,
      hcaptured, hlocated, hlisted⟩, hcarried, hlinked, hsum, hfinal, ?_⟩
    rw [factsOf, List.length_map]
  · rintro ⟨artifact, proposalId, sourceUrl, values, es, hinput, ⟨hexact, hversion, hnamed, hcanonical,
      hcaptured, hlocated, hlisted⟩, hcarried, hlinked, hsum, hfinal, rfl⟩
    refine ⟨artifact, ⟨hinput, hexact⟩, hversion, proposalId, ⟨hnamed, hcanonical⟩, hcaptured,
      sourceUrl, hlocated, values, hlisted, _, ⟨es, hcarried, hlinked, hsum, rfl⟩, hfinal, ?_⟩
    rw [factsOf, List.length_map]

/-- The texts of the cards that an artifact carries. -/
def cardText (value : Value) : JsString :=
  match value with
  | .object card =>
    match prop card "canonical_card_json" with
    | .string text => text
    | _ => []
  | _ => []

def cardTexts (input : Value) : List JsString :=
  match input with
  | .object artifact =>
    match prop artifact "cards" with
    | .array values => values.map cardText
    | _ => []
  | _ => []

theorem Carried.texts {i : Nat} {values : List Value} {es : List Entry} (h : Carried rt i values es) :
    values.map cardText = es.map Entry.text := by
  induction values generalizing i es with
  | nil =>
    cases es with
    | nil => rfl
    | cons e es => exact h.elim
  | cons value values ih =>
    cases es with
    | nil => exact h.elim
    | cons e es =>
      obtain ⟨⟨card, cardType, rfl, hcarries⟩, hrest⟩ := h
      rw [List.map_cons, List.map_cons, ih hrest]
      simp only [cardText, hcarries.carried]

/-- An entry fits at one place of a chain only. -/
theorem Fits.place {p q : JsString} {i j : Nat} {prev prev' : Option JsString} {e : Entry}
    (h : Fits rt p i prev e) (h' : Fits rt q j prev' e) : prev = prev' := by
  have hlink := h.placed.linked.2.symm.trans h'.placed.linked.2
  cases prev with
  | none =>
    cases prev' with
    | none => rfl
    | some hash => cases hlink
  | some hash =>
    cases prev' with
    | none => cases hlink
    | some hash' => rw [Value.string.inj hlink]

/-- Texts of the one list and of the other with one digest are one text. -/
def NoCollision (rt : Runtime) (texts others : List JsString) : Prop :=
  ∀ text ∈ texts, ∀ other ∈ others, rt.sha256 (utf8 text) = rt.sha256 (utf8 other) → text = other

/-- The text of an entry fixes it, and its hash fixes the text. -/
theorem Fits.eq_of_cardHash {p q : JsString} {i j : Nat} {prev prev' : Option JsString} {e e' : Entry}
    (h : Fits rt p i prev e) (h' : Fits rt q j prev' e') (hhash : e.cardHash = e'.cardHash)
    (hcollision : rt.sha256 (utf8 e.text) = rt.sha256 (utf8 e'.text) → e.text = e'.text) : e = e' := by
  obtain ⟨cardHash, text, parsed⟩ := e
  obtain ⟨cardHash', text', parsed'⟩ := e'
  have hdigest := h.digest.symm.trans ((congrArg fromHex hhash).trans h'.digest)
  have htext : text = text' := hcollision (Vector.toList_inj.mp (Option.some.inj hdigest))
  have hparsed : parsed = parsed' := by
    have hdecoded := h.decoded.symm.trans ((congrArg parseJsonStrict htext).trans h'.decoded)
    exact Value.object.inj (Except.ok.inj hdecoded)
  have hsame : cardHash = cardHash' := hhash
  rw [hsame, htext, hparsed]

/-- The first entry names the proposal. -/
theorem first_proposal {p q : JsString} {e : Entry} {es : List Entry}
    (h : Linked Entry.cardHash (Fits rt p) 0 none (e :: es))
    (h' : Linked Entry.cardHash (Fits rt q) 0 none (e :: es)) : p = q := by
  have hp := h.1.placed.identified
  have hq := h'.1.placed.identified
  rw [if_pos rfl] at hp hq
  exact Value.string.inj (hp.symm.trans hq)

theorem lastHash_final {es : List Entry} (h : es ≠ []) : lastHash Entry.cardHash none es =
    some ((es.map Entry.cardHash).getLast?.getD []) := by
  rw [lastHash, List.getLast?_map, List.getLast?_eq_some_getLast h]
  rfl

/-- The terminal hash of an accepted chain fixes all of its cards, and the proposal. -/
theorem terminal_hash_binds {input other : Value} {expected expected' : Option JsString}
    {facts facts' : CardChainFacts} (h : verifyCardChainArtifact rt input expected = .ok facts)
    (h' : verifyCardChainArtifact rt other expected' = .ok facts')
    (hcollision : NoCollision rt (cardTexts input) (cardTexts other))
    (hfinal : facts.finalCardHash = facts'.finalCardHash) :
    cardTexts input = cardTexts other ∧ facts.cardHashes = facts'.cardHashes ∧
      facts.proposalId = facts'.proposalId := by
  obtain ⟨artifact, p, url, values, es, rfl, henvelope, hcarried, hlinked, -, -, rfl⟩ :=
    verifyCardChainArtifact_ok.mp h
  obtain ⟨artifact', q, url', values', es', rfl, henvelope', hcarried', hlinked', -, -, rfl⟩ :=
    verifyCardChainArtifact_ok.mp h'
  obtain ⟨hlisted, -, card, rest, rfl, -⟩ := requireCards_ok.mp henvelope.listed
  obtain ⟨hlisted', -, card', rest', rfl, -⟩ := requireCards_ok.mp henvelope'.listed
  have htexts : cardTexts (.object artifact) = es.map Entry.text := by
    rw [cardTexts, hlisted]
    exact hcarried.texts
  have htexts' : cardTexts (.object artifact') = es'.map Entry.text := by
    rw [cardTexts, hlisted']
    exact hcarried'.texts
  rw [htexts, htexts'] at hcollision ⊢
  have hcards : es ≠ [] := by
    rintro rfl
    exact hcarried.elim
  have hcards' : es' ≠ [] := by
    rintro rfl
    exact hcarried'.elim
  have hlast : lastHash Entry.cardHash none es = lastHash Entry.cardHash none es' := by
    rw [lastHash_final hcards, lastHash_final hcards']
    exact congrArg some hfinal
  have hes : es = es' := by
    refine hlinked.eq_of_lastHash hlinked' (fun _ _ _ _ _ => Fits.place) ?_ hlast
    intro e he e' he' hhash
    obtain ⟨i, prev, hfits⟩ := hlinked.fits_of_mem he
    obtain ⟨j, prev', hfits'⟩ := hlinked'.fits_of_mem he'
    exact hfits.eq_of_cardHash hfits' hhash
      (hcollision _ (List.mem_map_of_mem he) _ (List.mem_map_of_mem he'))
  subst hes
  refine ⟨rfl, rfl, ?_⟩
  cases es with
  | nil => exact absurd rfl hcards
  | cons e es => exact first_proposal hlinked hlinked'

end Chain

section Sample

def openingHash : JsString := js "11f35843d04362beb06fa9ce3240b88dd1d972f4ba3f67b13f3931a99b8c140e"
def closingHash : JsString := js "80a21395278ac3cb86032b04ac9aaa82e7725d8168bd974031e1abe770da8fab"

def openingText : JsString := js "\x7b\"card_type\":\"ProposalCard\",\"previous_card_hash\":null,\"sequence_number\":1,\"signal_id\":\"P1\"\x7d"

def closingText : JsString :=
  js "\x7b\"card_type\":\"TriageDecision\",\"previous_card_hash\":\"" ++ openingHash ++
    js "\",\"proposal_id\":\"P1\",\"sequence_number\":2\x7d"

def sampleUrl : JsString := js "https://c.example" ++ sourcePath (js "P1")

/-- SHA-256 of the two texts of the sample, and what its URL and its dates are. -/
def sampleRuntime : Runtime where
  sha256 bytes :=
    let digest := (fromHex (if bytes.length = 91 then openingHash else closingHash)).getD []
    Vector.ofFn fun i : Fin 32 => digest.getD i 0
  parseUrl s := some {
    href := s, origin := js "https://c.example", protocol := js "https:", username := [],
    password := [], hostname := js "c.example", port := [], pathname := sourcePath (js "P1"),
    search := [], hash := [] }
  utcDate _ := some ⟨2026, 1, 2, 3, 4, 5⟩

def sampleCard (sequence : Nat) (cardType : String) (hash text : JsString) : Value :=
  .object [(js "sequence_number", .number sequence), (js "card_type", .string (js cardType)),
    (js "card_hash", .string hash), (js "canonical_card_json", .string text),
    (js "published_at", .null)]

def sampleCards : List Value :=
  [sampleCard 1 "ProposalCard" openingHash openingText,
    sampleCard 2 "TriageDecision" closingHash closingText]

def sampleArtifact (capturedAt : String) : Fields :=
  [(js "schema_version", .string (js schemaVersion)), (js "proposal_id", .string (js "P1")),
    (js "captured_at", .string (js capturedAt)), (js "source_url", .string sampleUrl),
    (js "cards", .array sampleCards)]

theorem sample_hashed : (verifyCards sampleRuntime (js "P1") 0 none 0 sampleCards).toOption =
    some [openingHash, closingHash] := by
  decide +kernel

theorem sample_located : (requireSourceUrl sampleRuntime (.string sampleUrl) (js "P1")
    "card-chain source_url").toOption = some sampleUrl := by
  decide +kernel

theorem ok_of_toOption {α : Type} {x : Checked α} {a : α} (h : x.toOption = some a) : x = .ok a := by
  cases x with
  | error e => cases h
  | ok b => rw [Option.some.inj h]

theorem sample_accepted (capturedAt : String) (h : isRfc3339Utc sampleRuntime
    (.string (js capturedAt)) capturedEndings = true) : ∃ facts, verifyCardChainArtifact sampleRuntime
      (.object (sampleArtifact capturedAt)) none = .ok facts ∧ facts.finalCardHash = closingHash := by
  obtain ⟨es, hcarried, hlinked, hsum, hhashes⟩ :=
    (verifyCards_ok (Nat.zero_le _)).mp (ok_of_toOption sample_hashed)
  refine ⟨_, verifyCardChainArtifact_ok.mpr ⟨_, js "P1", sampleUrl, sampleCards, es, rfl, ?_, hcarried,
    hlinked, by simpa using hsum, rfl, rfl⟩, ?_⟩
  · constructor
    · exact exact_of_keys rfl
    · exact strictEq_text.mpr rfl
    · rfl
    · decide +kernel
    · exact h
    · exact ok_of_toOption sample_located
    · exact requireCards_ok.mpr ⟨rfl, by decide, _, _, rfl, strictEq_text.mpr rfl⟩
  · rw [factsOf, ← hhashes]
    rfl

theorem sample_cardTexts {capturedAt : String} :
    cardTexts (.object (sampleArtifact capturedAt)) = [openingText, closingText] := rfl

theorem sample_noCollision :
    NoCollision sampleRuntime [openingText, closingText] [openingText, closingText] := by
  unfold NoCollision
  decide +kernel

/-- Two captures of one chain. -/
theorem terminal_hash_binds_example : ∃ facts facts',
    verifyCardChainArtifact sampleRuntime (.object (sampleArtifact "2026-01-02T03:04:05Z")) none =
      .ok facts ∧
    verifyCardChainArtifact sampleRuntime (.object (sampleArtifact "2026-01-02T03:04:05.5Z")) none =
      .ok facts' ∧ facts.cardHashes = facts'.cardHashes := by
  obtain ⟨facts, h, hfinal⟩ := sample_accepted "2026-01-02T03:04:05Z" (by decide +kernel)
  obtain ⟨facts', h', hfinal'⟩ :=
    sample_accepted "2026-01-02T03:04:05.5Z" (by decide +kernel)
  have hcollision := sample_noCollision
  have hbinds := terminal_hash_binds h h' (by rw [sample_cardTexts, sample_cardTexts]; exact hcollision)
    (hfinal.trans hfinal'.symm)
  exact ⟨facts, facts', h, h', hbinds.2.1⟩

end Sample
end Concordia.Verify.CardChain
