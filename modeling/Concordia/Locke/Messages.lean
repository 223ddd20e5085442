import Concordia.Gateway.Rooms
import Concordia.Gateway.Confirmation

/-! Room messages with the sender they were stored with, and the texts that Locke's preprocessor
finds in them. -/
namespace Concordia.Locke
open Concordia.Python Concordia.Gateway
open Concordia.Js hiding Value

section Text

/-- `str.isspace`, which `\s` and `strip` go by. -/
def isWhite (u : UInt16) : Bool :=
  (0x09 ≤ u && u ≤ 0x0d) || (0x1c ≤ u && u ≤ 0x20) || u == 0x85 || u == 0xa0 || u == 0x1680 ||
    (0x2000 ≤ u && u ≤ 0x200a) || u == 0x2028 || u == 0x2029 || u == 0x202f || u == 0x205f ||
    u == 0x3000

def lstrip (s : Str) : Str := s.dropWhile isWhite

def strip (s : Str) : Str := (lstrip (lstrip s).reverse).reverse

/-- The text after a literal. -/
def after (literal : Str) (s : Str) : Option Str :=
  if literal.isPrefixOf s then some (s.drop literal.length) else none

/-- `needle in s`. -/
def occurs (needle : Str) (s : Str) : Bool := s.tails.any needle.isPrefixOf

/-- The texts that match `\{[^{}]*\}`, from left to right. -/
def flatObjects (current : Option Str) : Str → List Str
  | [] => []
  | u :: rest =>
    if u = Json.leftBrace then flatObjects (some [u]) rest
    else match current with
      | none => flatObjects none rest
      | some text =>
        if u = Json.rightBrace then (text ++ [u]) :: flatObjects none rest
        else flatObjects (some (text ++ [u])) rest

/-- The shortest text up to a brace that the closing fence follows. -/
def upToFence (text : Str) : Str → Option Str
  | [] => none
  | u :: rest =>
    if u = Json.rightBrace ∧ (js "```").isPrefixOf (lstrip rest) then some (text ++ [u])
    else upToFence (text ++ [u]) rest

/-- The first object in a fenced block. -/
def fencedObject (content : Str) : Option Str :=
  content.tails.findSome? fun t =>
    match (after (js "```json") t).map lstrip with
    | some (u :: rest) => if u = Json.leftBrace then upToFence [u] rest else none
    | _ => none

/-- What follows a key and `:` or `=`. -/
def keyedValue (key : Str) (line : Str) : Option Str :=
  match (after key (lstrip line)).map lstrip with
  | some (u :: rest) =>
    if u = Json.colon ∨ u = 0x3d then
      let value := (lstrip rest).takeWhile fun v => !isWhite v
      if value.isEmpty then none else some value
    else none
  | _ => none

/-- The first line with the key; `start` says that a line starts here. -/
def keyLine (key : Str) (start : Bool) : Str → Option Str
  | [] => none
  | u :: rest =>
    let here := if start then keyedValue key (u :: rest) else none
    let next := if u = 0x0a then keyedValue key rest else none
    (here.orElse fun _ => next).orElse fun _ => keyLine key (u = 0x0a) rest

/-- A mention at the start, with the white space around it. -/
def afterMention (s : Str) : Option Str := do
  let body ← after (js "@[[") (lstrip s)
  let name := body.takeWhile (· ≠ 0x5d)
  let rest ← after (js "]]") (body.drop name.length)
  if name.isEmpty then none else some (lstrip rest)

/-- The content without its leading mentions; each is at least six characters long. -/
def stripMentions : Nat → Str → Str
  | 0, s => s
  | bound + 1, s =>
    match afterMention s with
    | some rest => stripMentions bound rest
    | none => s

def stripped (content : Str) : Str := strip (stripMentions content.length content)

def isNonceUnit (u : UInt16) : Bool := (0x41 ≤ u && u ≤ 0x5a) || (0x32 ≤ u && u ≤ 0x39)

/-- The nonce of a text that is an approval as a whole. -/
def approvalNonce (text : Str) : Option Str := do
  let rest ← after (js "APPROVE") text
  let nonce := lstrip rest
  if nonce.length < rest.length ∧ nonce.length = 6 ∧ nonce.all isNonceUnit then some nonce else none

/-- `APPROVE`, then white space or the end. -/
def isApprovalShaped (text : Str) : Bool :=
  match after (js "APPROVE") text with
  | some [] => true
  | some (u :: _) => isWhite u
  | none => false

end Text

section Rooms

/-- A row of `proposal_room_messages` with the columns that name its sender. -/
structure RoomMessage extends MessageRow where
  senderId : Str
  senderType : Str
  /-- The role of the key it was posted with; no column. -/
  postedBy : Str
  deriving DecidableEq

structure MessageRequest where
  content : Str
  senderId : Option Str
  senderRole : Option Str
  senderType : Str
  metadata : Dict

/-- The bounds of `MessageRequest`, in characters. -/
def MessageRequest.valid (body : MessageRequest) : Bool :=
  let within (text : Str) (bound : Nat) : Bool := (codePoints text).length ≤ bound
  !body.content.isEmpty && body.senderId.all (within · 120) && body.senderRole.all (within · 80) &&
    within body.senderType 40

/-- What `post_message` stores for a key with a role. -/
def storedMessage (role roomId : Str) (body : MessageRequest) (uuid : Str) : RoomMessage :=
  let senderRole := (truthy body.senderRole).getD role
  { messageId := js "msg-" ++ uuid
    roomId
    senderRole
    content := body.content
    metadataJson := dumpsSorted (.dict body.metadata)
    senderId := (truthy body.senderId).getD senderRole
    senderType := body.senderType
    postedBy := role }

end Rooms

section Preprocessor

structure Challenge where
  proposalId : Str
  planHash : Str
  actionHash : Str
  nonce : Str
  deriving DecidableEq

/-- Locke's configuration; `str` is Python's, and `fresh` the test of the chatter's age. -/
structure Config where
  agentId : Str
  commanderId : Str
  recorderId : Str
  humanApproverIds : List Str
  activeProposals : List Str
  floats : FloatFormat
  str : Value → Str
  fresh : RoomMessage → Bool

variable (config : Config)

/-- The members that a challenge must have. -/
def challengeOf (member : String → Option Str) : Option Challenge := do
  return ⟨← member "proposal_id", ← member "plan_hash", ← member "action_hash", ← member "nonce"⟩

/-- `_parse_challenge`. -/
def parseChallenge (content : Str) : Option Challenge :=
  let objects := flatObjects none content
  (objects.findSome? fun text =>
    match loads config.floats text with
    | some (.dict data) => challengeOf fun key => (data.lookup (js key)).map config.str
    | _ => none).orElse fun _ => challengeOf fun key => keyLine (js key) true content

/-- `ACTIVE_PROPOSALS`; an empty list lets every proposal through. -/
def Config.isActive (proposalId : Value) : Bool :=
  config.activeProposals.isEmpty || match proposalId with
    | .str p => config.activeProposals.contains p
    | _ => false

/-- The body of a request to `/api/nonce/consume`. -/
structure NonceRequest where
  proposalId : Str
  nonce : Str
  planHash : Str
  actionHash : Str
  consumedBy : Str
  roomMessageId : Str
  roomId : Str
  deriving DecidableEq

/-- What the preprocessor does with a message. -/
inductive Handling where
  | silent
  /-- It goes to the default preprocessor. -/
  | delegate
  | cache (challenge : Challenge)
  | consumeAuthorization (authorizationId proposalId : Value)
  | consumeNonce (request : NonceRequest)

/-- A challenge-shaped message of an agent. -/
def handleChallenge (m : RoomMessage) : Handling :=
  if config.commanderId ≠ [] ∧ m.senderId ≠ config.commanderId then .silent
  else match parseChallenge config m.content with
    | some challenge =>
      if config.isActive (.str challenge.proposalId) then .cache challenge else .silent
    | none => .silent

/-- A sealed card of an agent, with the field that names its authorization. -/
def handleCard (m : RoomMessage) (card : Dict) (authorizationField : String) (accepted : Bool) :
    Handling :=
  if config.recorderId = [] ∨ m.senderId ≠ config.recorderId ∨ accepted = false then .silent
  else
    let proposalId := card.get "proposal_id"
    let authorizationId := card.get authorizationField
    if isTrue proposalId && isTrue authorizationId && config.isActive proposalId then
      .consumeAuthorization authorizationId proposalId
    else .silent

/-- The gates for a message that is an approval. -/
def handleApproval (pending : Option Challenge) (m : RoomMessage) (nonce : Str) : Handling :=
  if m.senderType ≠ js "User" then .silent
  else if config.humanApproverIds.isEmpty then .silent
  else if !config.humanApproverIds.contains m.senderId then .silent
  else match pending with
    | none => .silent
    | some challenge =>
      if challenge.proposalId = [] then .silent
      else if challenge.nonce ≠ [] ∧ nonce ≠ challenge.nonce then .silent
      else .consumeNonce ⟨challenge.proposalId, nonce, challenge.planHash, challenge.actionHash,
        m.senderId, m.messageId, m.roomId⟩

/-- The card types that are not challenges, by the texts that give them away. -/
def looksSealed (content : Str) : Bool :=
  occurs (js "\"card_type\": \"StructuredApproval\"") content ||
    occurs (js "\"card_type\": \"PolicyAuthorization\"") content

/-- The card in a fenced block; nothing is the card without fields. -/
def sealedCard (content : Str) : Dict :=
  match (fencedObject content).bind (loads config.floats) with
  | some (.dict card) => card
  | _ => []

/-- `process`, with the cached challenge. -/
def process (pending : Option Challenge) (m : RoomMessage) : Handling :=
  let isAgent := m.senderType = js "Agent"
  let card := sealedCard config m.content
  let cardType := card.get "card_type"
  if m.senderId = config.agentId then .silent
  else if occurs (js "plan_hash") m.content ∧ occurs (js "nonce") m.content ∧ isAgent ∧
      looksSealed m.content = false then
    handleChallenge config m
  else if isOptStr cardType (some (js "PolicyAuthorization")) = true ∧ isAgent then
    handleCard config m card "authorization_id" true
  else if isOptStr cardType (some (js "StructuredApproval")) = true ∧ isAgent then
    handleCard config m card "action_id"
      (isOptStr (card.get "decision") (some (js "APPROVED")) && isTrue (card.get "card_hash"))
  else match approvalNonce (stripped m.content) with
    | some nonce => handleApproval config pending m nonce
    | none =>
      if isApprovalShaped (stripped m.content) then .silent
      else if isAgent then .silent
      else if config.fresh m then .delegate
      else .silent

end Preprocessor
end Concordia.Locke
