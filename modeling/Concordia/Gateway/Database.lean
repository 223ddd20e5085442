import Concordia.Lib.Transactions
import Concordia.Contract.Types
import Concordia.Js.Utf8
import Concordia.Python.Canonical

/-! The gateway's tables, with the columns that the routes read, and its surroundings. -/
namespace Concordia.Gateway
open Concordia.Python Concordia.Lib.Transactions
open Concordia.Js hiding Value

/-- A moment; `isoformat` texts are kept as the moments they denote. -/
abbrev Time := Int

inductive ProposalState where
  | detected | triaged | suppressed | assessed | reviewed | challenged | closedFalseAlarm
  | escalatedHuman | planned | approved | authorized | rejected | executed | resolved
  deriving DecidableEq, Repr

def ProposalState.name : ProposalState → String
  | .detected => "DETECTED"
  | .triaged => "TRIAGED"
  | .suppressed => "SUPPRESSED"
  | .assessed => "ASSESSED"
  | .reviewed => "REVIEWED"
  | .challenged => "CHALLENGED"
  | .closedFalseAlarm => "CLOSED_FALSE_ALARM"
  | .escalatedHuman => "ESCALATED_HUMAN"
  | .planned => "PLANNED"
  | .approved => "APPROVED"
  | .authorized => "AUTHORIZED"
  | .rejected => "REJECTED"
  | .executed => "EXECUTED"
  | .resolved => "RESOLVED"

/-- `CARD_TYPES`. -/
inductive CardType where
  | proposalCard | triageDecision | assessment | verdict | responsePlan | structuredApproval
  | policyAuthorization | casperExecutionReceipt | governanceSummary
  deriving DecidableEq, Repr

namespace CardType

def name : CardType → String
  | proposalCard => "ProposalCard"
  | triageDecision => "TriageDecision"
  | assessment => "Assessment"
  | verdict => "Verdict"
  | responsePlan => "ResponsePlan"
  | structuredApproval => "StructuredApproval"
  | policyAuthorization => "PolicyAuthorization"
  | casperExecutionReceipt => "CasperExecutionReceipt"
  | governanceSummary => "GovernanceSummary"

def all : List CardType :=
  [proposalCard, triageDecision, assessment, verdict, responsePlan, structuredApproval,
    policyAuthorization, casperExecutionReceipt, governanceSummary]

/-- The text of the `card_type` column. -/
def column (t : CardType) : Str := js t.name

def ofColumn (text : Str) : Option CardType := all.find? fun t => t.column == text

theorem ofColumn_column : ∀ t : CardType, ofColumn t.column = some t := by
  intro t
  cases t <;> decide +kernel

theorem column_injective : Function.Injective column := by
  intro s t h
  have := ofColumn_column s
  rw [h, ofColumn_column t] at this
  exact (Option.some.inj this).symm

end CardType

/-- The roles of `_ROLE_ACL`. -/
inductive Role where
  | recorder | triage | diagnosis | safetyReviewer | commander | operator | gateway
  deriving DecidableEq, Repr

def Role.name : Role → String
  | .recorder => "recorder"
  | .triage => "triage"
  | .diagnosis => "diagnosis"
  | .safetyReviewer => "safety_reviewer"
  | .commander => "commander"
  | .operator => "operator"
  | .gateway => "gateway"

inductive AuthorizationType where
  | policy | humanApproval
  deriving DecidableEq, Repr

inductive AuthorizationStatus where
  | pending | published | consumed
  deriving DecidableEq, Repr

structure ProposalRow where
  proposalId : Str
  state : ProposalState
  severity : Option Str
  roomId : Option Str
  legacyRoomId : Option Str
  deriving DecidableEq

structure CardRow where
  proposalId : Str
  sequenceNumber : Int
  cardType : Str
  cardHash : Str
  cardJson : Str
  idempotencyKey : Option Str
  preparedByRole : Option Role
  requestFp : Option Str
  publishedAt : Option Time
  roomMessageId : Option Str
  deriving DecidableEq

structure NonceRow where
  proposalId : Str
  nonce : Str
  planHash : Str
  actionHash : Str
  planRevision : Value
  expiry : Time
  consumed : Bool
  invalidated : Bool
  consumedBy : Option Str
  consumedAt : Option Time
  challengeMessageId : Option Str

structure AuthorizationRow where
  authorizationId : Str
  proposalId : Str
  authorizationType : AuthorizationType
  planHash : Str
  actionHash : Str
  envelopesJson : Str
  expiry : Time
  consumed : Bool
  consumedAt : Option Time
  consumedBy : Option Str
  status : AuthorizationStatus
  roomMessageId : Option Str
  nonce : Option Str
  cardHash : Str
  deriving DecidableEq

structure RoomRow where
  roomId : Str
  proposalId : Option Str
  deriving DecidableEq

structure MessageRow where
  messageId : Str
  roomId : Str
  senderRole : Str
  content : Str
  metadataJson : Str
  deriving DecidableEq

structure SuppressionRow where
  fingerprint : Str
  sourceProposalId : Str
  active : Bool
  deriving DecidableEq

structure Db where
  proposals : List ProposalRow
  cards : List CardRow
  nonces : List NonceRow
  authorizations : List AuthorizationRow
  rooms : List RoomRow
  messages : List MessageRow
  suppressionRules : List SuppressionRow

def Db.empty : Db := ⟨[], [], [], [], [], [], []⟩

/-- A model instance, by its `model_dump(exclude={"card_hash"})`; what JSON cannot write is
already replaced by its `str`, as `default=str` does. -/
structure Card (floats : FloatFormat) where
  cardType : CardType
  dump : Dict
  wellFormed : WellFormed floats (.dict dump)
  typed : dump.get "card_type" = .str cardType.column

/-- What the routes use of their surroundings: libraries, configuration and keys. -/
structure Env where
  floats : FloatFormat
  sha256 : List UInt8 → Contract.Bytes32
  /-- `CARD_TYPES[card_type].model_validate(data)`; `none` is a `ValidationError`. -/
  modelValidate : CardType → Dict → Option (Card floats)
  /-- `CARD_TYPES[card_type]` has only instances of its own type. -/
  validated : ∀ t data card, modelValidate t data = some card → card.cardType = t
  /-- `repr(s)`. -/
  repr : Str → Str
  /-- `s.strip().lower()`. -/
  stripLower : Str → Str
  /-- `s.strip()`. -/
  strip : Str → Str
  /-- `str(datetime)`. -/
  strTime : Time → Str
  /-- `format_card_message`, the text of a card's room message. -/
  formatCardMessage : Dict → Str
  /-- `_load_agent_keys()`. -/
  agentKeys : List (Str × Role)
  /-- `get_role_for_key` of the room routes, by name. -/
  roomKeys : Str → Option Str
  humanApproverIds : List Str
  /-- `load_constitution().get("requires_multisig_for_execution", True)`. -/
  requiresMultisig : Bool
  operatorAgentId : Str
  commanderAgentId : Str
  recorderAgentId : Str
  testMode : Bool

inductive PyException where
  | http (status : Nat) (detail : Str)
  | idempotencyConflict (message : Str)
  | integrityError
  | operationalError
  /-- Every other exception: a failed parse, a failed validation, a missing key. -/
  | other
  deriving DecidableEq

instance : DriverError PyException := ⟨.operationalError, .integrityError⟩

abbrev Sql (α : Type) := Program Db PyException α

variable (env : Env)

/-- `hashlib.sha256(text.encode()).hexdigest()`. -/
def hexdigest (text : Str) : Str := toHex (env.sha256 (utf8 text)).toList

/-- `hashlib.sha256(json.dumps(value, sort_keys=True, default=str).encode()).hexdigest()`. -/
def hashValue (value : Value) : Str := hexdigest env (dumpsSorted value)

namespace Db

def proposal (db : Db) (proposalId : Str) : Option ProposalRow :=
  db.proposals.find? fun r => r.proposalId == proposalId

def proposalState (db : Db) (proposalId : Str) : Option ProposalState :=
  (db.proposal proposalId).map (·.state)

def nonce (db : Db) (proposalId nonce : Str) : Option NonceRow :=
  db.nonces.find? fun r => r.proposalId == proposalId && r.nonce == nonce

def authorization (db : Db) (authorizationId : Str) : Option AuthorizationRow :=
  db.authorizations.find? fun r => r.authorizationId == authorizationId

/-- The cards of a proposal. -/
def cardsOf (db : Db) (proposalId : Str) : List CardRow :=
  db.cards.filter fun r => r.proposalId == proposalId

/-- `ORDER BY sequence_number DESC LIMIT 1`. -/
def lastBySequence (rows : List CardRow) : Option CardRow :=
  rows.foldl (fun best r =>
    if best.any fun b => r.sequenceNumber ≤ b.sequenceNumber then best else some r) none

/-- The confirmed ResponsePlan that the routes read: type, publication, highest sequence. -/
def confirmedPlan (db : Db) (proposalId : Str) : Option CardRow :=
  lastBySequence ((db.cardsOf proposalId).filter fun r =>
    r.cardType == CardType.responsePlan.column && r.publishedAt.isSome)

/-- The rows of a proposal in `ORDER BY sequence_number ASC`. -/
def chainOf (db : Db) (proposalId : Str) : List CardRow :=
  (db.cardsOf proposalId).insertionSort fun a b => a.sequenceNumber ≤ b.sequenceNumber

/-- `INSERT INTO cards`, under the foreign key and the two unique constraints. -/
def insertCard (row : CardRow) (db : Db) : Option Db :=
  let clashes := db.cards.any fun r => r.proposalId == row.proposalId &&
    (r.sequenceNumber == row.sequenceNumber ||
      (r.idempotencyKey.isSome && r.idempotencyKey == row.idempotencyKey))
  if (db.proposal row.proposalId).isNone || clashes then none
  else some { db with cards := db.cards ++ [row] }

end Db

/-- A text counts as false when it is missing or empty. -/
def truthy : Option Str → Option Str
  | some (u :: rest) => some (u :: rest)
  | _ => none

/-- `row["room_id"] or row["legacy_room_id"]`. -/
def roomOf (row : ProposalRow) : Option Str :=
  (truthy row.roomId).orElse fun _ => truthy row.legacyRoomId
end Concordia.Gateway
