import Concordia.Gateway.Chambers
import Concordia.Gateway.RoomView

/-! The public listing of a proposal's messages, and the live secrets that it shows. -/
namespace Concordia.Gateway.RoomView
open Concordia.Python Concordia.Lib.Substitution
open Concordia.Shared.Redaction (isLetter mark forall_of_all)
open Concordia.Js hiding Value

section Endpoint

/-- The columns of a message that the listing reads. -/
structure StoredMessage extends SequencedMessage where
  proposalId : Option Str
  senderType : Option Str
  createdAt : Str

structure ShownMessage where
  id : Str
  content : Str
  senderRole : Str
  roleSource : Str
  senderType : Str
  createdAt : Str
  deriving DecidableEq

structure Listing where
  proposalId : Str
  roomId : Option Str
  messageCount : Option Nat
  messages : List ShownMessage
  note : Option Str
  deriving DecidableEq

/-- `WHERE proposal_id=? OR room_id=? ORDER BY id ASC`. -/
def selectMessages (stored : List StoredMessage) (proposalId roomId : Str) : List StoredMessage :=
  (stored.filter fun m => m.proposalId == some proposalId || m.roomId == roomId).mergeSort
    fun a b => a.id ≤ b.id

variable (resolveMessageSenderRole : StoredMessage → Str × Str)

def formatMessage (msg : StoredMessage) : ShownMessage where
  id := msg.messageId
  content := sanitizedContent msg.content
  senderRole := (resolveMessageSenderRole msg).1
  roleSource := (resolveMessageSenderRole msg).2
  senderType := (truthy msg.senderType).getD (js "Agent")
  createdAt := msg.createdAt

/-- `GET /room-messages/{proposal_id}`. -/
def getRoomMessages (proposals : List ProposalRow) (stored : List StoredMessage) (proposalId : Str) :
    Except PyException Listing :=
  match proposals.find? fun row => row.proposalId == proposalId with
  | none => .error (.http 404 (js "Proposal not found"))
  | some row =>
    match roomOf row with
    | none => .ok
      { proposalId := proposalId
        roomId := none
        messageCount := none
        messages := []
        note := some (js "No Council Chamber for this proposal") }
    | some roomId =>
      let formatted :=
        (selectMessages stored proposalId roomId).map (formatMessage resolveMessageSenderRole)
      .ok
        { proposalId := proposalId
          roomId := some roomId
          messageCount := some formatted.length
          messages := formatted
          note := none }

/-- The stored messages that the listing is about. -/
def listed (proposals : List ProposalRow) (stored : List StoredMessage) (proposalId : Str) :
    List StoredMessage :=
  ((proposals.find? fun row => row.proposalId == proposalId).bind roomOf).elim []
    fun roomId => selectMessages stored proposalId roomId

end Endpoint

section Secrets

/-- The alphabet of `generate_nonce`. -/
def nonceAlphabet : Str := js "ABCDEFGHJKLMNPQRSTUVWXYZ23456789"

/-- What `generate_nonce` draws. -/
def IsNonce (s : Str) : Prop := s.length = 6 ∧ ∀ u ∈ s, u ∈ nonceAlphabet

/-- What `str(uuid.uuid4())` is. -/
def IsUuid (s : Str) : Prop :=
  (s.splitOn 0x2d).map List.length = [8, 4, 4, 4, 12] ∧
    ∀ u ∈ s, u ∈ js "0123456789abcdef-"

/-- A nonce or an authorization identifier. -/
structure Secret where
  text : Str
  issued : IsNonce text ∨ IsUuid text

/-- `[A-Za-z0-9-]`. -/
def isTokenUnit (u : UInt16) : Bool := isLetter u || isDigit u || u == 0x2d

/-- The longest runs of letters, digits and dashes. -/
def tokens (text : Str) : List Str := text.splitOnP fun u => !isTokenUnit u

theorem Secret.not_in_mark (secret : Secret) : secret.text ∉ tokens (js "REDACTED") := by
  have htokens : tokens (js "REDACTED") = [js "REDACTED"] := by decide
  rw [htokens, List.mem_singleton]
  intro h
  rcases secret.issued with ⟨hlength, -⟩ | ⟨hgroups, -⟩
  · rw [h] at hlength
    exact absurd hlength (by decide)
  · rw [h] at hgroups
    exact absurd hgroups (by decide)

/-- A message without a label is shown as it is. -/
theorem sanitizedContent_plain {content : Str} (hnonce : noncePattern.search [] content = false)
    (hquery : queryPattern.search [] content = false)
    (hauthorization : authorizationPattern.search [] content = false) :
    sanitizedContent content = content := by
  unfold sanitizedContent
  rw [substitute_unmatched hnonce, substitute_unmatched hquery, substitute_unmatched hauthorization]

/-- A secret is shown where it is a token outside of the values behind a label. -/
theorem Secret.mem_tokens (secret : Secret) (content : Str) :
    secret.text ∈ tokens (sanitizedContent content) ↔ secret.text ∈ tokens (unlabelled content) := by
  rw [sanitizedContent_eq]
  exact mem_split_fill (by decide) (by decide) (by decide) secret.not_in_mark (reading content)

end Secrets

section Disclosure
variable {resolveMessageSenderRole : StoredMessage → Str × Str} {proposals : List ProposalRow}
  {stored : List StoredMessage} {proposalId : Str} {view : Listing}

/-- The listing shows every message that it is about, in their order, and no other. -/
theorem messages_eq (h : getRoomMessages resolveMessageSenderRole proposals stored proposalId = .ok view) :
    view.messages =
      (listed proposals stored proposalId).map (formatMessage resolveMessageSenderRole) := by
  unfold getRoomMessages at h
  unfold listed
  cases hproposal : proposals.find? fun row => row.proposalId == proposalId with
  | none =>
    rw [hproposal] at h
    cases h
  | some row =>
    rw [hproposal] at h
    cases hroom : roomOf row with
    | none =>
      simp only [hroom] at h
      obtain rfl := Except.ok.inj h
      rw [Option.bind_some, hroom]
      rfl
    | some roomId =>
      simp only [hroom] at h
      obtain rfl := Except.ok.inj h
      rw [Option.bind_some, hroom]
      rfl

theorem listed_nil (h : ∀ view, getRoomMessages resolveMessageSenderRole proposals stored proposalId ≠
    .ok view) : listed proposals stored proposalId = [] := by
  unfold getRoomMessages at h
  unfold listed
  cases hproposal : proposals.find? fun row => row.proposalId == proposalId with
  | none => rfl
  | some row =>
    rw [hproposal] at h
    cases hroom : roomOf row with
    | none =>
      rw [Option.bind_some, hroom]
      rfl
    | some roomId =>
      simp only [hroom] at h
      exact absurd rfl (h _)

end Disclosure

/-- The listing shows no live secret if and only if none is a token of a listed message outside of
the values that stand behind a label. -/
theorem live_secrets_hidden_iff (resolveMessageSenderRole : StoredMessage → Str × Str)
    (proposals : List ProposalRow) (stored : List StoredMessage) (proposalId : Str)
    (live : Set Secret) :
    (∀ view, getRoomMessages resolveMessageSenderRole proposals stored proposalId = .ok view →
      ∀ m ∈ view.messages, ∀ secret ∈ live, secret.text ∉ tokens m.content) ↔
    ∀ row ∈ listed proposals stored proposalId, ∀ secret ∈ live,
      secret.text ∉ tokens (unlabelled row.content) := by
  constructor
  · intro h row hrow secret hsecret hmem
    cases hview : getRoomMessages resolveMessageSenderRole proposals stored proposalId with
    | error e =>
      have hnil := listed_nil fun view hok => by
        rw [hview] at hok
        cases hok
      rw [hnil] at hrow
      cases hrow
    | ok view =>
      refine h view hview (formatMessage resolveMessageSenderRole row) ?_ secret hsecret
        ((secret.mem_tokens row.content).mpr hmem)
      rw [messages_eq hview]
      exact List.mem_map_of_mem hrow
  · intro h view hview m hm secret hsecret hmem
    rw [messages_eq hview] at hm
    obtain ⟨row, hrow, rfl⟩ := List.mem_map.mp hm
    exact h row hrow secret hsecret ((secret.mem_tokens row.content).mp hmem)

/-- The reply by which a human approves. -/
def approveReply : StoredMessage where
  messageId := js "msg-1"
  roomId := js "room-1"
  senderRole := js "human"
  content := js "APPROVE K7V3NW"
  metadataJson := js "\x7b\x7d"
  id := 1
  proposalId := some (js "DAO-1")
  senderType := some (js "User")
  createdAt := js "2025-01-01T00:00:00Z"

def sampleProposal : ProposalRow where
  proposalId := js "DAO-1"
  state := .planned
  severity := none
  roomId := some (js "room-1")
  legacyRoomId := none

def sampleNonce : Secret where
  text := js "K7V3NW"
  issued := .inl ⟨rfl, forall_of_all (by decide)⟩

theorem approveReply_listed : listed [sampleProposal] [approveReply] (js "DAO-1") = [approveReply] := by
  change selectMessages [approveReply] (js "DAO-1") (js "room-1") = _
  rw [selectMessages, List.filter_cons_of_pos (by decide), List.filter_nil, List.mergeSort_singleton]

/-- The reply is listed as it was written, with the nonce that is to be consumed. -/
theorem approve_reply_shown :
    ¬ ∀ (resolveMessageSenderRole : StoredMessage → Str × Str) (proposals : List ProposalRow)
      (stored : List StoredMessage) (proposalId : Str) (live : Set Secret),
      ∀ view, getRoomMessages resolveMessageSenderRole proposals stored proposalId = .ok view →
        ∀ m ∈ view.messages, ∀ secret ∈ live, secret.text ∉ tokens m.content := by
  intro h
  have hplain : sanitizedContent (js "APPROVE K7V3NW") = js "APPROVE K7V3NW" :=
    sanitizedContent_plain (by decide) (by decide) (by decide)
  have hshown : js "K7V3NW" ∈ tokens (sanitizedContent (js "APPROVE K7V3NW")) := by
    rw [hplain]
    decide
  obtain ⟨view, hview⟩ : ∃ view, getRoomMessages (fun m => (m.senderRole, js "sender_role"))
      [sampleProposal] [approveReply] (js "DAO-1") = .ok view := ⟨_, rfl⟩
  have hhides := h _ _ _ _ {sampleNonce} view hview
  rw [messages_eq hview, approveReply_listed] at hhides
  exact hhides _ (List.mem_singleton_self _) sampleNonce rfl hshown

end Concordia.Gateway.RoomView
