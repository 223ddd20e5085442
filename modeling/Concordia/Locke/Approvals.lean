import Concordia.Locke.Messages
import Concordia.Gateway.Models
import Concordia.Lib.Transition

/-! Who approves. The rooms store whatever sender a request claims, and the approval gates of the
preprocessor read the stored sender. -/
namespace Concordia.Locke
open Concordia.Lib.Transition Concordia.Python Concordia.Gateway
open Concordia.Js hiding Value

/-- A request to consume a nonce, with the message that made the preprocessor issue it. -/
structure Issued where
  message : RoomMessage
  request : NonceRequest
  deriving DecidableEq

structure Chambers where
  rooms : List Str
  messages : List RoomMessage
  pending : Option Challenge
  issued : List Issued

def Chambers.start : Chambers := ⟨[], [], none, []⟩

inductive Activity where
  | openRoom (roomId : Str)
  | post (agentKey roomId : Str) (body : MessageRequest) (uuid : Str)
  /-- The preprocessor meets a message; `consumed` is whether the gateway answers a request to
  consume with 200. After a restart it meets the messages again. -/
  | deliver (place : Nat) (consumed : Bool)
  | restart

variable (roleOf : Str → Option Str) (config : Config)

/-- The preprocessor on one message. -/
def deliver (c : Chambers) (m : RoomMessage) (consumed : Bool) : Chambers :=
  match process config c.pending m with
  | .cache challenge => { c with pending := some challenge }
  | .consumeNonce request =>
    { c with
      issued := c.issued ++ [⟨m, request⟩]
      pending := if consumed then none else c.pending }
  | _ => c

/-- One step; `roleOf` is `get_role_for_key`. -/
def act (c : Chambers) : Activity → Option Chambers
  | .openRoom roomId =>
    if c.rooms.contains roomId then none else some { c with rooms := c.rooms ++ [roomId] }
  | .post agentKey roomId body uuid =>
    match roleOf agentKey with
    | none => none
    | some role =>
      let message := storedMessage role roomId body uuid
      if body.valid && c.rooms.contains roomId &&
          !(c.messages.any fun m => m.messageId == message.messageId) then
        some { c with messages := c.messages ++ [message] }
      else none
  | .deliver place consumed => (c.messages[place]?).map fun m => deliver config c m consumed
  | .restart => some { c with pending := none }

/-- The keys whose holders post genuine approvals. -/
def isTrusted (role : Str) : Bool := role = js "operator" || role = js "gateway"

/-- The sender of a message is what the key of its post says. -/
def Reflects (m : RoomMessage) : Prop := m.senderRole = m.postedBy ∧ m.senderType = js "Agent"

/-- The request claims no other role than the one of its key, and no other type than an agent. -/
def MessageRequest.claimsOwn (role : Str) (body : MessageRequest) : Prop :=
  (truthy body.senderRole = none ∨ truthy body.senderRole = some role) ∧
    body.senderType = js "Agent"

/-- A post under an agent's key claims no other sender. -/
def Activity.Honest : Activity → Prop
  | .post agentKey _ body _ =>
    ∀ role ∈ roleOf agentKey, isTrusted role = false → body.claimsOwn role
  | _ => True

/-- A post under an agent's key does not claim to be the message of an allow-listed user. -/
def Activity.SparesApprovers : Activity → Prop
  | .post agentKey _ body _ => ∀ role ∈ roleOf agentKey, isTrusted role = false →
      body.senderType = js "User" →
      (truthy body.senderId).getD ((truthy body.senderRole).getD role) ∉ config.humanApproverIds
  | _ => True

section Gates
variable {config : Config} {pending : Option Challenge} {m : RoomMessage} {request : NonceRequest}

theorem handleChallenge_request (h : handleChallenge config m = .consumeNonce request) : False := by
  unfold handleChallenge at h
  split at h
  · cases h
  · split at h
    · split at h <;> cases h
    · cases h

theorem handleCard_request {card : Dict} {field : String} {accepted : Bool}
    (h : handleCard config m card field accepted = .consumeNonce request) : False := by
  unfold handleCard at h
  split at h
  · cases h
  · simp only at h
    split at h <;> cases h

/-- The gates that a request to consume has passed. -/
theorem handleApproval_request {nonce : Str}
    (h : handleApproval config pending m nonce = .consumeNonce request) :
    m.senderType = js "User" ∧ m.senderId ∈ config.humanApproverIds ∧
      request.consumedBy = m.senderId := by
  unfold handleApproval at h
  split at h
  · cases h
  · rename_i htype
    split at h
    · cases h
    · split at h
      · cases h
      · rename_i hlisted
        have hmem : m.senderId ∈ config.humanApproverIds := by simpa using hlisted
        split at h
        · cases h
        · split at h
          · cases h
          · split at h
            · cases h
            · cases h
              exact ⟨not_not.mp htype, hmem, rfl⟩

theorem process_request (h : process config pending m = .consumeNonce request) :
    m.senderType = js "User" ∧ m.senderId ∈ config.humanApproverIds ∧
      request.consumedBy = m.senderId := by
  simp only [process] at h
  split at h
  · cases h
  · split at h
    · exact (handleChallenge_request h).elim
    · split at h
      · exact (handleCard_request h).elim
      · split at h
        · exact (handleCard_request h).elim
        · split at h
          · exact handleApproval_request h
          · split at h
            · cases h
            · split at h
              · cases h
              · split at h <;> cases h

end Gates

section Runs
variable {roleOf : Str → Option Str} {config : Config} {c d : Chambers} {log : List Activity}
  {e : Activity} {m : RoomMessage} {i : Issued}

/-- What a delivery adds. -/
theorem mem_deliver {consumed : Bool} (hi : i ∈ (deliver config c m consumed).issued) :
    i ∈ c.issued ∨ (i.message = m ∧ m.senderType = js "User" ∧
      m.senderId ∈ config.humanApproverIds ∧ i.request.consumedBy = m.senderId) := by
  unfold deliver at hi
  split at hi
  · exact .inl hi
  · rename_i request hprocess
    rcases List.mem_append.mp hi with hi | hi
    · exact .inl hi
    · rw [List.mem_singleton.mp hi]
      exact .inr ⟨rfl, process_request hprocess⟩
  · exact .inl hi

theorem deliver_messages {consumed : Bool} :
    (deliver config c m consumed).messages = c.messages := by
  unfold deliver
  split <;> rfl

/-- What one step can do: it stores a message of its post, or issues what the gates let pass. -/
structure Acted (roleOf : Str → Option Str) (config : Config) (c d : Chambers) (e : Activity) :
    Prop where
  kept : ∀ m ∈ c.messages, m ∈ d.messages
  stored : ∀ m ∈ d.messages, m ∈ c.messages ∨ ∃ agentKey roomId body uuid role,
    e = .post agentKey roomId body uuid ∧ roleOf agentKey = some role ∧
      m = storedMessage role roomId body uuid
  posts : ∀ agentKey roomId body uuid role, e = .post agentKey roomId body uuid →
    roleOf agentKey = some role → storedMessage role roomId body uuid ∈ d.messages
  issued : ∀ i ∈ d.issued, i ∈ c.issued ∨ (i.message ∈ c.messages ∧
    i.message.senderType = js "User" ∧ i.message.senderId ∈ config.humanApproverIds ∧
    i.request.consumedBy = i.message.senderId)

theorem acted (h : act roleOf config c e = some d) : Acted roleOf config c d e := by
  cases e with
  | openRoom roomId =>
    simp only [act] at h
    split at h
    · cases h
    · cases h
      exact ⟨fun m hm => hm, fun m hm => .inl hm, by rintro _ _ _ _ _ ⟨⟩, fun i hi => .inl hi⟩
  | post agentKey roomId body uuid =>
    simp only [act] at h
    split at h
    · cases h
    · rename_i role hrole
      split at h
      · cases h
        refine ⟨fun m hm => List.mem_append_left _ hm, ?_, ?_, fun i hi => .inl hi⟩
        · intro m hm
          rcases List.mem_append.mp hm with hm | hm
          · exact .inl hm
          · exact .inr ⟨agentKey, roomId, body, uuid, role, rfl, hrole, List.mem_singleton.mp hm⟩
        · rintro _ _ _ _ role' ⟨⟩ hrole'
          obtain rfl := Option.some.inj (hrole.symm.trans hrole')
          exact List.mem_append_right _ (List.mem_singleton_self _)
      · cases h
  | deliver place consumed =>
    obtain ⟨m, hm, rfl⟩ := Option.map_eq_some_iff.mp h
    refine ⟨?_, ?_, by rintro _ _ _ _ _ ⟨⟩, ?_⟩
    · rw [deliver_messages]
      exact fun m hm => hm
    · rw [deliver_messages]
      exact fun m hm => .inl hm
    · intro i hi
      rcases mem_deliver hi with hi | ⟨rfl, hgates⟩
      · exact .inl hi
      · exact .inr ⟨List.mem_of_getElem? hm, hgates⟩
  | restart =>
    cases h
    exact ⟨fun m hm => hm, fun m hm => .inl hm, by rintro _ _ _ _ _ ⟨⟩, fun i hi => .inl hi⟩

/-- Every request comes from a stored message that passed the gates. -/
theorem accepts_issued (h : Accepts (act roleOf config) .start log c) :
    ∀ i ∈ c.issued, i.message ∈ c.messages ∧ i.message.senderType = js "User" ∧
      i.message.senderId ∈ config.humanApproverIds ∧
      i.request.consumedBy = i.message.senderId := by
  induction h with
  | start =>
    intro i hi
    cases hi
  | accept _ hstep ih =>
    have hacted := acted hstep
    intro i hi
    rcases hacted.issued i hi with hi | ⟨hm, hgates⟩
    · obtain ⟨hm, hgates⟩ := ih i hi
      exact ⟨hacted.kept _ hm, hgates⟩
    · exact ⟨hacted.kept _ hm, hgates⟩

/-- The stored messages are those of the posts of the run. -/
theorem accepts_stored (h : Accepts (act roleOf config) .start log c) :
    m ∈ c.messages ↔ ∃ agentKey roomId body uuid role,
      .post agentKey roomId body uuid ∈ log ∧ roleOf agentKey = some role ∧
        m = storedMessage role roomId body uuid := by
  induction h with
  | start => simp [Chambers.start]
  | @accept log v w e _ hstep ih =>
    have hacted := acted hstep
    constructor
    · intro hm
      rcases hacted.stored m hm with hm | ⟨agentKey, roomId, body, uuid, role, rfl, hrole, heq⟩
      · obtain ⟨agentKey, roomId, body, uuid, role, hpost, hrole, heq⟩ := ih.mp hm
        exact ⟨agentKey, roomId, body, uuid, role, List.mem_append_left _ hpost, hrole, heq⟩
      · exact ⟨agentKey, roomId, body, uuid, role,
          List.mem_append_right _ (List.mem_singleton_self _), hrole, heq⟩
    · rintro ⟨agentKey, roomId, body, uuid, role, hpost, hrole, rfl⟩
      rcases List.mem_append.mp hpost with hpost | hpost
      · exact hacted.kept _ (ih.mpr ⟨agentKey, roomId, body, uuid, role, hpost, hrole, rfl⟩)
      · exact hacted.posts agentKey roomId body uuid role (List.mem_singleton.mp hpost).symm hrole

theorem reflects_iff {role roomId uuid : Str} {body : MessageRequest} :
    Reflects (storedMessage role roomId body uuid) ↔ body.claimsOwn role := by
  simp only [Reflects, storedMessage, MessageRequest.claimsOwn]
  apply and_congr_left'
  cases truthy body.senderRole with
  | none => simp
  | some claimed => simp

/-- In every run: the messages under agents' keys are stored with the sender of their key, and
none of them makes the preprocessor consume a nonce, if and only if every post under an agent's
key claims its own role and type. The second part alone needs no more than that no such post
claims to be from an allow-listed user. -/
theorem approvals_authentic (hrun : Accepts (act roleOf config) .start log c) :
    (((∀ m ∈ c.messages, isTrusted m.postedBy = false → Reflects m) ∧
        ∀ i ∈ c.issued, i.request.consumedBy ∈ config.humanApproverIds →
          isTrusted i.message.postedBy = true) ↔ ∀ e ∈ log, e.Honest roleOf) ∧
    ((∀ e ∈ log, e.SparesApprovers roleOf config) →
      ∀ i ∈ c.issued, isTrusted i.message.postedBy = true) := by
  have hissued := accepts_issued hrun
  refine ⟨⟨?_, ?_⟩, ?_⟩
  · rintro ⟨hreflects, -⟩ e he
    cases e with
    | post agentKey roomId body uuid =>
      intro role hrole htrusted
      refine reflects_iff.mp (hreflects (storedMessage role roomId body uuid) ?_ htrusted)
      exact (accepts_stored hrun).mpr ⟨agentKey, roomId, body, uuid, role, he, hrole, rfl⟩
    | _ => trivial
  · intro hhonest
    have hreflects : ∀ m ∈ c.messages, isTrusted m.postedBy = false → Reflects m := by
      intro m hm htrusted
      obtain ⟨agentKey, roomId, body, uuid, role, hpost, hrole, rfl⟩ := (accepts_stored hrun).mp hm
      exact reflects_iff.mpr (hhonest _ hpost role hrole htrusted)
    refine ⟨hreflects, ?_⟩
    intro i hi _
    obtain ⟨hm, huser, -⟩ := hissued i hi
    by_contra htrusted
    have hagent := (hreflects _ hm (Bool.eq_false_iff.mpr htrusted)).2
    rw [huser] at hagent
    exact absurd hagent (by decide)
  · intro hspares i hi
    obtain ⟨hm, huser, hlisted, -⟩ := hissued i hi
    by_contra htrusted
    obtain ⟨agentKey, roomId, body, uuid, role, hpost, hrole, heq⟩ := (accepts_stored hrun).mp hm
    rw [heq] at htrusted huser hlisted
    exact hspares _ hpost role hrole (Bool.eq_false_iff.mpr htrusted) huser hlisted

end Runs

section Sample

def sampleConfig : Config where
  agentId := js "locke-id"
  commanderId := js "alden-id"
  recorderId := js "recorder-id"
  humanApproverIds := [js "alice"]
  activeProposals := []
  floats := sampleFloats
  str v := match v with
    | .str s => s
    | v => dumps v
  fresh _ := true

def sampleRole (key : Str) : Option Str :=
  if key = js "k-alden" then some (js "commander")
  else if key = js "k-rowan" then some (js "triage")
  else if key = js "k-gateway" then some (js "gateway")
  else none

instance : (e : Activity) → Decidable (e.SparesApprovers roleOf config)
  | .post agentKey _ body _ => inferInstanceAs (Decidable (∀ role ∈ roleOf agentKey,
      isTrusted role = false → body.senderType = js "User" → _ ∉ config.humanApproverIds))
  | .openRoom _ | .deliver _ _ | .restart => inferInstanceAs (Decidable True)

def challengePost : Activity :=
  .post (js "k-alden") (js "room-1")
    ⟨js "proposal_id: P-1\nplan_hash: aa\naction_hash: bb\nnonce: K7V3NW", some (js "alden-id"), none,
      js "Agent", []⟩ (js "1")

def approvalPost (key : String) : Activity :=
  .post (js key) (js "room-1")
    ⟨js "@[[locke]] APPROVE K7V3NW", some (js "alice"), none, js "User", []⟩ (js "2")

/-- The approval comes under the gateway's key. -/
def genuineRun : Chambers × List Activity :=
  run (act sampleRole sampleConfig) .start
    [.openRoom (js "room-1"), challengePost, .deliver 0 false, approvalPost "k-gateway",
      .deliver 1 true]

theorem approvals_authentic_sample :
    genuineRun.1.issued.length = 1 ∧ ∀ i ∈ genuineRun.1.issued, isTrusted i.message.postedBy = true := by
  refine ⟨by decide +kernel, ?_⟩
  refine (approvals_authentic (run_accepts (act sampleRole sampleConfig) .start _)).2 ?_
  decide +kernel

/-- The holder of the triage key posts an approval as the user `alice`, and it is consumed in her
name. -/
theorem forged_approval :
    let c := (run (act sampleRole sampleConfig) .start
      [.openRoom (js "room-1"), challengePost, .deliver 0 false, approvalPost "k-rowan",
        .deliver 1 true]).1
    c.issued.map (fun i => (i.message.postedBy, i.message.senderType, i.request)) =
      [(js "triage", js "User", ⟨js "P-1", js "K7V3NW", js "aa", js "bb", js "alice", js "msg-2",
        js "room-1"⟩)] := by
  decide +kernel

end Sample
end Concordia.Locke
