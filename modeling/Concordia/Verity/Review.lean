import Concordia.Verity.CrossCheck
import Mathlib.Logic.Function.Basic

/-! Verity's review loop. The room runtime hands over one message at a time: the preprocessor keeps
a context for the proposal, the review submits a verdict for it. A submission is prepared, posted
to the room and confirmed, and can be cut off between any two of these. -/
namespace Concordia.Verity
open Concordia.Python Concordia.Shared.CardIntake
open Concordia.Gateway (isTrue)
open Concordia.Js hiding Value

inductive Decision where
  | confirm | challenge | falseAlarm | needsHuman
  deriving DecidableEq, Repr

structure Message where
  senderId : Str
  senderType : Str
  roomId : Str
  id : Str
  content : Str

structure ReviewContext where
  proposalId : Str
  roomId : Str
  roomMessageId : Str
  sourceCardHash : Str
  assessment : Assessment
  revision : Int
  submitted : Bool
  challengeCount : Nat
  forceNeedsHuman : Bool

/-- The context after a confirmed verdict: a challenge leaves it open. -/
def ReviewContext.settled (ctx : ReviewContext) (decision : Decision) : ReviewContext :=
  if decision = .challenge then { ctx with challengeCount := ctx.challengeCount + 1 }
  else { ctx with submitted := true }

/-- A verdict as the room and the gateway see it, and whether its confirmation was answered. -/
structure Publication where
  proposalId : Str
  decision : Decision
  assessment : Assessment
  answered : Bool

/-- How far a submission gets. -/
inductive Saga where
  /-- No card is prepared. -/
  | refused
  /-- A card is prepared, and no message posted. -/
  | unposted
  /-- The message is posted; its answer is lost, or the confirmation fails. -/
  | posted
  /-- The confirmation takes effect, and its answer is lost. -/
  | lost
  | confirmed
  deriving DecidableEq, Repr

def Saga.posts : Saga → Bool
  | .posted | .lost | .confirmed => true
  | _ => false

def Saga.confirms : Saga → Bool
  | .lost | .confirmed => true
  | _ => false

/-- A submission whose message has nobody to mention stops before it posts. -/
def Saga.within (addressed : Bool) (saga : Saga) : Saga :=
  if addressed || saga = .refused then saga else .unposted

/-- `contexts` is `_trusted_context`; the others record what the room and the gateway have seen. -/
structure State where
  contexts : Str → Option ReviewContext
  published : List Publication
  confirmed : List Publication

namespace State

def initial : State where
  contexts _ := none
  published := []
  confirmed := []

variable (s : State) (ctx : ReviewContext) (decision : Decision)

def store : State :=
  { s with contexts := Function.update s.contexts ctx.proposalId (some ctx) }

def record (saga : Saga) : State :=
  let entry : Publication := ⟨ctx.proposalId, decision, ctx.assessment, saga = .confirmed⟩
  { s with
    published := s.published ++ if saga.posts then [entry] else []
    confirmed := s.confirmed ++ if saga.confirms then [entry] else [] }

/-- Prepare, post and confirm; only a confirmation that answers changes the context. -/
def submit (saga : Saga) : State :=
  if saga = .confirmed then (s.record ctx decision saga).store (ctx.settled decision)
  else s.record ctx decision saga

end State

/-- The configuration of the agent; `validate` is the validation of a card as an assessment. -/
structure Reviewer where
  floats : FloatFormat
  numbers : Numbers
  reviewerAgentId : Str
  diagnosisAgentId : Str
  commanderAgentId : Str
  humanApproverIds : List Str
  /-- The approvers in the environment at the time of an escalation. -/
  laterApproverIds : List Str
  activeProposals : List Str
  validate : Dict → Option Assessment
  validate_proposalId : ∀ card a, validate card = some a →
    card.lookup (js "proposal_id") = some (.str a.proposalId)

/-- `has_seal_fields`. -/
def hasSealFields (card : Dict) : Bool :=
  let hashed := match getOr card "card_hash" .none with
    | .str hash => !hash.isEmpty
    | _ => false
  let numbered := match getOr card "sequence_number" .none with
    | .int n => 1 ≤ n
    | .bool b => b
    | _ => false
  hashed && numbered

def textOf : Value → Str
  | .str s => s
  | _ => []

/-- `validated.revision or 1`. -/
def Assessment.revisionOrOne (a : Assessment) : Int := if a.revision = 0 then 1 else a.revision

namespace Reviewer
variable (r : Reviewer)

/-- The sender is the diagnosis agent, and the card a sealed assessment of an active proposal. -/
def guards (m : Message) (card : Dict) (stale : Bool) : Bool :=
  let proposalId := textOf (getOr card "proposal_id" (.str []))
  textOf (getOr card "card_type" .none) = js "Assessment" && m.senderType = js "Agent" &&
    !r.diagnosisAgentId.isEmpty && m.senderId = r.diagnosisAgentId && hasSealFields card &&
    (r.activeProposals.isEmpty || proposalId ∈ r.activeProposals) &&
    !(!proposalId.isEmpty && stale)

/-- The assessment of a message that the preprocessor does not drop before it looks at the
contexts. -/
def accepts (m : Message) (stale : Bool) : Option (Dict × Assessment) :=
  if m.senderId = r.reviewerAgentId then none
  else (extractSealedCard r.floats m.content).bind fun card =>
    if r.guards m card stale then (r.validate card).map fun a => (card, a) else none

/-- The decision after both overrides; `none` where the cross-check raises an error. -/
def verdict (ctx : ReviewContext) (decision : Decision) : Option Decision :=
  let decision := if ctx.forceNeedsHuman then .needsHuman else decision
  (crossCheckAssessment r.numbers ctx.assessment).map fun check =>
    if !check.issues.isEmpty && decision = .confirm &&
      !revisedPolicyCapReady r.numbers check ctx.challengeCount then .challenge
    else decision

/-- Whom the message of a verdict mentions is configured. -/
def addresses : Decision → Bool
  | .confirm => !r.commanderAgentId.isEmpty
  | .challenge => !r.diagnosisAgentId.isEmpty
  | .falseAlarm | .needsHuman => !r.humanApproverIds.isEmpty

/-- `handle_submit_verdict`; an invalid decision is `none`. -/
def handleSubmitVerdict (s : State) (proposalId : Str) (decision : Option Decision) (saga : Saga) :
    State :=
  match s.contexts proposalId, decision with
  | some ctx, some decision =>
    if ctx.submitted then s
    else
      match r.verdict ctx decision with
      | none => s
      | some decision => s.submit ctx decision (saga.within (r.addresses decision))
  | _, _ => s

/-- The decision of `run_local_safety_review`. -/
def localDecision (check : CrossCheck) (challengeCount : Nat) : Decision :=
  if !check.issues.isEmpty && challengeCount < 1 then .challenge
  else if !check.issues.isEmpty && !revisedPolicyCapReady r.numbers check challengeCount then
    .needsHuman
  else .confirm

/-- `run_local_safety_review`; a language model can only reword it. -/
def runLocalSafetyReview (s : State) (proposalId : Str) (saga : Saga) : State :=
  match s.contexts proposalId with
  | none => s
  | some ctx =>
    if ctx.submitted then s
    else
      match crossCheckAssessment r.numbers ctx.assessment with
      | none => s
      | some check =>
        r.handleSubmitVerdict s proposalId (some (r.localDecision check ctx.challengeCount)) saga

/-- `_submit_deterministic_verdict`. -/
def submitDeterministicVerdict (s : State) (ctx : ReviewContext) (saga : Saga) : State :=
  s.submit ctx .needsHuman
    (saga.within (!r.humanApproverIds.isEmpty || !r.laterApproverIds.isEmpty))

/-- The contexts, after the guards of `process`; with the proposal that is left to the review. -/
def takeAssessment (s : State) (m : Message) (card : Dict) (a : Assessment) (saga : Saga) :
    State × Option Str :=
  let cardHash := textOf (getOr card "card_hash" (.str []))
  let proposalId := textOf (getOr card "proposal_id" (.str []))
  match s.contexts a.proposalId with
  | some existing =>
    if existing.submitted then (s, none)
    else if existing.revision < a.revisionOrOne then
      if 2 ≤ existing.challengeCount then
        let ctx := { existing with
          assessment := a, revision := a.revisionOrOne, roomMessageId := m.id
          sourceCardHash := cardHash, forceNeedsHuman := true }
        (r.submitDeterministicVerdict (s.store ctx) ctx saga, none)
      else
        (s.store ⟨a.proposalId, m.roomId, m.id, cardHash, a, a.revisionOrOne, false,
          existing.challengeCount, existing.forceNeedsHuman⟩, some proposalId)
    else (s, none)
  | none =>
    (s.store ⟨a.proposalId, m.roomId, m.id, cardHash, a, a.revisionOrOne, false, 0, false⟩,
      some proposalId)

/-- `SafetyReviewerPreprocessor.process`. -/
def process (s : State) (m : Message) (stale : Bool) (saga : Saga) : State × Option Str :=
  match r.accepts m stale with
  | none => (s, none)
  | some (card, a) => r.takeAssessment s m card a saga

/-- What reviews an accepted message: the rules, or a call of the tool with any decision. -/
inductive Review where
  | rules
  | tool (decision : Option Decision)

/-- A message, the answer of the staleness guard, its review, and how far a submission gets. -/
structure Delivery where
  message : Message
  stale : Bool
  review : Review
  saga : Saga

def review (s : State) (proposalId : Str) (saga : Saga) : Review → State
  | .rules => r.runLocalSafetyReview s proposalId saga
  | .tool decision => r.handleSubmitVerdict s proposalId decision saga

/-- The review of what `process` leaves to it. -/
def delegate (d : Delivery) : State × Option Str → State
  | (t, some proposalId) => r.review t proposalId d.saga d.review
  | (t, none) => t

def step (s : State) (d : Delivery) : State :=
  r.delegate d (r.process s d.message d.stale d.saga)

end Reviewer

/-! What one delivery does. -/
section Steps
variable {r : Reviewer} {s t : State} {ctx : ReviewContext} {p : Str}

@[simp] theorem State.store_published : (s.store ctx).published = s.published := rfl

@[simp] theorem State.store_confirmed : (s.store ctx).confirmed = s.confirmed := rfl

theorem State.store_self : (s.store ctx).contexts ctx.proposalId = some ctx :=
  Function.update_self ..

theorem State.store_other (h : p ≠ ctx.proposalId) : (s.store ctx).contexts p = s.contexts p :=
  Function.update_of_ne h ..

theorem State.submit_idle {decision : Decision} {saga : Saga} (h : saga.posts = false) :
    s.submit ctx decision saga = s := by
  cases saga with
  | refused => simp [State.submit, State.record, Saga.posts, Saga.confirms]
  | unposted => simp [State.submit, State.record, Saga.posts, Saga.confirms]
  | posted | lost | confirmed => cases h

/-- The context is new, or takes the place of one without a verdict and keeps its count. -/
structure Takes (s : State) (ctx : ReviewContext) : Prop where
  unsubmitted : ctx.submitted = false
  place : (s.contexts ctx.proposalId = none ∧ ctx.challengeCount = 0) ∨
    ∃ old, s.contexts ctx.proposalId = some old ∧ old.submitted = false ∧
      old.challengeCount = ctx.challengeCount

inductive Steps (r : Reviewer) (s : State) : State → Prop
  | ignored : Steps r s s
  | stored {ctx : ReviewContext} (takes : Takes s ctx) : Steps r s (s.store ctx)
  | escalated {ctx : ReviewContext} {saga : Saga} (takes : Takes s ctx) :
      Steps r s ((s.store ctx).submit ctx .needsHuman saga)
  | reviewed {ctx : ReviewContext} {decision verdict : Decision} {saga : Saga}
      (takes : Takes s ctx) (few : ctx.challengeCount < 2)
      (decided : r.verdict ctx decision = some verdict) :
      Steps r s ((s.store ctx).submit ctx verdict saga)

/-- A submission of a review: nothing, or a verdict on the proposal's context. -/
theorem handleSubmitVerdict_spec (r : Reviewer) (decision : Option Decision) (saga : Saga)
    (hctx : t.contexts p = some ctx) : r.handleSubmitVerdict t p decision saga = t ∨
      ∃ chosen verdict saga', r.verdict ctx chosen = some verdict ∧
        r.handleSubmitVerdict t p decision saga = t.submit ctx verdict saga' := by
  unfold Reviewer.handleSubmitVerdict
  rw [hctx]
  cases decision with
  | none => exact .inl rfl
  | some chosen =>
    simp only
    split_ifs with hsubmitted
    · exact .inl rfl
    · cases hverdict : r.verdict ctx chosen with
      | none => exact .inl rfl
      | some verdict => exact .inr ⟨chosen, verdict, _, hverdict, rfl⟩

theorem review_spec (r : Reviewer) (saga : Saga) (review : Reviewer.Review)
    (hctx : t.contexts p = some ctx) : r.review t p saga review = t ∨
      ∃ chosen verdict saga', r.verdict ctx chosen = some verdict ∧
        r.review t p saga review = t.submit ctx verdict saga' := by
  cases review with
  | tool decision => exact handleSubmitVerdict_spec r decision saga hctx
  | rules =>
    simp only [Reviewer.review, Reviewer.runLocalSafetyReview]
    rw [hctx]
    simp only
    split_ifs with hsubmitted
    · exact .inl rfl
    · cases hcheck : crossCheckAssessment r.numbers ctx.assessment with
      | none => exact .inl rfl
      | some check => exact handleSubmitVerdict_spec r _ saga hctx

theorem accepts_proposalId {m : Message} {stale : Bool} {card : Dict} {a : Assessment}
    (h : r.accepts m stale = some (card, a)) :
    textOf (getOr card "proposal_id" (.str [])) = a.proposalId := by
  unfold Reviewer.accepts at h
  split_ifs at h
  obtain ⟨found, -, hfound⟩ := Option.bind_eq_some_iff.mp h
  split_ifs at hfound
  obtain ⟨a', hvalid, heq⟩ := Option.map_eq_some_iff.mp hfound
  obtain ⟨rfl, rfl⟩ := Prod.mk.inj heq
  rw [getOr, r.validate_proposalId _ _ hvalid]
  rfl

theorem step_review (d : Reviewer.Delivery) (takes : Takes s ctx) (few : ctx.challengeCount < 2) :
    Steps r s (r.review (s.store ctx) ctx.proposalId d.saga d.review) := by
  rcases review_spec r d.saga d.review State.store_self with hsame | hverdict
  · rw [hsame]
    exact .stored takes
  · obtain ⟨chosen, verdict, saga, hdecided, heq⟩ := hverdict
    rw [heq]
    exact .reviewed takes few hdecided

theorem step_steps (d : Reviewer.Delivery)
    (keyed : ∀ p ctx, s.contexts p = some ctx → ctx.proposalId = p) :
    Steps r s (r.step s d) := by
  unfold Reviewer.step Reviewer.process
  cases haccepts : r.accepts d.message d.stale with
  | none => exact .ignored
  | some found =>
    obtain ⟨card, a⟩ := found
    have hid := accepts_proposalId haccepts
    simp only [Reviewer.takeAssessment, hid]
    cases hexisting : s.contexts a.proposalId with
    | none => exact step_review d ⟨rfl, .inl ⟨hexisting, rfl⟩⟩ Nat.two_pos
    | some existing =>
      simp only
      split_ifs with hsubmitted hnewer hcount
      · exact .ignored
      · have hkey := keyed _ _ hexisting
        refine .escalated ⟨?_, .inr ⟨existing, ?_, ?_, rfl⟩⟩
        · simpa using hsubmitted
        · rw [← hexisting, ← hkey]
        · simpa using hsubmitted
      · refine step_review d ⟨rfl, .inr ⟨existing, hexisting, ?_, rfl⟩⟩ (by simpa using hcount)
        simpa using hsubmitted
      · exact .ignored

end Steps

end Concordia.Verity
