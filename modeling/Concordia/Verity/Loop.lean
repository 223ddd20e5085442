import Concordia.Verity.Review
import Concordia.Gateway.Models

/-! What Verity's review loop keeps over every sequence of deliveries, as long as no posted verdict
is left without an answer and no cap waives anything. -/
namespace Concordia.Verity
open Concordia.Python Concordia.Shared.CardIntake
open Concordia.Js hiding Value

namespace State

def publishedOf (s : State) (p : Str) : List Publication :=
  s.published.filter fun e => e.proposalId = p

/-- The confirmed challenges of a proposal. -/
def challengesOf (s : State) (p : Str) : Nat :=
  s.confirmed.countP fun e => e.proposalId = p && e.decision = .challenge

/-- Those whose confirmation was answered. -/
def answeredChallengesOf (s : State) (p : Str) : Nat :=
  s.confirmed.countP fun e => e.proposalId = p && e.decision = .challenge && e.answered

end State

/-- At most two challenges, nothing behind a final verdict, and no confirmation of an assessment
with an issue that its revision does not answer. -/
structure Strict (r : Reviewer) (s : State) (p : Str) : Prop where
  bounded : s.challengesOf p ≤ 2
  final : ∀ before e after, s.publishedOf p = before ++ e :: after → e.decision ≠ .challenge →
    after = []
  cleared : ∀ before e after, s.publishedOf p = before ++ e :: after → e.decision = .confirm →
    ∃ check, crossCheckAssessment r.numbers e.assessment = some check ∧
      (check.issues = [] ∨ (∃ c ∈ before, c.decision = .challenge) ∧
        revisedPolicyCapReady r.numbers check 1 = true ∧
        ∀ issue ∈ check.issues, issue.isConstitution = true)

/-- The same of the verdicts whose confirmation was answered, where a capped revision that was
challenged before may have any issue. -/
structure Sound (r : Reviewer) (s : State) (p : Str) : Prop where
  bounded : s.answeredChallengesOf p ≤ 2
  final : ∀ before e after, s.publishedOf p = before ++ e :: after → e.decision ≠ .challenge →
    e.answered = true → after = []
  cleared : ∀ before e after, s.publishedOf p = before ++ e :: after → e.decision = .confirm →
    ∃ check, crossCheckAssessment r.numbers e.assessment = some check ∧
      (check.issues = [] ∨ (∃ c ∈ before, c.decision = .challenge ∧ c.answered = true) ∧
        revisedPolicyCapReady r.numbers check 1 = true)

/-- What holds of a proposal with this context. -/
structure ContextInv (s : State) (ctx : ReviewContext) : Prop where
  counted : s.answeredChallengesOf ctx.proposalId ≤ ctx.challengeCount
  few : ctx.challengeCount ≤ 2
  pending : ctx.submitted = false → ∀ e ∈ s.publishedOf ctx.proposalId, e.answered = true →
    e.decision = .challenge
  challenged : 1 ≤ ctx.challengeCount →
    ∃ c ∈ s.publishedOf ctx.proposalId, c.decision = .challenge ∧ c.answered = true

structure Inv (r : Reviewer) (s : State) : Prop where
  keyed : ∀ p ctx, s.contexts p = some ctx → ctx.proposalId = p
  unknown : ∀ p, s.contexts p = none → s.publishedOf p = [] ∧ s.answeredChallengesOf p = 0
  known : ∀ p ctx, s.contexts p = some ctx → ContextInv s ctx
  sound : ∀ p, Sound r s p

section Invariant
variable {r : Reviewer} {s t : State} {ctx : ReviewContext} {p : Str} {d : Reviewer.Delivery}

theorem inv_initial (r : Reviewer) : Inv r .initial where
  keyed _ _ h := by cases h
  unknown _ _ := ⟨rfl, rfl⟩
  known _ _ h := by cases h
  sound _ := by
    refine ⟨Nat.zero_le 2, ?_, ?_⟩
    · intro before e after h
      cases (List.append_eq_nil_iff.mp h.symm).2
    · intro before e after h
      cases (List.append_eq_nil_iff.mp h.symm).2

/-- A context that takes its place stands where the one before it stood. -/
theorem Inv.taken (inv : Inv r s) (takes : Takes s ctx) : ContextInv s ctx := by
  rcases takes.place with ⟨hnone, hcount⟩ | ⟨old, hold, hopen, hcount⟩
  · obtain ⟨hempty, hzero⟩ := inv.unknown _ hnone
    refine ⟨by omega, by omega, ?_, by omega⟩
    rw [hempty]
    exact fun _ e he => absurd he List.not_mem_nil
  · have hinv := inv.known _ old hold
    have hkey := inv.keyed _ old hold
    obtain ⟨counted, few, pending, challenged⟩ := hinv
    rw [hkey, hcount] at counted
    rw [hcount] at few
    rw [hkey] at pending challenged
    rw [hcount] at challenged
    exact ⟨counted, few, fun _ => pending hopen, challenged⟩

theorem Inv.store (inv : Inv r s) (takes : Takes s ctx) : Inv r (s.store ctx) := by
  refine ⟨?_, ?_, ?_, ?_⟩
  · intro p c hc
    by_cases hp : p = ctx.proposalId
    · subst hp
      rw [State.store_self] at hc
      rw [← Option.some.inj hc]
    · exact inv.keyed p c (by rwa [State.store_other hp] at hc)
  · intro p hnone
    by_cases hp : p = ctx.proposalId
    · subst hp
      rw [State.store_self] at hnone
      cases hnone
    · exact inv.unknown p (by rwa [State.store_other hp] at hnone)
  · intro p c hc
    by_cases hp : p = ctx.proposalId
    · subst hp
      rw [State.store_self] at hc
      obtain rfl := Option.some.inj hc
      have htaken := inv.taken takes
      exact ⟨htaken.counted, htaken.few, htaken.pending, htaken.challenged⟩
    · have hknown := inv.known p c (by rwa [State.store_other hp] at hc)
      exact ⟨hknown.counted, hknown.few, hknown.pending, hknown.challenged⟩
  · intro p
    obtain ⟨bounded, final, cleared⟩ := inv.sound p
    exact ⟨bounded, final, cleared⟩

/-! What a submission that posts its message leaves behind. -/

def ReviewContext.entry (ctx : ReviewContext) (verdict : Decision) (saga : Saga) : Publication :=
  ⟨ctx.proposalId, verdict, ctx.assessment, saga = .confirmed⟩

/-- The context after it. -/
def ReviewContext.after (ctx : ReviewContext) (verdict : Decision) (saga : Saga) : ReviewContext :=
  if saga = .confirmed then ctx.settled verdict else ctx

variable {verdict : Decision} {saga : Saga}

theorem settled_proposalId : (ctx.settled verdict).proposalId = ctx.proposalId := by
  unfold ReviewContext.settled
  split_ifs <;> rfl

theorem after_proposalId : (ctx.after verdict saga).proposalId = ctx.proposalId := by
  unfold ReviewContext.after
  split_ifs
  · exact settled_proposalId
  · rfl

theorem submit_published : (t.submit ctx verdict saga).published =
    t.published ++ if saga.posts then [ctx.entry verdict saga] else [] := by
  cases saga <;> rfl

theorem submit_confirmed : (t.submit ctx verdict saga).confirmed =
    t.confirmed ++ if saga.confirms then [ctx.entry verdict saga] else [] := by
  cases saga <;> rfl

theorem submit_self (h : t.contexts ctx.proposalId = some ctx) :
    (t.submit ctx verdict saga).contexts ctx.proposalId = some (ctx.after verdict saga) := by
  unfold State.submit ReviewContext.after
  split_ifs with hsaga
  · have hself := @State.store_self (t.record ctx verdict saga) (ctx.settled verdict)
    rwa [settled_proposalId] at hself
  · exact h

theorem submit_other (h : p ≠ ctx.proposalId) :
    (t.submit ctx verdict saga).contexts p = t.contexts p := by
  unfold State.submit
  split_ifs with hsaga
  · rw [← @settled_proposalId ctx verdict] at h
    exact @State.store_other (t.record ctx verdict saga) (ctx.settled verdict) p h
  · rfl

theorem publishedOf_self (h : saga.posts = true) :
    (t.submit ctx verdict saga).publishedOf ctx.proposalId =
      t.publishedOf ctx.proposalId ++ [ctx.entry verdict saga] := by
  rw [State.publishedOf, submit_published, if_pos h, List.filter_append]
  simp [State.publishedOf, ReviewContext.entry]

theorem publishedOf_other (h : p ≠ ctx.proposalId) :
    (t.submit ctx verdict saga).publishedOf p = t.publishedOf p := by
  rw [State.publishedOf, submit_published, List.filter_append]
  split_ifs <;> simp [State.publishedOf, ReviewContext.entry, h.symm]

/-- Only an answered confirmation of a challenge counts. -/
theorem answeredChallengesOf_self :
    (t.submit ctx verdict saga).answeredChallengesOf ctx.proposalId =
      t.answeredChallengesOf ctx.proposalId +
        if saga = .confirmed ∧ verdict = .challenge then 1 else 0 := by
  rw [State.answeredChallengesOf, submit_confirmed, List.countP_append]
  by_cases hverdict : verdict = .challenge <;> cases saga <;>
    simp [State.answeredChallengesOf, ReviewContext.entry, Saga.confirms, hverdict]

theorem answeredChallengesOf_other (h : p ≠ ctx.proposalId) :
    (t.submit ctx verdict saga).answeredChallengesOf p = t.answeredChallengesOf p := by
  rw [State.answeredChallengesOf, submit_confirmed, List.countP_append]
  split_ifs <;> simp [State.answeredChallengesOf, ReviewContext.entry, h.symm]

/-- Where an entry of a list with one more at its end stands. -/
theorem concat_split {L before after : List Publication} {e last : Publication}
    (h : L ++ [last] = before ++ e :: after) :
    (before = L ∧ e = last) ∨ ∃ front, L = before ++ e :: front := by
  rcases List.eq_nil_or_concat after with rfl | ⟨front, x, rfl⟩
  · obtain ⟨hbefore, hlast⟩ := List.append_inj' h rfl
    exact .inl ⟨hbefore.symm, (List.singleton_inj.mp hlast).symm⟩
  · have hsplit : L ++ [last] = (before ++ e :: front) ++ [x] := by
      rw [h]
      simp
    exact .inr ⟨front, (List.append_inj' hsplit rfl).1⟩

theorem cap_challenged {check : CrossCheck} {count : Nat}
    (h : revisedPolicyCapReady r.numbers check count = true) :
    1 ≤ count ∧ revisedPolicyCapReady r.numbers check 1 = true := by
  simp only [revisedPolicyCapReady, Bool.and_eq_true, decide_eq_true_eq] at h ⊢
  obtain ⟨⟨⟨⟨⟨⟨⟨hcount, h1⟩, h2⟩, h3⟩, h4⟩, h5⟩, h6⟩, h7⟩ := h
  exact ⟨hcount, ⟨⟨⟨⟨⟨⟨⟨le_rfl, h1⟩, h2⟩, h3⟩, h4⟩, h5⟩, h6⟩, h7⟩⟩

/-- A verdict that the review can submit on this context. -/
structure Submits (r : Reviewer) (ctx : ReviewContext) (verdict : Decision) : Prop where
  unsubmitted : ctx.submitted = false
  few : verdict = .challenge → ctx.challengeCount < 2
  cleared : verdict = .confirm →
    ∃ check, crossCheckAssessment r.numbers ctx.assessment = some check ∧
      (check.issues = [] ∨ revisedPolicyCapReady r.numbers check ctx.challengeCount = true)

theorem ContextInv.submit (hinv : ContextInv t ctx) (submits : Submits r ctx verdict)
    (hposts : saga.posts = true) :
    ContextInv (t.submit ctx verdict saga) (ctx.after verdict saga) := by
  obtain ⟨counted, few, pending, challenged⟩ := hinv
  by_cases hsaga : saga = .confirmed
  · by_cases hverdict : verdict = .challenge
    · have hafter : ctx.after verdict saga =
          { ctx with challengeCount := ctx.challengeCount + 1 } := by
        rw [ReviewContext.after, if_pos hsaga, ReviewContext.settled, if_pos hverdict]
      have hroom := submits.few hverdict
      rw [hafter]
      refine ⟨?_, by simp only; omega, ?_, ?_⟩
      · simp only [answeredChallengesOf_self, if_pos (And.intro hsaga hverdict)]
        omega
      · intro hopen e he hanswered
        rw [publishedOf_self hposts] at he
        rcases List.mem_append.mp he with he | he
        · exact pending submits.unsubmitted e he hanswered
        · rw [List.mem_singleton.mp he]
          exact hverdict
      · intro _
        rw [publishedOf_self hposts]
        refine ⟨ctx.entry verdict saga, by simp, hverdict, ?_⟩
        exact decide_eq_true hsaga
    · have hafter : ctx.after verdict saga = { ctx with submitted := true } := by
        rw [ReviewContext.after, if_pos hsaga, ReviewContext.settled, if_neg hverdict]
      rw [hafter]
      refine ⟨?_, few, fun hopen => (by cases hopen), ?_⟩
      · have hno : ¬ (saga = .confirmed ∧ verdict = .challenge) := fun h => hverdict h.2
        simp only [answeredChallengesOf_self, if_neg hno]
        omega
      · intro hcount
        obtain ⟨c, hc, hdecision⟩ := challenged hcount
        rw [publishedOf_self hposts]
        exact ⟨c, List.mem_append_left _ hc, hdecision⟩
  · have hafter : ctx.after verdict saga = ctx := by
      rw [ReviewContext.after, if_neg hsaga]
    rw [hafter]
    refine ⟨?_, few, ?_, ?_⟩
    · have hno : ¬ (saga = .confirmed ∧ verdict = .challenge) := fun h => hsaga h.1
      rw [answeredChallengesOf_self, if_neg hno]
      exact counted
    · intro hopen e he hanswered
      rw [publishedOf_self hposts] at he
      rcases List.mem_append.mp he with he | he
      · exact pending hopen e he hanswered
      · rw [List.mem_singleton.mp he] at hanswered
        exact absurd (of_decide_eq_true hanswered) hsaga
    · intro hcount
      obtain ⟨c, hc, hdecision⟩ := challenged hcount
      rw [publishedOf_self hposts]
      exact ⟨c, List.mem_append_left _ hc, hdecision⟩

theorem Sound.submit (sound : Sound r t ctx.proposalId) (hinv : ContextInv t ctx)
    (submits : Submits r ctx verdict) (hposts : saga.posts = true) :
    Sound r (t.submit ctx verdict saga) ctx.proposalId where
  bounded := by
    have hafter := hinv.submit submits hposts
    have hcounted := hafter.counted
    rw [after_proposalId] at hcounted
    exact hcounted.trans hafter.few
  final before e after heq he hanswered := by
    rw [publishedOf_self hposts] at heq
    rcases concat_split heq with ⟨rfl, rfl⟩ | ⟨front, hfront⟩
    · simpa using heq
    · have hmem : e ∈ t.publishedOf ctx.proposalId := by
        rw [hfront]
        simp
      exact absurd (hinv.pending submits.unsubmitted e hmem hanswered) he
  cleared before e after heq hconfirm := by
    rw [publishedOf_self hposts] at heq
    rcases concat_split heq with ⟨rfl, rfl⟩ | ⟨front, hfront⟩
    · obtain ⟨check, hcheck, hissues⟩ := submits.cleared hconfirm
      refine ⟨check, hcheck, ?_⟩
      rcases hissues with hnone | hready
      · exact .inl hnone
      · obtain ⟨hcount, hone⟩ := cap_challenged hready
        exact .inr ⟨hinv.challenged hcount, hone⟩
    · exact sound.cleared before e front hfront hconfirm

theorem Inv.submit (inv : Inv r t) (hctx : t.contexts ctx.proposalId = some ctx)
    (submits : Submits r ctx verdict) (hposts : saga.posts = true) :
    Inv r (t.submit ctx verdict saga) := by
  have hinv := inv.known _ ctx hctx
  refine ⟨?_, ?_, ?_, ?_⟩
  · intro p c hc
    by_cases hp : p = ctx.proposalId
    · subst hp
      rw [submit_self hctx] at hc
      rw [← Option.some.inj hc, after_proposalId]
    · exact inv.keyed p c (by rwa [submit_other hp] at hc)
  · intro p hnone
    by_cases hp : p = ctx.proposalId
    · subst hp
      rw [submit_self hctx] at hnone
      cases hnone
    · rw [publishedOf_other hp, answeredChallengesOf_other hp]
      exact inv.unknown p (by rwa [submit_other hp] at hnone)
  · intro p c hc
    by_cases hp : p = ctx.proposalId
    · subst hp
      rw [submit_self hctx] at hc
      rw [← Option.some.inj hc]
      exact hinv.submit submits hposts
    · rw [submit_other hp] at hc
      obtain ⟨counted, few, pending, challenged⟩ := inv.known p c hc
      have hkey := inv.keyed p c hc
      rw [← hkey] at hp
      refine ⟨?_, few, ?_, ?_⟩
      · rwa [answeredChallengesOf_other hp]
      · rwa [publishedOf_other hp]
      · rwa [publishedOf_other hp]
  · intro p
    by_cases hp : p = ctx.proposalId
    · subst hp
      exact (inv.sound _).submit hinv submits hposts
    · obtain ⟨bounded, final, cleared⟩ := inv.sound p
      refine ⟨?_, ?_, ?_⟩
      · rwa [answeredChallengesOf_other hp]
      · rwa [publishedOf_other hp]
      · rwa [publishedOf_other hp]

theorem verdict_cleared {decision : Decision} (h : r.verdict ctx decision = some verdict)
    (hconfirm : verdict = .confirm) :
    ∃ check, crossCheckAssessment r.numbers ctx.assessment = some check ∧
      (check.issues = [] ∨ revisedPolicyCapReady r.numbers check ctx.challengeCount = true) := by
  obtain ⟨check, hcheck, hverdict⟩ := Option.map_eq_some_iff.mp h
  refine ⟨check, hcheck, ?_⟩
  rw [hconfirm] at hverdict
  cases hready : revisedPolicyCapReady r.numbers check ctx.challengeCount with
  | true => exact .inr rfl
  | false =>
    -- the override has not struck, so there is no issue
    cases hissues : check.issues with
    | nil => exact .inl rfl
    | cons issue issues =>
      rw [hready, hissues] at hverdict
      cases hforced : ctx.forceNeedsHuman with
      | true => simp [hforced] at hverdict
      | false =>
        simp only [hforced, List.isEmpty_cons, Bool.not_false, Bool.true_and, Bool.and_true,
          decide_eq_true_eq, Bool.false_eq_true, if_false] at hverdict
        split_ifs at hverdict with hdecision
        exact absurd hverdict hdecision

/-- Taking a context and submitting a verdict on it; one that posts nothing leaves no trace. -/
theorem Inv.store_submit (inv : Inv r s) (takes : Takes s ctx) (submits : Submits r ctx verdict) :
    Inv r ((s.store ctx).submit ctx verdict saga) := by
  cases hposts : saga.posts with
  | false =>
    rw [State.submit_idle hposts]
    exact inv.store takes
  | true => exact (inv.store takes).submit State.store_self submits hposts

theorem Inv.step (inv : Inv r s) (d : Reviewer.Delivery) : Inv r (r.step s d) := by
  have hsteps := @step_steps r s d inv.keyed
  generalize r.step s d = u at hsteps ⊢
  cases hsteps with
  | ignored => exact inv
  | stored takes => exact inv.store takes
  | escalated takes =>
    exact inv.store_submit takes ⟨takes.unsubmitted, fun h => (by cases h), fun h => (by cases h)⟩
  | reviewed takes few decided =>
    exact inv.store_submit takes ⟨takes.unsubmitted, fun _ => few, verdict_cleared decided⟩

end Invariant

def Reviewer.run (r : Reviewer) (deliveries : List Reviewer.Delivery) : State :=
  deliveries.foldl r.step .initial

theorem run_inv (r : Reviewer) (deliveries : List Reviewer.Delivery) : Inv r (r.run deliveries) := by
  have hfold : ∀ s, Inv r s → Inv r (deliveries.foldl r.step s) := by
    induction deliveries with
    | nil => exact fun s hs => hs
    | cons d deliveries ih => exact fun s hs => ih _ (hs.step d)
  exact hfold .initial (inv_initial r)

/-- Whatever is delivered, reviewed and lost: the answered verdicts are bounded and end the
review, and a confirmation is clear or capped. -/
theorem review_loop_sound (r : Reviewer) (deliveries : List Reviewer.Delivery) (p : Str) :
    Sound r (r.run deliveries) p := (run_inv r deliveries).sound p

section Samples
open Concordia.Gateway (sampleFloats)

/-- Whole numbers, and floats below one with one digit behind the point. -/
def sampleNumbers : Numbers where
  atLeast
    | .float a, .float b => strLe b a
    | _, _ => false
  less
    | .int a, .int b => a < b
    | _, _ => false

/-- The validation of cards like the ones below. -/
def sampleValidate (card : Dict) : Option Assessment :=
  match card.lookup (js "proposal_id"), card.lookup (js "revision"), card.lookup (js "evidence") with
  | some (.str proposalId), some (.int revision), some (.dict evidence) =>
    some ⟨proposalId, .low, js "1.0", js "A treasury transfer failed", evidence, revision⟩
  | _, _, _ => none

def sampleReviewer : Reviewer where
  floats := sampleFloats
  numbers := sampleNumbers
  reviewerAgentId := js "verity"
  diagnosisAgentId := js "mercer"
  commanderAgentId := js "locke"
  humanApproverIds := [js "ann"]
  laterApproverIds := []
  activeProposals := []
  validate := sampleValidate
  validate_proposalId card a h := by
    unfold sampleValidate at h
    split at h
    · next hid _ _ =>
      rw [hid, ← Option.some.inj h]
    · cases h

def sampleItems (revision : Int) (evidence : Dict) : Dict :=
  [(js "card_type", .str (js "Assessment")), (js "proposal_id", .str (js "p")),
    (js "severity", .str (js "low")), (js "evidence_strength", .int 1),
    (js "root_cause_hypothesis", .str (js "A treasury transfer failed")),
    (js "revision", .int revision), (js "evidence", .dict evidence),
    (js "sequence_number", .int 1), (js "card_hash", .str (js "h"))]

theorem sampleItems_nodup (revision : Int) (evidence : Dict) :
    ((sampleItems revision evidence).map Prod.fst).Nodup := by
  have hkeys : (sampleItems revision evidence).map Prod.fst =
      (sampleItems 1 []).map Prod.fst := rfl
  rw [hkeys]
  decide

/-- A sealed assessment as the diagnosis agent sends it. -/
def sampleCard (revision : Int) (evidence : Dict) (h : WellFormed sampleFloats (.dict evidence)) :
    SealedCard sampleFloats where
  items := sampleItems revision evidence
  wellFormed := ⟨sampleItems_nodup revision evidence, trivial, trivial, trivial, trivial, trivial, trivial, h, trivial,
    trivial, trivial⟩
  typed := rfl
  cardHash := js "h"
  hashed := rfl

def sampleDelivery (revision : Int) (evidence : Dict) (saga : Saga) : Reviewer.Delivery where
  message := ⟨js "mercer", js "Agent", js "room", js "m", cardBlock (sampleItems revision evidence)⟩
  stale := false
  review := .rules
  saga

def sampleAssessment (revision : Int) (evidence : Dict) : Assessment :=
  ⟨js "p", .low, js "1.0", js "A treasury transfer failed", evidence, revision⟩

theorem sample_accepts (revision : Int) (evidence : Dict) (saga : Saga)
    (h : WellFormed sampleFloats (.dict evidence)) :
    sampleReviewer.accepts (sampleDelivery revision evidence saga).message false =
      some (sampleItems revision evidence, sampleAssessment revision evidence) := by
  have hextract : extractSealedCard sampleFloats (cardBlock (sampleItems revision evidence)) =
      some (sampleItems revision evidence) :=
    @extract_closed sampleFloats (sampleCard revision evidence h) [] rfl rfl
  have hguards : sampleReviewer.guards (sampleDelivery revision evidence saga).message
      (sampleItems revision evidence) false = true := rfl
  have hvalid : sampleReviewer.validate (sampleItems revision evidence) =
      some (sampleAssessment revision evidence) := rfl
  have hsender : (sampleDelivery revision evidence saga).message.senderId ≠
      sampleReviewer.reviewerAgentId := (by decide : js "mercer" ≠ js "verity")
  rw [Reviewer.accepts, if_neg hsender]
  change (extractSealedCard sampleFloats (cardBlock (sampleItems revision evidence))).bind _ = _
  rw [hextract, Option.bind_some, if_pos hguards, hvalid]
  rfl

theorem sample_step (s : State) (revision : Int) (evidence : Dict) (saga : Saga)
    (h : WellFormed sampleFloats (.dict evidence)) :
    sampleReviewer.step s (sampleDelivery revision evidence saga) =
      sampleReviewer.delegate (sampleDelivery revision evidence saga)
        (sampleReviewer.takeAssessment s (sampleDelivery revision evidence saga).message
          (sampleItems revision evidence) (sampleAssessment revision evidence) saga) := by
  have haccepts := sample_accepts revision evidence saga h
  rw [Reviewer.step, Reviewer.process]
  rw [show (sampleDelivery revision evidence saga).stale = false from rfl, haccepts]
  rfl

/-- Evidence without an issue. -/
def cleanEvidence : Dict :=
  [(js "tools_completed", .list (requiredEvidenceSources.map fun source => .str (js source)))]

/-- A capped revision without any evidence. -/
def cappedEvidence : Dict :=
  [(js "challenge_response", .str (js "capped")),
    (js "policy_evaluation", .dict [(js "approved_allocation_bps", .int 500),
      (js "requested_allocation_bps", .int 900), (js "dissent_hash", .str (js "d")),
      (js "dissent_receipt", .dict [(js "by", .str (js "verity"))])])]

theorem noEvidence_wellFormed : WellFormed sampleFloats (.dict []) := ⟨List.nodup_nil, trivial⟩

theorem cleanEvidence_wellFormed : WellFormed sampleFloats (.dict cleanEvidence) :=
  ⟨by decide, ⟨trivial, trivial, trivial, trivial, trivial, trivial⟩, trivial⟩

theorem cappedEvidence_wellFormed : WellFormed sampleFloats (.dict cappedEvidence) :=
  ⟨by decide, trivial, ⟨by decide, trivial, trivial, trivial, ⟨by decide, trivial, trivial⟩,
    trivial⟩, trivial⟩

/-- Three challenges are confirmed, and each answer is lost. -/
def lostChallenges : State :=
  sampleReviewer.run [sampleDelivery 1 [] .lost, sampleDelivery 2 [] .lost,
    sampleDelivery 3 [] .lost]

theorem lostChallenges_count : lostChallenges.challengesOf (js "p") = 3 := by
  simp only [lostChallenges, Reviewer.run, List.foldl_cons, List.foldl_nil,
    sample_step _ _ _ _ noEvidence_wellFormed]
  decide +kernel

/-- A verdict is posted and not confirmed, and the next revision gets another. -/
def postedTwice : State :=
  sampleReviewer.run [sampleDelivery 1 cleanEvidence .posted,
    sampleDelivery 2 cleanEvidence .confirmed]

theorem postedTwice_decisions : (postedTwice.publishedOf (js "p")).map (·.decision) =
    [.confirm, .confirm] := by
  simp only [postedTwice, Reviewer.run, List.foldl_cons, List.foldl_nil,
    sample_step _ _ _ _ cleanEvidence_wellFormed]
  decide +kernel

/-- A capped revision is confirmed without any evidence. -/
def cappedAnyway : State :=
  sampleReviewer.run [sampleDelivery 1 [] .confirmed, sampleDelivery 2 cappedEvidence .confirmed]

theorem cappedAnyway_decisions : (cappedAnyway.publishedOf (js "p")).map (fun e => (e.decision,
    (crossCheckAssessment sampleNumbers e.assessment).map fun check =>
      check.issues.any fun issue => !issue.isConstitution)) =
    [(.challenge, some true), (.confirm, some true)] := by
  simp only [cappedAnyway, Reviewer.run, List.foldl_cons, List.foldl_nil,
    sample_step _ _ _ _ noEvidence_wellFormed, sample_step _ _ _ _ cappedEvidence_wellFormed]
  decide +kernel

/-- What the loop does not keep: the bound when answers are lost, the one verdict when a posted one
is not confirmed, and the cross-check when a cap is ready. -/
theorem review_loop_broken : ¬ Strict sampleReviewer lostChallenges (js "p") ∧
    ¬ Strict sampleReviewer postedTwice (js "p") ∧ ¬ Strict sampleReviewer cappedAnyway (js "p") := by
  refine ⟨?_, ?_, ?_⟩
  · intro h
    have hbound := h.bounded
    rw [lostChallenges_count] at hbound
    omega
  · intro h
    obtain ⟨first, rest, hpublished, hfirst, hrest⟩ := List.map_eq_cons_iff.mp postedTwice_decisions
    obtain ⟨second, behind, rfl, -, -⟩ := List.map_eq_cons_iff.mp hrest
    have hnone := h.final [] first _ hpublished (by rw [hfirst]; decide)
    cases hnone
  · intro h
    obtain ⟨first, rest, hpublished, -, hrest⟩ := List.map_eq_cons_iff.mp cappedAnyway_decisions
    obtain ⟨second, behind, rfl, hsecond, -⟩ := List.map_eq_cons_iff.mp hrest
    obtain ⟨hconfirm, hissues⟩ := Prod.mk.inj hsecond
    obtain ⟨check, hcheck, hclear⟩ := h.cleared [first] second behind hpublished hconfirm
    have hcheck' : crossCheckAssessment sampleNumbers second.assessment = some check := hcheck
    rw [hcheck', Option.map_some, Option.some.injEq, List.any_eq_true] at hissues
    obtain ⟨issue, hissue, hother⟩ := hissues
    rcases hclear with hnone | ⟨-, -, hall⟩
    · rw [hnone] at hissue
      cases hissue
    · rw [hall issue hissue] at hother
      cases hother

end Samples

end Concordia.Verity
