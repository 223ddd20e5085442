import Concordia.Mercer.Diagnosis

/-! The trail of assessments. Each revision of a diagnosis is published once, on the word of all
five tools, and only an answered one can be challenged into the next. -/
namespace Concordia.Mercer
open Concordia.Python Concordia.Shared.CardIntake
open Concordia.Verity (Message Saga Severity Numbers textOf)
open Concordia.Js hiding Value
open Agent (Delivery)

section Gathering
variable (ctx : ProposalContext) (outcomes : Tool → Option Dict)

/-- What one tool leaves in the context. -/
def ProposalContext.take (tool : Tool) : ProposalContext :=
  match outcomes tool with
  | some data => ctx.cache tool data
  | none => ctx

def ProposalContext.gather (tools : List Tool) : ProposalContext :=
  tools.foldl (fun ctx tool => ctx.take outcomes tool) ctx

@[simp] theorem take_proposalId (tool : Tool) : (ctx.take outcomes tool).proposalId = ctx.proposalId := by
  cases h : outcomes tool with
  | none => simp [ProposalContext.take, h]
  | some data => simp [ProposalContext.take, h, ProposalContext.cache]

@[simp] theorem take_submitted (tool : Tool) : (ctx.take outcomes tool).submitted = ctx.submitted := by
  cases h : outcomes tool with
  | none => simp [ProposalContext.take, h]
  | some data => simp [ProposalContext.take, h, ProposalContext.cache]

@[simp] theorem take_revision (tool : Tool) : (ctx.take outcomes tool).revision = ctx.revision := by
  cases h : outcomes tool with
  | none => simp [ProposalContext.take, h]
  | some data => simp [ProposalContext.take, h, ProposalContext.cache]

theorem take_results (tool other : Tool) : (ctx.take outcomes tool).toolResults other =
    if other = tool then (outcomes tool).or (ctx.toolResults tool) else ctx.toolResults other := by
  cases h : outcomes tool with
  | none =>
    by_cases heq : other = tool
    · simp [ProposalContext.take, h, heq]
    · simp [ProposalContext.take, h, heq]
  | some data => simp [ProposalContext.take, h, ProposalContext.cache, Function.update_apply]

theorem mem_take_completed (tool other : Tool) : other ∈ (ctx.take outcomes tool).toolsCompleted ↔
    other ∈ ctx.toolsCompleted ∨ other = tool ∧ outcomes tool ≠ none := by
  cases h : outcomes tool with
  | none => simp [ProposalContext.take, h]
  | some data =>
    simp only [ProposalContext.take, h, ProposalContext.cache, List.mem_insert_iff]
    constructor
    · rintro (rfl | hold)
      · exact .inr ⟨rfl, by simp⟩
      · exact .inl hold
    · rintro (hold | ⟨rfl, -⟩)
      · exact .inr hold
      · exact .inl rfl

variable {ctx outcomes}

@[simp] theorem gather_proposalId (tools : List Tool) :
    (ctx.gather outcomes tools).proposalId = ctx.proposalId := by
  induction tools generalizing ctx with
  | nil => rfl
  | cons tool tools ih => exact ih.trans (take_proposalId ctx outcomes tool)

@[simp] theorem gather_submitted (tools : List Tool) :
    (ctx.gather outcomes tools).submitted = ctx.submitted := by
  induction tools generalizing ctx with
  | nil => rfl
  | cons tool tools ih => exact ih.trans (take_submitted ctx outcomes tool)

@[simp] theorem gather_revision (tools : List Tool) :
    (ctx.gather outcomes tools).revision = ctx.revision := by
  induction tools generalizing ctx with
  | nil => rfl
  | cons tool tools ih => exact ih.trans (take_revision ctx outcomes tool)

theorem mem_gather_completed (tools : List Tool) (tool : Tool) :
    tool ∈ (ctx.gather outcomes tools).toolsCompleted ↔
      tool ∈ ctx.toolsCompleted ∨ tool ∈ tools ∧ outcomes tool ≠ none := by
  induction tools generalizing ctx with
  | nil => simp [ProposalContext.gather]
  | cons first tools ih =>
    have hrest : tool ∈ (ctx.gather outcomes (first :: tools)).toolsCompleted ↔
        tool ∈ (ctx.take outcomes first).toolsCompleted ∨ tool ∈ tools ∧ outcomes tool ≠ none := ih
    rw [hrest, mem_take_completed, List.mem_cons]
    constructor
    · rintro ((hold | ⟨rfl, hsome⟩) | ⟨hmem, hsome⟩)
      · exact .inl hold
      · exact .inr ⟨.inl rfl, hsome⟩
      · exact .inr ⟨.inr hmem, hsome⟩
    · rintro (hold | ⟨rfl | hmem, hsome⟩)
      · exact .inl (.inl hold)
      · exact .inl (.inr ⟨rfl, hsome⟩)
      · exact .inr ⟨hmem, hsome⟩

/-- The tools that are not asked leave their results alone. -/
theorem gather_results_of_notMem {tools : List Tool} {tool : Tool} (h : tool ∉ tools) :
    (ctx.gather outcomes tools).toolResults tool = ctx.toolResults tool := by
  induction tools generalizing ctx with
  | nil => rfl
  | cons first tools ih =>
    obtain ⟨hne, hrest⟩ : ¬ tool = first ∧ tool ∉ tools := by
      simpa only [List.mem_cons, not_or] using h
    refine (ih hrest).trans ?_
    rw [take_results, if_neg hne]

theorem gather_results_of_mem {tools : List Tool} {tool : Tool} (hnodup : tools.Nodup)
    (h : tool ∈ tools) : (ctx.gather outcomes tools).toolResults tool =
      (outcomes tool).or (ctx.toolResults tool) := by
  induction tools generalizing ctx with
  | nil => cases h
  | cons first tools ih =>
    obtain ⟨hfirst, htail⟩ := List.nodup_cons.mp hnodup
    have hstep : (ctx.gather outcomes (first :: tools)).toolResults tool =
        ((ctx.take outcomes first).gather outcomes tools).toolResults tool := rfl
    rw [hstep]
    rcases List.mem_cons.mp h with rfl | hmem
    · rw [gather_results_of_notMem hfirst, take_results, if_pos rfl]
    · have hne : tool ≠ first := by
        rintro rfl
        exact hfirst hmem
      rw [ih htail hmem, take_results, if_neg hne]

theorem requiredTools_nodup : requiredTools.Nodup := by decide

/-- A context that starts empty holds afterwards just what the tools said. -/
theorem gather_fresh (h : ctx.toolResults = fun _ => none) :
    (ctx.gather outcomes requiredTools).toolResults = outcomes := by
  funext tool
  rw [gather_results_of_mem requiredTools_nodup (mem_requiredTools tool), h, Option.or_none]

end Gathering

namespace State
variable {s : State} {ctx other : ProposalContext} {a : Assessment} {saga : Saga} {p : Str}

theorem store_contexts : (s.store ctx).contexts p =
    if p = ctx.proposalId then some ctx else s.contexts p := by
  simp [store, Function.update_apply]

@[simp] theorem store_published : (s.store ctx).published = s.published := rfl

@[simp] theorem store_publishedOf : (s.store ctx).publishedOf p = s.publishedOf p := rfl

theorem store_store (h : other.proposalId = ctx.proposalId) :
    (s.store ctx).store other = s.store other := by
  simp only [store, h, Function.update_idem]

theorem store_same (h : s.contexts ctx.proposalId = some ctx) : s.store ctx = s := by
  obtain ⟨contexts, published⟩ := s
  simp only [store] at h ⊢
  rw [← h, Function.update_eq_self]

end State

namespace Agent
variable {agent : Agent} {s : State} {d : Delivery} {ctx : ProposalContext} {p : Str}

theorem handleQuery_eq (h : s.contexts ctx.proposalId = some ctx) (tool : Tool)
    (outcomes : Tool → Option Dict) :
    handleQuery s ctx.proposalId tool (outcomes tool) = s.store (ctx.take outcomes tool) := by
  cases ho : outcomes tool with
  | none => simp [handleQuery, h, ProposalContext.take, ho, State.store_same h]
  | some data => simp [handleQuery, h, ProposalContext.take, ho]

/-- The queries fill the context and touch nothing else. -/
theorem queries_eq (outcomes : Tool → Option Dict) (tools : List Tool)
    (h : s.contexts ctx.proposalId = some ctx) :
    tools.foldl (fun s tool => handleQuery s ctx.proposalId tool (outcomes tool)) s =
      s.store (ctx.gather outcomes tools) := by
  induction tools generalizing s ctx with
  | nil => exact (State.store_same h).symm
  | cons tool tools ih =>
    have hid : (ctx.take outcomes tool).proposalId = ctx.proposalId := take_proposalId ..
    have hself : (s.store (ctx.take outcomes tool)).contexts (ctx.take outcomes tool).proposalId =
        some (ctx.take outcomes tool) := by
      rw [State.store_contexts, if_pos rfl]
    have hrest := ih hself
    rw [hid] at hrest
    rw [List.foldl_cons, handleQuery_eq h, hrest]
    exact State.store_store (gather_proposalId tools)

section Steps

/-- A context opens with a triage decision, and again under the next revision when its answered
assessment is challenged. -/
structure Opens (s : State) (ctx : ProposalContext) : Prop where
  unsubmitted : ctx.submitted = false
  unasked : ctx.toolResults = fun _ => none
  incomplete : ctx.toolsCompleted = []
  revised : s.contexts ctx.proposalId = none ∧ ctx.revision = 1 ∨
    ∃ old, s.contexts ctx.proposalId = some old ∧ old.submitted = true ∧
      ctx.revision = old.revision + 1

/-- What one delivery can do. -/
inductive Steps (agent : Agent) (s : State) (d : Delivery) : State → Prop
  | ignored : Steps agent s d s
  | opened {ctx : ProposalContext} (opens : Opens s ctx) :
      Steps agent s d (s.store (ctx.gather d.outcomes requiredTools))
  | submitted {ctx : ProposalContext} {a : Assessment} {saga : Saga} (opens : Opens s ctx)
      (complete : ∀ tool, d.outcomes tool ≠ none)
      (assessed : agent.assess (ctx.gather d.outcomes requiredTools) d.wording = some a) :
      Steps agent s d ((s.store (ctx.gather d.outcomes requiredTools)).submit
        (ctx.gather d.outcomes requiredTools) a saga)

theorem runLocalDiagnosis_steps {card : Dict} (opens : Opens s ctx)
    (hasked : askedFor card = some ctx.proposalId) :
    Steps agent s d (agent.runLocalDiagnosis (s.store ctx) card d) := by
  have hself : (s.store ctx).contexts ctx.proposalId = some ctx := by
    rw [State.store_contexts, if_pos rfl]
  have hquery : query (s.store ctx) ctx.proposalId d.outcomes =
      s.store (ctx.gather d.outcomes requiredTools) :=
    (queries_eq d.outcomes requiredTools hself).trans
      (State.store_store (gather_proposalId requiredTools))
  have hfilled : (s.store (ctx.gather d.outcomes requiredTools)).contexts ctx.proposalId =
      some (ctx.gather d.outcomes requiredTools) := by
    rw [State.store_contexts, if_pos (gather_proposalId requiredTools).symm]
  have hopen : (ctx.gather d.outcomes requiredTools).submitted = false :=
    (gather_submitted requiredTools).trans opens.unsubmitted
  simp only [runLocalDiagnosis, hasked, hself, opens.unsubmitted, Bool.false_eq_true, if_false,
    hquery, handleSubmitAssessment, hfilled, hopen]
  by_cases hmissing : (requiredTools.any fun tool =>
      tool ∉ (ctx.gather d.outcomes requiredTools).toolsCompleted) = true
  · rw [if_pos hmissing]
    exact .opened opens
  · rw [if_neg hmissing]
    have complete : ∀ tool, d.outcomes tool ≠ none := by
      intro tool hnone
      refine hmissing (List.any_eq_true.mpr ⟨tool, mem_requiredTools tool, ?_⟩)
      rw [decide_eq_true_eq, mem_gather_completed, opens.incomplete]
      rintro (hmem | ⟨-, hsome⟩)
      · cases hmem
      · exact hsome hnone
    cases hassess : agent.assess (ctx.gather d.outcomes requiredTools) d.wording with
    | none => exact .opened opens
    | some a => exact .submitted opens complete hassess

/-- What `process` leaves to the diagnosis is a context that it has just opened. -/
inductive Leaves (s : State) (card : Dict) : State × Bool → Prop
  | nothing : Leaves s card (s, false)
  | open {ctx : ProposalContext} (opens : Opens s ctx) (hasked : askedFor card = some ctx.proposalId) :
      Leaves s card (s.store ctx, true)

theorem askedFor_triage {card : Dict} (htype : textOf (getOr card "card_type" .none) = js "TriageDecision")
    (hp : card.lookup (js "proposal_id") = some (.str p)) : askedFor card = some p := by
  have hget : textOf (getOr card "proposal_id" (.str [])) = p := by
    simp [getOr, hp, textOf]
  simp only [askedFor, htype, hget, if_true]

theorem askedFor_challenge {card : Dict} (htype : textOf (getOr card "card_type" .none) = js "Verdict")
    (hdecision : card.lookup (js "decision") = some (.str (js "CHALLENGE")))
    (hp : card.lookup (js "proposal_id") = some (.str p)) : askedFor card = some p := by
  have hget : textOf (getOr card "proposal_id" (.str [])) = p := by
    simp [getOr, hp, textOf]
  have hchallenge : textOf (getOr card "decision" .none) = js "CHALLENGE" := by
    simp [getOr, hdecision, textOf]
  have hother : js "Verdict" ≠ js "TriageDecision" := by decide
  simp only [askedFor, htype, hget, hchallenge, if_neg hother, decide_true, Bool.and_true, if_true]

theorem handleChallenge_leaves {m : Message} {card : Dict}
    (keyed : ∀ p ctx, s.contexts p = some ctx → ctx.proposalId = p)
    (htype : textOf (getOr card "card_type" .none) = js "Verdict") :
    Leaves s card (agent.handleChallenge s m card) := by
  unfold handleChallenge
  split_ifs with hsender
  · cases hvalid : agent.validateVerdict card with
    | none => exact .nothing
    | some verdict =>
      simp only
      split_ifs with hleft
      · exact .nothing
      · obtain ⟨hchallenge, -⟩ : verdict.challenge = true ∧ agent.active verdict.proposalId = true := by
          simpa using hleft
        cases hexisting : s.contexts verdict.proposalId with
        | none => exact .nothing
        | some existing =>
          simp only
          split_ifs with hsubmitted
          · have hid := keyed _ _ hexisting
            refine .open ⟨rfl, rfl, rfl, .inr ⟨existing, ?_, hsubmitted, rfl⟩⟩ ?_
            · rwa [← hid] at hexisting
            · rw [askedFor_challenge htype (agent.verdict_decision card verdict hvalid hchallenge)
                (agent.verdict_proposalId card verdict hvalid)]
              exact congrArg some hid.symm
          · exact .nothing
  · exact .nothing

theorem takeTriage_leaves {m : Message} {card : Dict}
    (htype : textOf (getOr card "card_type" .none) = js "TriageDecision") :
    Leaves s card (agent.takeTriage s m card) := by
  unfold takeTriage
  cases hvalid : agent.validateTriage card with
  | none => exact .nothing
  | some triage =>
    simp only
    split_ifs with hsuppress
    · exact .nothing
    · cases hexisting : s.contexts triage.proposalId with
      | some existing => exact .nothing
      | none =>
        refine .open ⟨rfl, rfl, rfl, .inl ⟨hexisting, rfl⟩⟩ ?_
        exact askedFor_triage htype (agent.triage_proposalId card triage hvalid)

theorem process_leaves {m : Message} {card : Dict} {stale : Bool}
    (keyed : ∀ p ctx, s.contexts p = some ctx → ctx.proposalId = p) :
    Leaves s card (agent.process s m card stale) := by
  unfold process
  dsimp only
  split_ifs with hself hverdict htriage
  · exact .nothing
  · exact handleChallenge_leaves keyed hverdict
  · rw [Bool.and_eq_true, decide_eq_true_eq] at htriage
    exact takeTriage_leaves htriage.1
  · exact .nothing

theorem step_steps (keyed : ∀ p ctx, s.contexts p = some ctx → ctx.proposalId = p) :
    Steps agent s d (agent.step s d) := by
  unfold step
  cases hextract : extractSealedCard agent.floats d.message.content with
  | none =>
    change Steps agent s d s
    exact .ignored
  | some card =>
    have hleaves := @process_leaves agent s d.message card d.stale keyed
    change Steps agent s d (agent.delegate card d (agent.process s d.message card d.stale))
    generalize agent.process s d.message card d.stale = left at hleaves
    cases hleaves with
    | nothing => exact .ignored
    | «open» opens hasked => exact runLocalDiagnosis_steps opens hasked

end Steps
end Agent

section Submitting
variable {s : State} {ctx : ProposalContext} {a : Assessment} {saga : Saga} {p : Str}

theorem submit_published : (s.submit ctx a saga).published =
    s.published ++ if saga.posts then [⟨a, ctx.toolResults, saga = .confirmed⟩] else [] := by
  by_cases h : saga = .confirmed
  · simp [State.submit, h]
  · simp [State.submit, h]

theorem submit_contexts : (s.submit ctx a saga).contexts p =
    if saga = .confirmed ∧ p = ctx.proposalId then some { ctx with submitted := true }
    else s.contexts p := by
  by_cases h : saga = .confirmed
  · simp [State.submit, h, State.store_contexts]
  · simp [State.submit, h]

theorem submit_publishedOf : (s.submit ctx a saga).publishedOf p = s.publishedOf p ++
    if saga.posts = true ∧ a.proposalId = p then [⟨a, ctx.toolResults, saga = .confirmed⟩] else [] := by
  rw [State.publishedOf, submit_published, List.filter_append]
  congr 1
  by_cases hp : a.proposalId = p
  · by_cases hposts : saga.posts = true
    · simp [hp, hposts]
    · simp [hposts]
  · by_cases hposts : saga.posts = true
    · simp [hp, hposts]
    · simp [hposts]

end Submitting

section Trail

/-- The revisions are numbered from one, and nothing follows an unanswered one. -/
structure Numbered (trail : List Publication) : Prop where
  revisions : trail.map (·.assessment.revision) = List.range' 1 trail.length
  answered : ∀ e ∈ trail.dropLast, e.answered = true

theorem Numbered.nil : Numbered [] := ⟨rfl, fun e he => by cases he⟩

theorem Numbered.concat {trail : List Publication} {e : Publication} (h : Numbered trail)
    (hanswered : ∀ e ∈ trail, e.answered = true) (he : e.assessment.revision = trail.length + 1) :
    Numbered (trail ++ [e]) := by
  constructor
  · rw [List.map_append, h.revisions, List.length_append, List.length_singleton,
      List.range'_concat, List.map_singleton, he]
    congr 2
    omega
  · rw [List.dropLast_concat]
    exact hanswered

/-- The invariant of the runs. -/
structure Inv (s : State) : Prop where
  keyed : ∀ p ctx, s.contexts p = some ctx → ctx.proposalId = p
  unknown : ∀ p, s.contexts p = none → s.publishedOf p = []
  numbered : ∀ p, Numbered (s.publishedOf p)
  closed : ∀ p ctx, s.contexts p = some ctx → ctx.submitted = true →
    (s.publishedOf p).length = ctx.revision ∧ ∀ e ∈ s.publishedOf p, e.answered = true

variable {agent : Agent} {s : State} {ctx : ProposalContext} {a : Assessment} {saga : Saga} {d : Delivery}
  {p : Str}

theorem inv_initial : Inv .initial where
  keyed _ _ h := by cases h
  unknown _ _ := rfl
  numbered _ := .nil
  closed _ _ h := by cases h

/-- The next revision of a context that opens is the first that its trail lacks. -/
theorem Agent.Opens.next (opens : Agent.Opens s ctx) (inv : Inv s) :
    (s.publishedOf ctx.proposalId).length + 1 = ctx.revision ∧
      ∀ e ∈ s.publishedOf ctx.proposalId, e.answered = true := by
  rcases opens.revised with ⟨hnone, hfirst⟩ | ⟨old, hold, hclosed, hrevision⟩
  · rw [inv.unknown _ hnone, hfirst]
    exact ⟨rfl, fun e he => by cases he⟩
  · obtain ⟨hlength, hanswered⟩ := inv.closed _ old hold hclosed
    exact ⟨by omega, hanswered⟩

theorem Inv.open (inv : Inv s) (h : ctx.submitted = false) : Inv (s.store ctx) where
  keyed p other hother := by
    rw [State.store_contexts] at hother
    split_ifs at hother with hp
    · rw [← Option.some.inj hother, hp]
    · exact inv.keyed p other hother
  unknown p hnone := by
    rw [State.store_contexts] at hnone
    split_ifs at hnone
    exact inv.unknown p hnone
  numbered := inv.numbered
  closed p other hother hclosed := by
    rw [State.store_contexts] at hother
    split_ifs at hother
    · rw [← Option.some.inj hother, h] at hclosed
      cases hclosed
    · exact inv.closed p other hother hclosed

theorem Inv.submit (inv : Inv s) (hself : s.contexts ctx.proposalId = some ctx)
    (hid : a.proposalId = ctx.proposalId) (hrevision : a.revision = ctx.revision)
    (hnext : (s.publishedOf ctx.proposalId).length + 1 = ctx.revision)
    (hanswered : ∀ e ∈ s.publishedOf ctx.proposalId, e.answered = true) :
    Inv (s.submit ctx a saga) where
  keyed p other hother := by
    rw [submit_contexts] at hother
    split_ifs at hother with hp
    · rw [← Option.some.inj hother, hp.2]
    · exact inv.keyed p other hother
  unknown p hnone := by
    rw [submit_contexts] at hnone
    split_ifs at hnone
    have hp : a.proposalId ≠ p := by
      rintro rfl
      rw [hid, hself] at hnone
      cases hnone
    rw [submit_publishedOf, inv.unknown p hnone, if_neg (fun h => hp h.2), List.append_nil]
  numbered p := by
    rw [submit_publishedOf]
    split_ifs with h
    · obtain ⟨-, rfl⟩ := h
      rw [hid]
      exact (inv.numbered _).concat hanswered (hrevision.trans hnext.symm)
    · rw [List.append_nil]
      exact inv.numbered p
  closed p other hother hclosed := by
    rw [submit_contexts] at hother
    rw [submit_publishedOf]
    split_ifs at hother with hp
    · obtain ⟨rfl, rfl⟩ := hp
      rw [if_pos ⟨rfl, hid⟩, ← Option.some.inj hother]
      constructor
      · rw [List.length_append, List.length_singleton]
        exact hnext
      · intro e he
        rcases List.mem_append.mp he with hold | hnew
        · exact hanswered e hold
        · rw [List.mem_singleton.mp hnew]
          rfl
    · by_cases hp : p = ctx.proposalId
      · -- an answered context is not submitted again
        subst hp
        obtain rfl := Option.some.inj (hself.symm.trans hother)
        have hlength := (inv.closed _ ctx hself hclosed).1
        omega
      · rw [if_neg (fun h => hp (h.2.symm.trans hid)), List.append_nil]
        exact inv.closed p other hother hclosed

theorem assess_some {wording : Wording} (h : agent.assess ctx wording = some a) :
    a.proposalId = ctx.proposalId ∧ a.revision = ctx.revision := by
  obtain ⟨severity, -, rfl⟩ := Option.map_eq_some_iff.mp h
  exact ⟨rfl, rfl⟩

theorem Inv.step (inv : Inv s) (d : Delivery) : Inv (agent.step s d) := by
  have hsteps := @Agent.step_steps agent s d inv.keyed
  generalize agent.step s d = t at hsteps
  cases hsteps with
  | ignored => exact inv
  | @opened ctx opens => exact inv.open ((gather_submitted requiredTools).trans opens.unsubmitted)
  | @submitted ctx a saga opens complete assessed =>
    obtain ⟨hid, hrevision⟩ := assess_some assessed
    obtain ⟨hnext, hanswered⟩ := opens.next inv
    have hopen := inv.open ((gather_submitted requiredTools).trans opens.unsubmitted :
      (ctx.gather d.outcomes requiredTools).submitted = false)
    apply hopen.submit
    · rw [State.store_contexts, if_pos rfl]
    · exact hid
    · exact hrevision
    · rw [State.store_publishedOf, gather_proposalId, gather_revision]
      exact hnext
    · rw [State.store_publishedOf, gather_proposalId]
      exact hanswered

theorem Inv.run (inv : Inv s) (deliveries : List Delivery) :
    Inv (deliveries.foldl agent.step s) := by
  induction deliveries generalizing s with
  | nil => exact inv
  | cons d deliveries ih => exact ih (inv.step d)

theorem run_inv (agent : Agent) (deliveries : List Delivery) : Inv (agent.run deliveries) :=
  inv_initial.run deliveries

/-- The assessment says what the five tools answered during one delivery. -/
structure Grounded (agent : Agent) (d : Delivery) (e : Publication) : Prop where
  complete : ∀ tool, d.outcomes tool ≠ none
  results : e.results = d.outcomes
  severity : deriveSeverity agent.numbers (Results.of d.outcomes .treasuryMetrics)
    (Results.of d.outcomes .policyCompliance) = some e.assessment.severity
  evidenceStrength : e.assessment.evidenceStrength = agent.evidenceStrength d.outcomes
  signals : e.assessment.signals = requiredTools.map fun tool =>
    (tool, getOr (Results.of d.outcomes tool) "anomaly_detected" (.bool false))

theorem step_published (inv : Inv s) (d : Delivery) :
    (agent.step s d).published = s.published ∨
      ∃ e, (agent.step s d).published = s.published ++ [e] ∧ Grounded agent d e := by
  have hsteps := @Agent.step_steps agent s d inv.keyed
  generalize agent.step s d = t at hsteps
  cases hsteps with
  | ignored => exact .inl rfl
  | opened => exact .inl rfl
  | @submitted ctx a saga opens complete assessed =>
    rw [submit_published, State.store_published]
    by_cases hposts : saga.posts = true
    · right
      have hresults := @gather_fresh ctx d.outcomes opens.unasked
      obtain ⟨severity, hseverity, rfl⟩ := Option.map_eq_some_iff.mp assessed
      rw [hresults] at hseverity
      refine ⟨_, by rw [if_pos hposts], complete, hresults, hseverity, ?_, ?_⟩
      · rw [hresults]
      · rw [hresults]
    · left
      rw [if_neg hposts, List.append_nil]

theorem run_published (inv : Inv s) (deliveries : List Delivery) : ∃ ds new,
    ds.Sublist deliveries ∧ List.Forall₂ (Grounded agent) ds new ∧
      (deliveries.foldl agent.step s).published = s.published ++ new := by
  induction deliveries generalizing s with
  | nil => exact ⟨[], [], .slnil, .nil, (List.append_nil _).symm⟩
  | cons d deliveries ih =>
    obtain ⟨ds, new, hsub, hgrounded, hpublished⟩ := ih (@Inv.step agent s inv d)
    rw [List.foldl_cons, hpublished]
    rcases @step_published agent s inv d with hsame | ⟨e, hnew, he⟩
    · exact ⟨ds, new, hsub.cons d, hgrounded, by rw [hsame]⟩
    · refine ⟨d :: ds, e :: new, hsub.cons_cons d, .cons he hgrounded, ?_⟩
      rw [hnew, List.append_assoc, List.singleton_append]

/-- An open context is never asked for again. -/
theorem step_open (inv : Inv s) (h : s.contexts p = some ctx) (hopen : ctx.submitted = false)
    (d : Delivery) :
    (agent.step s d).contexts p = some ctx ∧ (agent.step s d).publishedOf p = s.publishedOf p := by
  have hsteps := @Agent.step_steps agent s d inv.keyed
  have hother : ∀ other, Agent.Opens s other → p ≠ other.proposalId := by
    rintro other opens rfl
    rcases opens.revised with ⟨hnone, -⟩ | ⟨old, hold, hclosed, -⟩
    · rw [h] at hnone
      cases hnone
    · obtain rfl := Option.some.inj (h.symm.trans hold)
      rw [hopen] at hclosed
      cases hclosed
  generalize agent.step s d = t at hsteps
  cases hsteps with
  | ignored => exact ⟨h, rfl⟩
  | @opened other opens =>
    refine ⟨?_, rfl⟩
    rw [State.store_contexts, gather_proposalId, if_neg (hother other opens), h]
  | @submitted other a saga opens complete assessed =>
    have hp := hother other opens
    have hid := (assess_some assessed).1
    rw [gather_proposalId] at hid
    constructor
    · rw [submit_contexts, State.store_contexts, gather_proposalId, if_neg hp, h]
      exact if_neg fun hsame => hp hsame.2
    · rw [submit_publishedOf, State.store_publishedOf, hid]
      rw [if_neg fun hsame => hp hsame.2.symm, List.append_nil]

/-- One delivery decides: where a tool fails or the submission is not answered, no later triage
decision and no later challenge reaches the proposal again. -/
theorem open_stays_open {before later : List Delivery}
    (h : (agent.run before).contexts p = some ctx) (hopen : ctx.submitted = false) :
    (agent.run (before ++ later)).contexts p = some ctx ∧
      (agent.run (before ++ later)).publishedOf p = (agent.run before).publishedOf p := by
  have inv := run_inv agent before
  rw [Agent.run, List.foldl_append, ← Agent.run]
  generalize agent.run before = s at h inv ⊢
  induction later generalizing s with
  | nil => exact ⟨h, rfl⟩
  | cons d later ih =>
    obtain ⟨hstill, hsame⟩ := @step_open agent s ctx p inv h hopen d
    obtain ⟨hkept, hpublished⟩ := ih _ hstill (inv.step d)
    exact ⟨hkept, hpublished.trans hsame⟩

end Trail

section Samples
open Concordia.Gateway (sampleFloats)

def sampleTriage (card : Dict) : Option TriageDecision :=
  match card.lookup (js "proposal_id") with
  | some (.str p) => some ⟨p, false⟩
  | _ => none

def sampleAgent : Agent where
  floats := sampleFloats
  numbers := ⟨fun _ _ => false, fun _ _ => false⟩
  diagnosisAgentId := js "mercer"
  triageAgentId := js "rowan"
  safetyReviewerAgentId := js "verity"
  activeProposals := []
  validateTriage := sampleTriage
  validateVerdict _ := none
  evidenceStrength _ := js "0.5"
  triage_proposalId card t h := by
    unfold sampleTriage at h
    split at h
    · next hid =>
      rw [hid, ← Option.some.inj h]
    · cases h
  verdict_proposalId _ _ h := by cases h
  verdict_decision _ _ h := by cases h

def triageItems : Dict :=
  [(js "card_type", .str (js "TriageDecision")), (js "proposal_id", .str (js "p")),
    (js "sequence_number", .int 1), (js "card_hash", .str (js "h"))]

/-- A sealed decision of the triage agent. -/
def triageCard : SealedCard sampleFloats where
  items := triageItems
  wellFormed := ⟨by decide, trivial, trivial, trivial, trivial, trivial⟩
  typed := rfl
  cardHash := js "h"
  hashed := rfl

def sampleDelivery (outcomes : Tool → Option Dict) : Delivery where
  message := ⟨js "rowan", js "Agent", js "room", js "m", cardBlock triageItems⟩
  stale := false
  outcomes := outcomes
  wording := ⟨js "cause", js "action", []⟩
  saga := .confirmed

/-- The node status cannot be read. -/
def withoutNode (tool : Tool) : Option Dict := if tool = .casperNodeStatus then none else some []

theorem sample_step (s : State) (outcomes : Tool → Option Dict) :
    sampleAgent.step s (sampleDelivery outcomes) = sampleAgent.delegate triageItems
      (sampleDelivery outcomes) (sampleAgent.process s (sampleDelivery outcomes).message triageItems false) := by
  have hextract : extractSealedCard sampleAgent.floats (sampleDelivery outcomes).message.content =
      some triageItems :=
    @extract_closed sampleFloats triageCard [] rfl rfl
  rw [Agent.step, hextract]
  rfl

theorem sample_open : ((sampleAgent.run [sampleDelivery withoutNode]).contexts (js "p")).map
    (·.submitted) = some false := by
  simp only [Agent.run, List.foldl_cons, List.foldl_nil, sample_step]
  decide +kernel

/-- The triage decision comes again when all tools answer. -/
theorem sample_stays_open : (sampleAgent.run ([sampleDelivery withoutNode] ++
    [sampleDelivery fun _ => some []])).publishedOf (js "p") =
      (sampleAgent.run [sampleDelivery withoutNode]).publishedOf (js "p") := by
  obtain ⟨ctx, hctx, hopen⟩ := Option.map_eq_some_iff.mp sample_open
  exact (open_stays_open hctx hopen).2

end Samples
end Concordia.Mercer
