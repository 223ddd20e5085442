import Concordia.Gateway.Lifecycle

/-! The states of the proposals over all runs: which steps move them, and what moves there are. -/
namespace Concordia.Gateway
open Concordia.Python Concordia.Lib.Transactions Concordia.Lib.Transition
open Concordia.Js hiding Value

variable {env : Env}

section Moves

/-- The states of `db'`, where only the proposal `p` moved, to `s`. -/
def Moved (db db' : Db) (p : Str) (s : ProposalState) : Prop :=
  ∀ q, db'.proposalState q = if q = p then some s else db.proposalState q

/-- What a step does to the states of the proposals. -/
inductive StateStep (sys : Sys env) (sys' : Sys env) : Prop
  | same (states : ∀ p, sys'.db.proposalState p = sys.db.proposalState p)
  | created (p : Str) (fresh : sys.db.proposalState p = none)
      (states : Moved sys.db sys'.db p .detected)
  | confirmed (request : ConfirmRequest) (now : Time) (row : CardRow) (s s' : ProposalState)
      (severity : Option Str) (pending : .confirm request ∈ sys.jobs)
      (confirmable : Confirmable env request sys.db row (some s') severity)
      (current : sys.db.proposalState request.proposalId = some s)
      (states : Moved sys.db sys'.db request.proposalId s')
  | advanced (request : AdvanceRequest) (now : Time) (pending : .advance request ∈ sys.jobs)
      (advanceable : Advanceable request sys.db)
      (result : sys'.db = Gateway.advanced request now sys.db)
      (states : Moved sys.db sys'.db request.proposalId request.target)
  | closed (job : Job env) (closure : Closure) (more : Db → Db) (request : CloseRequest)
      (now : Time) (cardHash : Str) (s' : ProposalState) (pending : job ∈ sys.jobs)
      (isClosure : (∃ instructions, job = .revise instructions request ∧
        closure = revision instructions) ∨ job = .falseAlarm request ∧ closure = falseAlarm)
      (keeps : ∀ db, (more db).proposals = db.proposals)
      (closing : CloseStep env closure more request now sys.db cardHash sys'.db)
      (planned : sys.db.proposalState request.proposalId = some .planned)
      (outcome : (CardType.structuredApproval, s') ∈ stateOutcomes)
      (states : Moved sys.db sys'.db request.proposalId s')

theorem proposalState_congr {db db' : Db} (h : db'.proposals = db.proposals) (p : Str) :
    db'.proposalState p = db.proposalState p := by
  simp only [Db.proposalState, Db.proposal, h]

theorem proposal_eq_none {db : Db} {p : Str} (h : db.proposalState p = none) :
    db.proposal p = none := by
  simpa [Db.proposalState] using h

theorem Upserted.states {db db' : Db} (h : Upserted db db') :
    (∀ p, db'.proposalState p = db.proposalState p) ∨
      ∃ p, db.proposalState p = none ∧ Moved db db' p .detected := by
  cases h with
  | same => exact .inl fun _ => rfl
  | inserted row fresh detected =>
    refine .inr ⟨row.proposalId, by simp [Db.proposalState, fresh], fun q => ?_⟩
    simp only [Db.proposalState, Db.proposal, List.find?_append, List.find?_singleton]
    by_cases hq : q = row.proposalId
    · subst hq
      have hnone : db.proposals.find? (fun r => r.proposalId == row.proposalId) = none := fresh
      simp [hnone, detected]
    · simp [Ne.symm hq, hq]

/-- The state behind an update of one proposal. -/
theorem moved_update {db db' : Db} {p : Str} {s s' : ProposalState}
    (hits : ProposalRow → Bool) (change : ProposalRow → ProposalRow)
    (hproposals : db'.proposals = (updateProposals hits change db).2.proposals)
    (hid : ∀ r, (change r).proposalId = r.proposalId) (hcurrent : db.proposalState p = some s)
    (hhit : ∀ r, r.proposalId = p → r.state = s → hits r = true ∧ (change r).state = s')
    (hother : ∀ r, r.proposalId ≠ p → hits r = false) : Moved db db' p s' := by
  intro q
  rw [proposalState_congr hproposals, proposalState_update hid]
  split
  · rename_i hq
    subst hq
    obtain ⟨row, hrow, hstate⟩ := Option.map_eq_some_iff.mp hcurrent
    have hkey := List.find?_some hrow
    obtain ⟨hhits, hchange⟩ := hhit row (by simpa using hkey) hstate
    rw [hrow, Option.map_some, if_pos hhits, hchange]
  · rename_i hq
    unfold Db.proposalState
    cases hrow : db.proposal q with
    | none => rfl
    | some row =>
      have hkey := List.find?_some hrow
      simp only [beq_iff_eq] at hkey
      rw [Option.map_some, Option.map_some, if_neg]
      rw [hother row (by rw [hkey]; exact hq)]
      exact Bool.false_ne_true

theorem proposalId_of_proposal {db : Db} {p : Str} {r : ProposalRow} (h : db.proposal p = some r) :
    r.proposalId = p := by
  have hkey := List.find?_some h
  simpa using hkey

theorem same_update {db db' : Db} {p : Str} (hits : ProposalRow → Bool)
    (change : ProposalRow → ProposalRow)
    (hproposals : db'.proposals = (updateProposals hits change db).2.proposals)
    (hid : ∀ r, (change r).proposalId = r.proposalId)
    (hsame : ∀ r, db.proposal p = some r → hits r = true → (change r).state = r.state) :
    db'.proposalState p = db.proposalState p := by
  rw [proposalState_congr hproposals, proposalState_update hid, Db.proposalState]
  cases hrow : db.proposal p with
  | none => rfl
  | some r =>
    simp only [Option.map_some]
    split
    · rename_i hr
      rw [hsame r hrow hr]
    · rfl

theorem confirmed_states (request : ConfirmRequest) (newState : Option ProposalState)
    (severity : Option Str) (now : Time) (db : Db) :
    (∀ p, (confirmed request newState severity now db).proposalState p = db.proposalState p) ∨
      ∃ s s', newState = some s' ∧ db.proposalState request.proposalId = some s ∧
        Moved db (confirmed request newState severity now db) request.proposalId s' := by
  have hsame : (∀ r, db.proposal request.proposalId = some r → newState.getD r.state = r.state) →
      ∀ p, (confirmed request newState severity now db).proposalState p = db.proposalState p := by
    intro hstate p
    refine same_update (fun r => r.proposalId == request.proposalId)
      (confirmProposal request.toConfirmBody newState severity) rfl (fun r => rfl)
      fun r hr hit => ?_
    obtain rfl : p = request.proposalId :=
      (proposalId_of_proposal hr).symm.trans (by simpa using hit)
    exact hstate r hr
  cases hstate : newState with
  | none =>
    subst hstate
    exact .inl (hsame fun r _ => rfl)
  | some s' =>
    subst hstate
    cases hcurrent : db.proposalState request.proposalId with
    | none => exact .inl (hsame fun r hr => by simp [proposal_eq_none hcurrent] at hr)
    | some s =>
      refine .inr ⟨s, s', rfl, rfl, moved_update
        (fun r => r.proposalId == request.proposalId)
        (confirmProposal request.toConfirmBody (some s') severity) rfl (fun r => rfl)
        hcurrent (fun r hr _ => ⟨by simp [hr], rfl⟩) fun r hr => by simpa using hr⟩

theorem advanced_states {request : AdvanceRequest} (now : Time) {db : Db}
    (h : Advanceable request db) :
    Moved db (Gateway.advanced request now db) request.proposalId request.target :=
  moved_update (fun r => r.proposalId == request.proposalId && r.state == .planned)
    (fun r => { r with state := request.target }) rfl (fun r => rfl) h.planned
    (fun r hr hs => ⟨by simp [hr, hs], rfl⟩) fun r hr => by simp [hr]

theorem CloseStep.states {closure : Closure} {more : Db → Db} {request : CloseRequest} {now : Time}
    {db db' : Db} {cardHash : Str} (hmore : ∀ db, (more db).proposals = db.proposals)
    (h : CloseStep env closure more request now db cardHash db') :
    ∃ s', db.proposalState request.proposalId = some .planned ∧
      (CardType.structuredApproval, s') ∈ stateOutcomes ∧ Moved db db' request.proposalId s' := by
  cases h with
  | intro row card approval behindSeal planned valid isApproval decided sealing =>
    obtain ⟨s', hs'⟩ := Option.ne_none_iff_exists'.mp
      (resolveStateOf_structuredApproval approval.card.dump)
    refine ⟨s', planned, mem_stateOutcomes hs', ?_⟩
    have hproposals := sealing.ledger.2.2
    have hbehind : behindSeal.proposalState request.proposalId = some .planned := by
      rw [proposalState_congr hproposals]
      exact planned
    have hmoved : Moved behindSeal
        (more (closed request (resolveStateOf .structuredApproval approval.card.dump) behindSeal))
        request.proposalId s' := by
      refine moved_update (fun r => r.proposalId == request.proposalId)
        (fun r => { r with state := s' }) ?_ (fun r => rfl) hbehind
        (fun r hr _ => ⟨by simp [hr], rfl⟩) fun r hr => by simpa using hr
      rw [hmore, closed, hs']
      rfl
    intro q
    rw [hmoved q, proposalState_congr hproposals]

theorem addSuppressionRule_proposals (proposalId : Str) (db : Db) :
    (addSuppressionRule env proposalId db).proposals = db.proposals := by
  simp only [addSuppressionRule]
  split
  · rfl
  · split <;> rfl

theorem insertAuthorization_proposals (row : AuthorizationRow) (db : Db) :
    (insertAuthorization row db).proposals = db.proposals := by
  unfold insertAuthorization
  split <;> rfl

theorem resume_stateStep {sys sys' : Sys env} {draws : Draws} {next : List (Job env)}
    {job : Job env} (pending : job ∈ sys.jobs)
    (h : resumePost env draws sys.db next sys'.db job) : StateStep sys sys' := by
  have hsame : sys'.db.proposals = sys.db.proposals → StateStep sys sys' := fun hproposals =>
    .same (proposalState_congr hproposals)
  cases job with
  | sealCard request =>
    rcases h.2 with hdb | ⟨result, hseal⟩
    · exact hsame (by rw [hdb])
    · exact hsame hseal.ledger.2.2
  | confirm request =>
    rcases h.2 with hdb | ⟨row, newState, severity, hconfirm, hdb⟩
    · exact hsame (by rw [hdb])
    · rcases confirmed_states request newState severity draws.now sys.db with hstates | ⟨s, s', rfl, hcurrent, hstates⟩
      · exact .same fun p => by rw [hdb, hstates p]
      · exact .confirmed request draws.now row s s' severity pending hconfirm hcurrent
          (by rw [hdb]; exact hstates)
  | createNonce row =>
    rcases h.2 with hdb | hinsert
    · exact hsame (by rw [hdb])
    · unfold insertNonce at hinsert
      simp only [Option.ite_none_left_eq_some, Option.some.injEq] at hinsert
      exact hsame (by rw [← hinsert.2])
  | postChallenge request => exact .same h.1.states
  | recordChallenge record => exact hsame (by rw [h.2, challenged])
  | consumeNonce request =>
    rcases h with ⟨hdb, -⟩ | ⟨consumption, hstep, -⟩
    · exact hsame (by rw [hdb])
    · generalize sys'.db = db' at hstep hsame
      cases hstep with
      | intro row envelopesJson card approval behindSeal _ consumable isApproval sealing target =>
        exact hsame ((insertAuthorization_proposals _ _).trans sealing.ledger.2.2)
  | publishApproval request => exact .same h.1.states
  | sealPolicy request =>
    rcases h with ⟨hdb, -⟩ | ⟨publication, hstep, -⟩
    · exact hsame (by rw [hdb])
    · generalize sys'.db = db' at hstep hsame
      cases hstep with
      | intro approval behindSeal sealing =>
        exact hsame ((insertAuthorization_proposals _ _).trans sealing.ledger.2.2)
  | publishPolicy request => exact .same h.1.states
  | advance request =>
    rcases h.2 with hdb | ⟨hadvance, hdb⟩
    · exact hsame (by rw [hdb])
    · exact .advanced request draws.now pending hadvance hdb (by rw [hdb]; exact advanced_states draws.now hadvance)
  | consumeAuthorization request =>
    rcases h.2 with hdb | hdb
    · exact hsame (by rw [hdb])
    · exact hsame (by rw [hdb]; rfl)
  | revise instructions request =>
    rcases h with ⟨hdb, -⟩ | ⟨cardHash, roomId, hstep, -⟩
    · exact hsame (by rw [hdb])
    · obtain ⟨s', hplanned, houtcome, hstates⟩ := hstep.states fun _ => rfl
      exact .closed _ _ _ request draws.now cardHash s' pending (.inl ⟨instructions, rfl, rfl⟩)
        (fun _ => rfl) hstep hplanned houtcome hstates
  | falseAlarm request =>
    rcases h with ⟨hdb, -⟩ | ⟨cardHash, roomId, hstep, -⟩
    · exact hsame (by rw [hdb])
    · obtain ⟨s', hplanned, houtcome, hstates⟩ :=
        hstep.states (addSuppressionRule_proposals _)
      exact .closed _ _ _ request draws.now cardHash s' pending (.inr ⟨rfl, rfl⟩)
        (addSuppressionRule_proposals _) hstep hplanned houtcome hstates
  | notify notification attempts => exact .same h.1.states
  | recordNotification notification messageId => exact hsame (by rw [h.2]; rfl)

theorem start_states {sys sys' : Sys env} {draws : Draws} {next : List (Job env)}
    {request : Request} (h : startPost env draws sys.db next sys'.db request) :
    StateStep sys sys' := by
  have hsame : sys'.db = sys.db → StateStep sys sys' := fun hdb => .same fun p => by rw [hdb]
  cases request with
  | prepare cardType xAgentKey xIdempotencyKey body =>
    rcases h.1.states with hstates | ⟨p, hfresh, hstates⟩
    · exact .same hstates
    · exact .created p hfresh hstates
  | decide approverId proposalId nonce decision =>
    cases decision with
    | approve => exact hsame h.1
    | revise instructions => exact hsame h.1
    | falseAlarm => exact hsame h.1
  | createRoom xAgentKey proposalId => exact .same h.1.states
  | postMessage xAgentKey roomId content senderRole metadata => exact .same h.1.states
  | _ => exact hsame h.1

/-- The only ways in which a step moves a proposal. -/
theorem StepTo.stateStep {sys sys' : Sys env} {action : Action} (h : StepTo env sys action sys') :
    StateStep sys sys' := by
  cases h with
  | request request draws next db' fresh post => exact start_states post
  | resume index draws job next db' fresh pending post =>
    exact resume_stateStep (List.mem_of_getElem? pending) post

end Moves
end Concordia.Gateway
