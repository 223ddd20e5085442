import Concordia.Gateway.Agents

/-! Single use of approvals: one nonce, one authorization; one decision for a proposal; and the
proposal moves in the transaction that publishes what justifies the move. -/
namespace Concordia.Gateway
open Concordia.Python Concordia.Lib.Transactions Concordia.Lib.Transition
open Concordia.Js hiding Value

variable {env : Env} {closing : Prop}

section Outcomes

/-- What confirming a card that moves its proposal requires. -/
theorem Confirmable.moves {request : ConfirmRequest} {db : Db} {row : CardRow}
    {s' : ProposalState} {severity : Option Str}
    (h : Confirmable env request db row (some s') severity) :
    ∃ t, row.cardType = CardType.column t ∧ (t, s') ∈ stateOutcomes ∧
      ∀ s, db.proposalState request.proposalId = some s →
        (∀ allowed, statePrerequisites t = some allowed → s ∈ allowed) ∧
          (t = .proposalCard → s = .detected) := by
  have houtcome := h.outcome
  unfold confirmedState at houtcome
  split at houtcome
  · cases houtcome
  · split at houtcome
    · cases houtcome
    · rename_i data _ t ht
      simp only [Option.some.injEq, Prod.mk.injEq] at houtcome
      obtain ⟨hstate, -⟩ := houtcome
      have hcolumn : row.cardType = t.column := by
        have := List.find?_some ht
        exact (beq_iff_eq.mp this).symm
      split at hstate
      · cases hstate
      · rename_i hlate
        refine ⟨t, hcolumn, mem_stateOutcomes hstate, fun s hs => ⟨fun allowed hallowed => ?_, ?_⟩⟩
        · have hfits := h.fits
          rw [hs] at hfits
          simp only [staleState, ht, hallowed, Option.bind_some, Option.map_some, ite_eq_left_iff,
            reduceCtorEq, imp_false, Bool.not_eq_true, Bool.not_eq_false] at hfits
          exact List.contains_iff_mem.mp hfits
        · rintro rfl
          rw [hs] at hlate
          simpa using hlate

/-- The states behind the approval of a plan. -/
def ProposalState.isDecided : ProposalState → Bool
  | .approved | .authorized | .executed | .resolved => true
  | _ => false

/-- A set of states that no card leads out of, by the table of prerequisites. -/
theorem outcome_stays {good : ProposalState → Bool} (hdetected : good .detected = false)
    (hlist : ∀ e ∈ stateOutcomes, good e.2 = true ∨ e.1 = .proposalCard ∨
      ∃ allowed, statePrerequisites e.1 = some allowed ∧ ∀ s ∈ allowed, good s = false)
    {t : CardType} {s s' : ProposalState} (hmem : (t, s') ∈ stateOutcomes) (hs : good s = true)
    (hallowed : ∀ allowed, statePrerequisites t = some allowed → s ∈ allowed)
    (hproposal : t = .proposalCard → s = .detected) : good s' = true := by
  rcases hlist _ hmem with hgood | hcard | ⟨allowed, hprerequisites, hnone⟩
  · exact hgood
  · rw [hproposal hcard, hdetected] at hs
    cases hs
  · rw [hnone s (hallowed allowed hprerequisites)] at hs
    cases hs

theorem outcome_decided : ∀ t s', (t, s') ∈ stateOutcomes → ∀ s : ProposalState, s.isDecided →
    (∀ allowed, statePrerequisites t = some allowed → s ∈ allowed) →
    (t = .proposalCard → s = .detected) → s'.isDecided :=
  fun t s' hmem s => @outcome_stays ProposalState.isDecided rfl (by decide +kernel) t s s' hmem

/-- An agent's card does not approve anything. -/
theorem outcome_agent : ∀ t role, role ≠ .gateway → roleMaySubmit role t = true →
    ∀ s', (t, s') ∈ stateOutcomes → s' ≠ .approved ∧ s' ≠ .authorized := by
  have hlist : ∀ e ∈ stateOutcomes, (e.2 ≠ .approved ∧ e.2 ≠ .authorized) ∨
      e.1 = .structuredApproval ∨ e.1 = .policyAuthorization := by
    decide +kernel
  intro t role hrole hsubmit s' hmem
  rcases hlist _ hmem with hother | rfl | rfl
  · exact hother
  · cases role with
    | gateway => exact absurd rfl hrole
    | _ => cases hsubmit
  · cases role with
    | gateway => exact absurd rfl hrole
    | _ => cases hsubmit

end Outcomes

section Pending

/-- An authorization of the proposal that is not pending any more. -/
def leftPending (p : Str) (a : AuthorizationRow) : Bool := a.proposalId == p && a.status != .pending

variable {db db' : Db} {next : List (Job env)} {draws : Draws}

theorem leftPending_append (row : AuthorizationRow) (hrow : row.status = .pending)
    (hauths : db'.authorizations = db.authorizations ++ [row]) (p : Str) :
    db'.authorizations.countP (leftPending p) = db.authorizations.countP (leftPending p) := by
  rw [hauths, List.countP_append, List.countP_singleton]
  simp [leftPending, hrow]

theorem leftPending_used (authorizationId : Str) (role : Role) (now : Time) (p : Str)
    (a : AuthorizationRow) : leftPending p (useRow authorizationId role now a) = leftPending p a := by
  unfold useRow
  split
  · rename_i hhit
    simp only [Bool.and_eq_true, beq_iff_eq] at hhit
    rw [leftPending, leftPending, hhit.2]
    rfl
  · rfl

/-- Only the lifecycle advance lets an authorization leave `PENDING`. -/
theorem resume_leftPending {job : Job env} (hfresh : db.authorization draws.uuid = none)
    (h : resumePost env draws db next db' job) :
    (∀ p, db'.authorizations.countP (leftPending p) = db.authorizations.countP (leftPending p)) ∨
      ∃ request, job = .advance request ∧ Advanceable request db ∧
        db' = Gateway.advanced request draws.now db := by
  have hsame : db'.authorizations = db.authorizations →
      (∀ p, db'.authorizations.countP (leftPending p) = db.authorizations.countP (leftPending p)) ∨
        ∃ request, job = .advance request ∧ Advanceable request db ∧
          db' = Gateway.advanced request draws.now db := fun hauths => .inl fun p => by rw [hauths]
  cases job with
  | advance request =>
    rcases h.2 with rfl | ⟨hadvance, rfl⟩
    · exact hsame rfl
    · exact .inr ⟨request, rfl, hadvance, rfl⟩
  | sealCard request =>
    rcases h.2 with rfl | ⟨result, hseal⟩
    · exact hsame rfl
    · exact hsame hseal.ledger.2.1
  | confirm request =>
    rcases h.2 with rfl | ⟨row, newState, severity, -, rfl⟩
    · exact hsame rfl
    · exact hsame rfl
  | createNonce row =>
    rcases h.2 with rfl | hinsert
    · exact hsame rfl
    · unfold insertNonce at hinsert
      simp only [Option.ite_none_left_eq_some, Option.some.injEq] at hinsert
      exact hsame (by rw [← hinsert.2])
  | postChallenge request => exact hsame h.1.authorizations
  | recordChallenge record => exact hsame (by rw [h.2, challenged])
  | consumeNonce request =>
    rcases h with ⟨rfl, -⟩ | ⟨consumption, hstep, -⟩
    · exact hsame rfl
    · cases hstep with
      | intro row envelopesJson card approval behindSeal _ consumable isApproval sealing target =>
        have hbehind : behindSeal.authorization draws.uuid = none := by
          simpa only [Db.authorization, sealing.ledger.2.1] using hfresh
        refine .inl (leftPending_append (humanAuthorizationRow request draws.uuid
          envelopesJson row.expiry approval.cardHash) rfl ?_)
        rw [consumed, insertAuthorization_fresh hbehind]
        simp only [consumeNonceOnly, updateNonces, sealing.ledger.2.1]
  | publishApproval request => exact hsame h.1.authorizations
  | sealPolicy request =>
    rcases h with ⟨rfl, -⟩ | ⟨publication, hstep, -⟩
    · exact hsame rfl
    · cases hstep with
      | intro approval behindSeal sealing =>
        have hbehind : behindSeal.authorization draws.uuid = none := by
          simpa only [Db.authorization, sealing.ledger.2.1] using hfresh
        refine .inl (leftPending_append (policyAuthorizationRow env request draws.uuid
          approval.cardHash) rfl ?_)
        rw [policyAuthorized, insertAuthorization_fresh hbehind, sealing.ledger.2.1]
  | publishPolicy request => exact hsame h.1.authorizations
  | consumeAuthorization request =>
    rcases h.2 with rfl | rfl
    · exact hsame rfl
    · refine .inl fun p => ?_
      rw [markConsumed_authorizations, List.countP_map]
      exact List.countP_congr fun a _ => by
        rw [Function.comp_apply, leftPending_used]
  | revise instructions request =>
    rcases h with ⟨rfl, -⟩ | ⟨cardHash, roomId, hstep, -⟩
    · exact hsame rfl
    · cases hstep with
      | intro row card approval behindSeal planned valid isApproval decided sealing =>
        exact hsame sealing.ledger.2.1
  | falseAlarm request =>
    rcases h with ⟨rfl, -⟩ | ⟨cardHash, roomId, hstep, -⟩
    · exact hsame rfl
    · cases hstep with
      | intro row card approval behindSeal planned valid isApproval decided sealing =>
        exact hsame ((addSuppressionRule_ledger _ _).2.trans sealing.ledger.2.1)
  | notify notification attempts => exact hsame h.1.authorizations
  | recordNotification notification messageId => exact hsame (by rw [h.2]; rfl)

/-- At most one authorization of a proposal has left `PENDING`; where one has, the proposal is
decided. -/
structure DecisionLaw (db : Db) : Prop where
  one : ∀ p, db.authorizations.countP (leftPending p) ≤ 1
  decided : ∀ p, 0 < db.authorizations.countP (leftPending p) →
    ∃ s, db.proposalState p = some s ∧ s.isDecided

/-- The row that the advance publishes is the one that its request was made for. -/
theorem Justified.row {request : PublishRequest} (hledger : LedgerLaws db)
    (h : Justified db request) {a : AuthorizationRow} (ha : a ∈ db.authorizations)
    (hid : a.authorizationId = request.authorizationId) :
    a.proposalId = request.proposalId ∧ a.cardHash = request.cardHash ∧
      request.target = a.authorizationType.target := by
  obtain ⟨a', ha', c, -, rfl⟩ := h
  obtain rfl := List.inj_on_of_nodup_map hledger.ids ha ha' hid
  exact ⟨rfl, rfl, rfl⟩

theorem countP_le_add {α : Type} {p q r : α → Bool} {l : List α}
    (h : ∀ x ∈ l, p x = true → q x = true ∨ r x = true) : l.countP p ≤ l.countP q + l.countP r := by
  induction l with
  | nil => simp
  | cons x l ih =>
    have hrest := ih fun y hy => h y (List.mem_cons_of_mem _ hy)
    have hx := h x List.mem_cons_self
    simp only [List.countP_cons]
    by_cases hp : p x = true
    · rcases hx hp with hq | hr
      · simp only [hp, hq, if_true]
        omega
      · simp only [hp, hr, if_true]
        omega
    · rw [if_neg hp]
      omega

theorem countP_leftPending_advanced {request : AdvanceRequest} (now : Time)
    (hledger : LedgerLaws db) (hjustified : Justified db request.toPublishRequest)
    (hadvance : Advanceable request db) (p : Str) :
    (Gateway.advanced request now db).authorizations.countP (leftPending p) ≤
      db.authorizations.countP (leftPending p) + if p = request.proposalId then 1 else 0 := by
  rw [advanced_authorizations, List.countP_map]
  have hcover : ∀ a ∈ db.authorizations, (leftPending p ∘ advanceRow request) a = true →
      leftPending p a = true ∨ (decide (p = request.proposalId) &&
        (a.authorizationId == request.authorizationId && a.status == .pending)) = true := by
    intro a ha hleft
    by_cases hhit : (a.authorizationId == request.authorizationId && a.status == .pending) = true
    · have hid : a.authorizationId = request.authorizationId := by
        simp only [Bool.and_eq_true, beq_iff_eq] at hhit
        exact hhit.1
      have hproposal : a.proposalId = request.proposalId := (hjustified.row hledger ha hid).1
      rw [Function.comp_apply, advanceRow, if_pos hhit, leftPending] at hleft
      simp only [Bool.and_eq_true, beq_iff_eq] at hleft
      exact .inr (by rw [hhit, ← hleft.1, hproposal]; simp)
    · rw [Function.comp_apply, advanceRow, if_neg hhit] at hleft
      exact .inl hleft
  refine le_trans (countP_le_add hcover) (Nat.add_le_add_left ?_ _)
  split
  · rename_i hp
    simp only [hp, decide_true, Bool.true_and]
    exact hadvance.authorization.le
  · rename_i hp
    simp [hp]

theorem target_isDecided (t : AuthorizationType) : t.target.isDecided := by
  cases t <;> rfl

/-- One step keeps the law. -/
theorem DecisionLaw.step {sys sys' : Sys env} {action : Action} (h : DecisionLaw sys.db)
    (hlaws : AgentLaws closing sys) (hstep : StepTo env sys action sys') : DecisionLaw sys'.db := by
  have hkeep : (∀ p, sys'.db.authorizations.countP (leftPending p) =
        sys.db.authorizations.countP (leftPending p)) → DecisionLaw sys'.db := by
    intro hcount
    refine ⟨fun p => by rw [hcount]; exact h.one p, fun p hp => ?_⟩
    rw [hcount] at hp
    obtain ⟨s, hs, hdecided⟩ := h.decided p hp
    -- a decided proposal stays decided
    cases hstep.stateStep with
    | same states => exact ⟨s, by rw [states, hs], hdecided⟩
    | created q fresh states =>
      refine ⟨s, ?_, hdecided⟩
      rw [states p, if_neg (by rintro rfl; rw [fresh] at hs; cases hs), hs]
    | confirmed request now row t s' severity pending confirmable current states =>
      by_cases hq : p = request.proposalId
      · subst hq
        obtain rfl := Option.some.inj (current.symm.trans hs)
        obtain ⟨type, -, houtcome, hrules⟩ := confirmable.moves
        obtain ⟨hallowed, hproposal⟩ := hrules t current
        exact ⟨s', by rw [states, if_pos rfl],
          outcome_decided type s' houtcome t hdecided hallowed hproposal⟩
      · exact ⟨s, by rw [states, if_neg hq, hs], hdecided⟩
    | advanced request now pending advanceable result states =>
      by_cases hq : p = request.proposalId
      · subst hq
        rw [advanceable.planned] at hs
        obtain rfl := Option.some.inj hs
        cases hdecided
      · exact ⟨s, by rw [states, if_neg hq, hs], hdecided⟩
    | closed job closure more request now cardHash s' pending isClosure keeps closing planned outcome
        states =>
      by_cases hq : p = request.proposalId
      · subst hq
        rw [planned] at hs
        obtain rfl := Option.some.inj hs
        cases hdecided
      · exact ⟨s, by rw [states, if_neg hq, hs], hdecided⟩
  cases hstep with
  | request request draws next db' fresh post =>
    have hauths := (start_ledger post).2
    exact hkeep fun p => congrArg (List.countP (leftPending p)) hauths
  | resume index draws job next db' fresh pending post =>
    rcases resume_leftPending fresh post with hcount | ⟨request, rfl, hadvance, rfl⟩
    · exact hkeep hcount
    · have hjustified : Justified sys.db request.toPublishRequest :=
        hlaws.jobs _ (List.mem_of_getElem? pending)
      have hcount := countP_leftPending_advanced draws.now hlaws.ledger hjustified hadvance
      have hstates := advanced_states draws.now hadvance
      have hzero : sys.db.authorizations.countP (leftPending request.proposalId) = 0 := by
        by_contra hne
        obtain ⟨s, hs, hdecided⟩ := h.decided _ (Nat.pos_of_ne_zero hne)
        rw [hadvance.planned] at hs
        obtain rfl := Option.some.inj hs
        cases hdecided
      refine ⟨fun p => ?_, fun p hp => ?_⟩
      · refine le_trans (hcount p) ?_
        split
        · rename_i hq
          rw [hq, hzero]
        · exact h.one p
      · change ∃ s, (Gateway.advanced request draws.now sys.db).proposalState p = some s ∧ s.isDecided
        rw [hstates p]
        split
        · obtain ⟨a, -, c, -, htarget⟩ := hjustified
          refine ⟨request.target, rfl, ?_⟩
          rw [htarget]
          exact target_isDecided _
        · rename_i hq
          have hold := hcount p
          rw [if_neg hq] at hold
          exact h.decided p (lt_of_lt_of_le hp hold)

theorem initial_decisionLaw (env : Env) : DecisionLaw (Sys.initial env).db :=
  ⟨fun _ => Nat.zero_le _, fun _ h => absurd h (lt_irrefl 0)⟩

theorem reachable_decisionLaw {log : List Action} {sys : Sys env}
    (h : Accepts (step env) (Sys.initial env) log sys)
    (hlawful : ∀ action ∈ log, action.Lawful env closing) : DecisionLaw sys.db := by
  have hrun := h.history (P := fun log sys => (∀ action ∈ log, action.Lawful env closing) →
    (sys.Idle ∧ AgentLaws closing sys) ∧ DecisionLaw sys.db)
    (fun _ => ⟨⟨rfl, initial_agentLaws env closing⟩, initial_decisionLaw env⟩)
    fun log v a w hv hstep hlawful => ?_
  · exact (hrun hlawful).2
  · obtain ⟨⟨hidle, hlaws⟩, hlaw⟩ := hv fun b hb => hlawful b (List.mem_append_left _ hb)
    obtain ⟨hto, hidle'⟩ := step_cases env hidle hstep
    have ha := hlawful a (List.mem_append_right _ (List.mem_singleton.mpr rfl))
    exact ⟨⟨hidle', hlaws.step ha hto⟩, hlaw.step hlaws hto⟩

end Pending

section Together

/-- A pending authorization of the proposal is published in this step, together with the card that
it names. -/
structure Publishes (db db' : Db) (p : Str) (s : ProposalState) (a : AuthorizationRow) : Prop where
  stored : a ∈ db.authorizations
  proposalId : a.proposalId = p
  target : a.authorizationType.target = s
  pending : a.status = .pending
  published : ∃ a', db'.authorization a.authorizationId = some a' ∧ Forward a a' ∧
    a'.status = .published
  card : ∃ c ∈ db.cards, c.proposalId = p ∧ c.cardHash = a.cardHash ∧ c.publishedAt = none ∧
    ∃ c' ∈ db'.cards, c.SameSeal c' ∧ c'.publishedAt.isSome

theorem find_of_mem {db : Db} (h : LedgerLaws db) {a : AuthorizationRow}
    (ha : a ∈ db.authorizations) : db.authorization a.authorizationId = some a := by
  unfold Db.authorization
  cases hfind : db.authorizations.find? fun r => r.authorizationId == a.authorizationId with
  | none =>
    have := List.find?_eq_none.mp hfind a ha
    simp at this
  | some found =>
    have hkey := List.find?_some hfind
    have hmem := List.mem_of_find?_eq_some hfind
    rw [List.inj_on_of_nodup_map h.ids hmem ha (by simpa using hkey)]

theorem Advanceable.together {request : AdvanceRequest} {now : Time} {db : Db}
    (hledger : LedgerLaws db) (hjustified : Justified db request.toPublishRequest)
    (h : Advanceable request db) :
    ∃ a, Publishes db (Gateway.advanced request now db) request.proposalId request.target a := by
  obtain ⟨a, ha, hhit⟩ := List.countP_pos_iff.mp (h.authorization ▸ Nat.one_pos)
  obtain ⟨c, hc, hcard⟩ := List.countP_pos_iff.mp (h.card ▸ Nat.one_pos)
  obtain ⟨hid, hpending⟩ : a.authorizationId = request.authorizationId ∧ a.status = .pending := by
    simpa using hhit
  obtain ⟨⟨hhash, hproposal⟩, hunpublished⟩ :
      (c.cardHash = request.cardHash ∧ c.proposalId = request.proposalId) ∧
        c.publishedAt = none := by
    simpa [isCard] using hcard
  obtain ⟨hrow, hrowHash, htarget⟩ := hjustified.row hledger ha hid
  refine ⟨a, ha, hrow, htarget.symm, hpending,
    ⟨advanceRow request a, ?_, advanceRow_forward _ _, ?_⟩,
    ⟨c, hc, hproposal, hhash.trans hrowHash.symm, hunpublished, _, List.mem_map_of_mem hc,
    published_sameSeal (fun r => isCard request.proposalId request.cardHash r &&
      r.publishedAt.isNone) request.roomMessageId now c, ?_⟩⟩
  · rw [authorization_map (advanceRow_id request) (advanced_authorizations request now db),
      find_of_mem hledger ha]
    rfl
  · rw [advanceRow, if_pos hhit]
  · rw [if_pos hcard]
    rfl

/-- An agent that confirms a card of its own approves nothing. -/
theorem AgentLaws.confirms {sys : Sys env} (hlaws : AgentLaws closing sys) {request : ConfirmRequest}
    (pending : .confirm request ∈ sys.jobs) {row : CardRow} {s' : ProposalState}
    {severity : Option Str} (confirmable : Confirmable env request sys.db row (some s') severity) :
    s' ≠ .approved ∧ s' ≠ .authorized := by
  obtain ⟨type, hcolumn, houtcome, -⟩ := confirmable.moves
  have hagent : request.confirmingRole ≠ .gateway := hlaws.jobs _ pending
  have hrow := List.mem_of_find?_eq_some confirmable.found
  obtain ⟨type', role, hcolumn', hrole, hprepared⟩ := hlaws.grants.prepared row hrow
  obtain rfl := CardType.column_injective (hcolumn.symm.trans hcolumn')
  have hsame := confirmable.role.resolve_left hagent
  obtain rfl := Option.some.inj (hrole.symm.trans hsame)
  rcases hprepared with ⟨-, hsubmit⟩ | ⟨hgateway, -⟩
  · exact outcome_agent type _ hagent hsubmit s' houtcome
  · exact absurd hgateway hagent

/-- An approval comes with its publication, unless a refusal of the plan brought it. -/
theorem StepTo.together {sys sys' : Sys env} {action : Action} (hlaws : AgentLaws closing sys)
    (hstep : StepTo env sys action sys') {p : Str} {s : ProposalState}
    (happroved : s = .approved ∨ s = .authorized) (hbefore : sys.db.proposalState p ≠ some s)
    (hafter : sys'.db.proposalState p = some s) :
    (∃ a, Publishes sys.db sys'.db p s a) ∨ ∃ job ∈ sys.jobs, ∃ closure more request now cardHash,
      ((∃ instructions, job = .revise instructions request ∧ closure = revision instructions) ∨
        job = .falseAlarm request ∧ closure = falseAlarm) ∧
      (∀ db, (more db).proposals = db.proposals) ∧
      CloseStep env closure more request now sys.db cardHash sys'.db ∧ request.proposalId = p := by
  cases hstep.stateStep with
  | same states => exact absurd ((states p).symm.trans hafter) hbefore
  | created q fresh states =>
    rw [states p] at hafter
    split at hafter
    · rcases happroved with rfl | rfl
      · cases hafter
      · cases hafter
    · exact absurd hafter hbefore
  | confirmed request now row t s' severity pending confirmable current states =>
    rw [states p] at hafter
    split at hafter
    · obtain rfl := Option.some.inj hafter
      obtain ⟨happ, hauth⟩ := hlaws.confirms pending confirmable
      rcases happroved with rfl | rfl
      · exact absurd rfl happ
      · exact absurd rfl hauth
    · exact absurd hafter hbefore
  | advanced request now pending advanceable result states =>
    rw [states p] at hafter
    split at hafter
    · rename_i hp
      obtain rfl := Option.some.inj hafter
      rw [hp, result]
      exact .inl (advanceable.together hlaws.ledger (hlaws.jobs _ pending))
    · exact absurd hafter hbefore
  | closed job closure more request now cardHash s' pending isClosure keeps closing planned outcome
      states =>
    rw [states p] at hafter
    split at hafter
    · rename_i hp
      exact .inr ⟨job, pending, closure, more, request, now, cardHash, isClosure, keeps,
        closing, hp.symm⟩
    · exact absurd hafter hbefore

/-- The authorizations that one nonce yielded. -/
def yields (p n : Str) (a : AuthorizationRow) : Bool := a.proposalId == p && a.nonce == some n

theorem LedgerLaws.yields_le {db : Db} (h : LedgerLaws db) (p n : Str) :
    db.authorizations.countP (yields p n) ≤ 1 := by
  have hcount := List.nodup_iff_count_le_one.mp h.once (p, n)
  rw [List.count, List.countP_filterMap] at hcount
  refine le_trans (List.countP_mono_left fun a _ ha => ?_) hcount
  obtain ⟨hp, hn⟩ : a.proposalId = p ∧ a.nonce = some n := by
    simpa [yields] using ha
  simp [usedNonce, hp, hn]

theorem sampleActions_lawful : ∀ action ∈ sampleSealed.2, action.Lawful sampleEnv False := by
  intro action haction
  have hattempted : action ∈ sampleActions := mem_of_mem_run haction
  simp only [sampleActions, List.mem_cons, List.not_mem_nil, or_false] at hattempted
  rcases hattempted with rfl | rfl | rfl | rfl
  · simp only [sampleProposal, Action.Lawful]
    decide +kernel
  · trivial
  · simp only [sampleTriage, Action.Lawful]
    decide +kernel
  · trivial

end Together
end Concordia.Gateway
