import Concordia.Gateway.Publications

/-! What lies behind an execution: a receipt is confirmed while its proposal is approved or
authorized, and agents get there with an authorization only. -/
namespace Concordia.Gateway
open Concordia.Python Concordia.Lib.Transactions Concordia.Lib.Transition
open Concordia.Js hiding Value

variable {env : Env}

section Proposals

/-- Every card belongs to a proposal. -/
def Housed (db : Db) : Prop := ∀ c ∈ db.cards, (db.proposalState c.proposalId).isSome

/-- Proposals are not deleted. -/
theorem StateStep.isSome {sys sys' : Sys env} (h : StateStep sys sys') {p : Str}
    (hp : (sys.db.proposalState p).isSome) : (sys'.db.proposalState p).isSome := by
  have hmoved : ∀ {q : Str} {s : ProposalState}, Moved sys.db sys'.db q s →
      (sys'.db.proposalState p).isSome := by
    intro q s hmoved
    rw [hmoved p]
    split
    · rfl
    · exact hp
  cases h with
  | same states => rwa [states p]
  | created q fresh states => exact hmoved states
  | confirmed request now row s s' severity pending confirmable current states => exact hmoved states
  | advanced request now pending advanceable result states => exact hmoved states
  | closed job closure more request now cardHash s' pending isClosure keeps closing planned outcome
      states => exact hmoved states

theorem Housed.step {sys sys' : Sys env} {action : Action} (h : Housed sys.db)
    (hstep : StepTo env sys action sys') : Housed sys'.db := by
  have hkeep : ∀ {p : Str}, (sys.db.proposalState p).isSome → (sys'.db.proposalState p).isSome :=
    hstep.stateStep.isSome
  intro c hc
  cases hstep.cardsStep with
  | same cards =>
    rw [cards] at hc
    exact hkeep (h c hc)
  | published hits messageId now cards =>
    rw [cards] at hc
    obtain ⟨d, hd, rfl⟩ := List.mem_map.mp hc
    rw [(published_sameSeal hits messageId now d).proposalId]
    exact hkeep (h d hd)
  | appended card proposalId key role requestFp fresh known cards =>
    rw [cards] at hc
    rcases List.mem_append.mp hc with hold | hnew
    · exact hkeep (h c hold)
    · rw [List.mem_singleton.mp hnew]
      exact hkeep (by rw [Db.proposalState, Option.isSome_map]; exact known)

theorem reachable_housed {log : List Action} {sys : Sys env}
    (h : Accepts (step env) (Sys.initial env) log sys) : Housed sys.db := by
  have hrun := h.invariant (P := fun sys => sys.Idle ∧ Housed sys.db)
    ⟨rfl, fun _ hc => absurd hc List.not_mem_nil⟩ fun v a w hv hstep => ?_
  · exact hrun.2
  · obtain ⟨hto, hidle⟩ := step_cases env hv.1 hstep
    exact ⟨hidle, hv.2.step hto⟩

end Proposals

section Receipts

/-- The proposal is executed, or its receipt is published. -/
def Executed (db : Db) (p : Str) : Prop :=
  db.proposalState p = some .executed ∨ ∃ c ∈ db.cards, c.proposalId = p ∧
    c.cardType = CardType.casperExecutionReceipt.column ∧ c.publishedAt.isSome

instance (db : Db) (p : Str) : Decidable (Executed db p) :=
  inferInstanceAs (Decidable (_ ∨ ∃ c ∈ db.cards, _ ∧ _ ∧ _))

/-- The proposal may be executed. -/
def IsGranted (db : Db) (p : Str) : Prop :=
  db.proposalState p = some .approved ∨ db.proposalState p = some .authorized

theorem executed_outcome : ∀ t, (t, ProposalState.executed) ∈ stateOutcomes →
    t = .casperExecutionReceipt := by
  intro t
  cases t <;> decide +kernel

/-- A stored card is confirmed only in a state that its type requires. -/
theorem Confirmable.prerequisite {request : ConfirmRequest} {db : Db} {row : CardRow}
    {newState : Option ProposalState} {severity : Option Str}
    (h : Confirmable env request db row newState severity) (hhoused : Housed db) {t : CardType}
    (htype : row.cardType = t.column) {allowed : List ProposalState}
    (hallowed : statePrerequisites t = some allowed) :
    ∃ s ∈ allowed, db.proposalState request.proposalId = some s := by
  have hrow := List.mem_of_find?_eq_some h.found
  have hkey := List.find?_some h.found
  simp only [isPrepared, Bool.and_eq_true, beq_iff_eq] at hkey
  obtain ⟨s, hs⟩ := Option.isSome_iff_exists.mp (hhoused row hrow)
  rw [hkey.1.1] at hs
  have hfits := h.fits
  unfold staleState at hfits
  rw [hs, htype, CardType.ofColumn_column, Option.bind_some, hallowed] at hfits
  simp only [Option.map_some, ite_eq_left_iff, reduceCtorEq, imp_false, not_not] at hfits
  exact ⟨s, List.contains_iff_mem.mp hfits, hs⟩

theorem Confirmable.granted {request : ConfirmRequest} {db : Db} {row : CardRow}
    {newState : Option ProposalState} {severity : Option Str}
    (h : Confirmable env request db row newState severity) (hhoused : Housed db)
    (htype : row.cardType = CardType.casperExecutionReceipt.column) :
    IsGranted db request.proposalId := by
  obtain ⟨s, hs, hstate⟩ := h.prerequisite hhoused htype rfl
  simp only [List.mem_cons, List.not_mem_nil, or_false] at hs
  rcases hs with rfl | rfl
  · exact .inl hstate
  · exact .inr hstate

/-- An execution is a confirmation in a state that allows it. -/
theorem StepTo.executes {sys sys' : Sys env} {action : Action} (hhoused : Housed sys.db)
    (hlaw : PublicationLaw sys) (hpublication : Publication sys action sys')
    (hstep : StepTo env sys action sys') {p : Str} (hbefore : ¬ Executed sys.db p)
    (hafter : Executed sys'.db p) : IsGranted sys.db p := by
  obtain ⟨hstate, hcards⟩ := not_or.mp hbefore
  rcases hafter with hexecuted | ⟨c, hc, hproposal, htype, hpublished⟩
  · obtain ⟨request, row, severity, -, hconfirm, rfl⟩ :=
      hstep.confirms hlaw (by decide) (fun hclose => nomatch executed_outcome _ hclose) hstate hexecuted
    obtain ⟨t, hcolumn, houtcome, -⟩ := hconfirm.moves
    obtain rfl := executed_outcome t houtcome
    exact hconfirm.granted hhoused hcolumn
  · have hold : c ∉ sys.db.cards := fun hmem => hcards ⟨c, hmem, hproposal, htype, hpublished⟩
    have hrow : ∀ {row : CardRow} {messageId : Str} {now : Time},
        sys'.db.cards = publishRow row messageId now sys.db.cards →
          c = { row with publishedAt := some now, roomMessageId := some messageId } := by
      intro row messageId now hpublish
      rw [hpublish] at hc
      obtain ⟨d, hd, heq⟩ := List.mem_map.mp hc
      split at heq
      · rename_i hrow
        rw [← heq, hrow]
      · exact absurd (heq ▸ hd) hold
    have happroval : ∀ {row : CardRow}, row.cardType = CardType.structuredApproval.column ∨
        row.cardType = CardType.policyAuthorization.column →
        row.cardType ≠ CardType.casperExecutionReceipt.column := by
      intro row hrow heq
      rcases hrow with h | h
      · cases CardType.column_injective (h.symm.trans heq)
      · cases CardType.column_injective (h.symm.trans heq)
    cases hpublication with
    | unpublished new unpublished cards =>
      rw [cards] at hc
      have hnew := (List.mem_append.mp hc).resolve_left hold
      rw [(unpublished c hnew).1] at hpublished
      cases hpublished
    | confirmed request now row newState severity resumed stored confirmable cards =>
      have hkey := List.find?_some confirmable.found
      simp only [isPrepared, Bool.and_eq_true, beq_iff_eq] at hkey
      obtain rfl := hrow cards
      rw [← hproposal]
      rw [hkey.1.1]
      exact confirmable.granted hhoused htype
    | advanced request now row resumed stored advanceable named fresh approves cards =>
      obtain rfl := hrow cards
      exact absurd htype (happroval approves)
    | notified notification messageId now row resumed stored named fresh approves cards =>
      obtain rfl := hrow cards
      exact absurd htype (happroval approves)

end Receipts

section Grants

/-- An authorization of the proposal was published. -/
def HasPublished (db : Db) (p : Str) : Prop :=
  ∃ a ∈ db.authorizations, a.proposalId = p ∧ a.status ≠ .pending

theorem DistinctKeys.before {db db' : Db} (h : DistinctKeys env db') (hstep : LedgerStep env db db') :
    DistinctKeys env db := by
  intro r hr r' hr' hproposal keyPrefix hstart keyPrefix' hstart' hkey
  obtain ⟨s, hs, hages⟩ := hstep.nonce_ages r hr
  obtain ⟨s', hs', hages'⟩ := hstep.nonce_ages r' hr'
  have := h s hs s' hs' (by rw [hages.proposalId, hages'.proposalId, hproposal]) keyPrefix hstart
    keyPrefix' hstart' (by rw [hages.proposalId, hages.nonce, hages'.proposalId, hages'.nonce, hkey])
  rwa [hages.nonce, hages'.nonce] at this

theorem HasPublished.step {db db' : Db} {p : Str} (h : HasPublished db p) (hledger : LedgerLaws db)
    (hstep : LedgerStep env db db') : HasPublished db' p := by
  obtain ⟨a, ha, hproposal, hstatus⟩ := h
  obtain ⟨a', ha', hforward⟩ := hstep.forward (find_of_mem hledger ha)
  refine ⟨a', List.mem_of_find?_eq_some ha', hforward.same_grant.2.1.trans hproposal, fun hpending => ?_⟩
  cases hforward with
  | same => exact hstatus hpending
  | published roomMessageId pending => cases hpending
  | consumed role now published => cases hpending

/-- In runs of agents, a proposal that may be executed has a published authorization. -/
theorem reachable_granted {log : List Action} {sys : Sys env}
    (h : Accepts (step env) (Sys.initial env) log sys)
    (hlawful : ∀ action ∈ log, action.Lawful env True) (hkeys : DistinctKeys env sys.db) :
    ∀ p, IsGranted sys.db p → HasPublished sys.db p := by
  induction h with
  | start => rintro p (h | h) <;> cases h
  | @accept log v w a hrun hstep ih =>
    have hlawfulv : ∀ b ∈ log, b.Lawful env True := fun b hb => hlawful b (List.mem_append_left _ hb)
    obtain ⟨hidle, hlaws⟩ := reachable_agentLaws hrun hlawfulv
    have hto := (step_cases env hidle hstep).1
    have hbefore := hkeys.before hto.ledgerStep
    have hgranted : ∀ p s, s = .approved ∨ s = .authorized → w.db.proposalState p = some s →
        HasPublished w.db p := by
      intro p s hs hafter
      by_cases hsame : v.db.proposalState p = some s
      · refine HasPublished.step (ih hlawfulv hbefore p ?_) hlaws.ledger hto.ledgerStep
        rcases hs with rfl | rfl
        · exact .inl hsame
        · exact .inr hsame
      · obtain ⟨b, hb⟩ := reachable_publishes hrun hlawfulv hbefore hto hs hsame hafter
        obtain ⟨b', hb', hforward, hstatus⟩ := hb.published
        exact ⟨b', List.mem_of_find?_eq_some hb',
          hforward.same_grant.2.1.trans hb.proposalId, by rw [hstatus]; decide⟩
    rintro p (hp | hp)
    · exact hgranted p .approved (.inl rfl) hp
    · exact hgranted p .authorized (.inr rfl) hp

/-- Behind every execution lies a step that made it, in a state that allowed it; agents cannot make
it without an authorization of the proposal that was published before. -/
theorem executions_granted {log : List Action} {sys : Sys env}
    (h : Accepts (step env) (Sys.initial env) log sys) (hcollision : NoCollision sys.db) {p : Str}
    (hp : Executed sys.db p) :
    ∃ earlier action later v w, log = earlier ++ action :: later ∧
      Accepts (step env) (Sys.initial env) earlier v ∧ step env v action = some w ∧
      ¬ Executed v.db p ∧ Executed w.db p ∧ IsGranted v.db p ∧
      ((∀ action ∈ log, action.Lawful env True) → DistinctKeys env sys.db → HasPublished v.db p) := by
  induction h with
  | start =>
    rcases hp with hstate | ⟨c, hc, -⟩
    · cases hstate
    · cases hc
  | @accept log v w a hrun hstep ih =>
    have hto := (step_cases env (reachable_laws hrun).1 hstep).1
    obtain ⟨cards, hgrow⟩ := hto.cardsStep.grow
    have hbefore := hcollision.before hgrow
    by_cases hold : Executed v.db p
    · obtain ⟨earlier, action, later, t, u, rfl, ht, hstep', hnot, hexecuted, hgranted, hpublished⟩ :=
        ih hbefore hold
      refine ⟨earlier, action, later ++ [a], t, u, by simp, ht, hstep', hnot, hexecuted, hgranted,
        fun hlawful hkeys => hpublished (fun b hb => ?_) (hkeys.before hto.ledgerStep)⟩
      exact hlawful b (List.mem_append_left _ hb)
    · have hgranted := hto.executes (reachable_housed hrun) (reachable_publicationLaw hrun).2
        (reachable_publication hrun hbefore hto) hold hp
      refine ⟨log, a, [], v, w, rfl, hrun, hstep, hold, hp, hgranted, fun hlawful hkeys => ?_⟩
      exact reachable_granted hrun (fun b hb => hlawful b (List.mem_append_left _ hb))
        (hkeys.before hto.ledgerStep) p hgranted

/-- An approval whose authorization is never consumed, and a receipt that names another one. -/
def unconsumedRun : Sys sampleEnv × List Action :=
  play sampleStart (opening ++ reviewing "low" ++ planning 4 4 "rebalance_a" "low" ++ challenging 5 ++
    consuming 6 5 ++ resuming 6 ++ resuming 7 ++ resuming 8 ++ receiving 9 6 "unknown")

/-- An approval that the gateway's own key prepares and confirms. -/
def gatewayRun : Sys sampleEnv × List Action :=
  play sampleStart (opening ++ reviewing "low" ++ planning 4 4 "rebalance_a" "low" ++
    publishing 5 5 .structuredApproval .gateway "key-gateway" [("action_id", .str (js "a")),
      ("action_hash", .str (js "h")), ("decision", .str (js "APPROVED")),
      ("approver_id", .str (js "human-1")), ("plan_hash", .str (js "h")), ("nonce", .str (js "n")),
      ("expiry", .str (js "e"))] ++ receiving 6 6 "unknown")

/-- Both runs in one evaluation, which shares their beginning; a value, as the next one waits for
it. -/
def runsExecuted : PLift ((Executed unconsumedRun.1.db (js "P1") ∧
    NoCollision unconsumedRun.1.db ∧ DistinctKeys sampleEnv unconsumedRun.1.db ∧
    (∀ action ∈ unconsumedRun.2, action.Lawful sampleEnv True) ∧
    (∀ a ∈ unconsumedRun.1.db.authorizations,
      a.status = .published ∧ a.authorizationId ≠ js "unknown")) ∧
    Executed gatewayRun.1.db (js "P1") ∧ gatewayRun.1.db.authorizations = []) where
  down := by decide +kernel

theorem executions_granted_example : ∃ earlier v, Accepts (step sampleEnv) (Sys.initial sampleEnv)
    earlier v ∧ IsGranted v.db (js "P1") ∧ HasPublished v.db (js "P1") := by
  obtain ⟨⟨hexecuted, hcollision, hkeys, hlawful, -⟩, -⟩ := runsExecuted.down
  have hrun : Accepts (step sampleEnv) (Sys.initial sampleEnv) unconsumedRun.2 unconsumedRun.1 :=
    play_accepts _ .start
  obtain ⟨earlier, action, later, v, w, -, hv, -, -, -, hgranted, hpublished⟩ :=
    executions_granted hrun hcollision hexecuted
  exact ⟨earlier, v, hv, hgranted, hpublished hlawful hkeys⟩

/-- Agents execute a proposal whose authorization is not consumed, with a receipt that names no
authorization; the gateway's key needs no authorization at all. -/
theorem executes_unconsumed :
    (Accepts (step sampleEnv) (Sys.initial sampleEnv) unconsumedRun.2 unconsumedRun.1 ∧
      (∀ action ∈ unconsumedRun.2, action.Lawful sampleEnv True) ∧
      Executed unconsumedRun.1.db (js "P1") ∧ ∀ a ∈ unconsumedRun.1.db.authorizations,
        a.status = .published ∧ a.authorizationId ≠ js "unknown") ∧
      Accepts (step sampleEnv) (Sys.initial sampleEnv) gatewayRun.2 gatewayRun.1 ∧
      Executed gatewayRun.1.db (js "P1") ∧ gatewayRun.1.db.authorizations = [] := by
  obtain ⟨⟨hexecuted, -, -, hlawful, hauths⟩, hgateway⟩ := runsExecuted.down
  exact ⟨⟨play_accepts _ .start, hlawful, hexecuted, hauths⟩, play_accepts _ .start, hgateway⟩

end Grants
end Concordia.Gateway
