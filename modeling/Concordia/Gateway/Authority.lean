import Concordia.Gateway.Decisions

/-! Who approves, when agents prepare and confirm with their own keys: a human on the list or a
policy, through the lifecycle advance and nothing else. -/
namespace Concordia.Gateway
open Concordia.Python Concordia.Lib.Transactions Concordia.Lib.Transition
open Concordia.Js hiding Value

variable {env : Env}

section Keys

/-- The prefixes under which the gateway seals a StructuredApproval for a nonce. -/
def approvalPrefixes : List String := ["gateway_approval", "gateway_rejection", "gateway_false_alarm"]

variable (env) in
/-- Every StructuredApproval was sealed for a nonce, which is closed since. -/
def ApprovalKeys (db : Db) : Prop :=
  ∀ c ∈ db.cards, c.cardType = CardType.structuredApproval.column →
    ∃ keyPrefix ∈ approvalPrefixes, ∃ r ∈ db.nonces, r.proposalId = c.proposalId ∧
      c.idempotencyKey = some (deriveIdempotencyKey env keyPrefix c.proposalId r.nonce) ∧
      (r.consumed = true ∨ r.invalidated = true)

variable (env) in
/-- The digest keeps the idempotency keys of the nonces of a proposal apart. -/
def DistinctKeys (db : Db) : Prop :=
  ∀ r ∈ db.nonces, ∀ r' ∈ db.nonces, r.proposalId = r'.proposalId →
    ∀ keyPrefix ∈ approvalPrefixes, ∀ keyPrefix' ∈ approvalPrefixes,
      deriveIdempotencyKey env keyPrefix r.proposalId r.nonce =
        deriveIdempotencyKey env keyPrefix' r'.proposalId r'.nonce →
      keyPrefix = keyPrefix' ∧ r.nonce = r'.nonce

variable {db db' : Db}

/-- The law grows with the tables: a nonce that is closed stays closed. -/
theorem ApprovalKeys.grow (h : ApprovalKeys env db) {cards : List CardRow}
    (hgrow : CardsGrow db db' cards)
    (hnonces : ∀ r ∈ db.nonces, ∃ r' ∈ db'.nonces, r.Ages r')
    (hnew : ∀ c ∈ cards, c.cardType = CardType.structuredApproval.column →
      ∃ keyPrefix ∈ approvalPrefixes, ∃ r ∈ db'.nonces, r.proposalId = c.proposalId ∧
        c.idempotencyKey = some (deriveIdempotencyKey env keyPrefix c.proposalId r.nonce) ∧
        (r.consumed = true ∨ r.invalidated = true)) : ApprovalKeys env db' := by
  intro c' hc' htype
  rcases hgrow.origin hc' with ⟨c, hc, hsame⟩ | hfresh
  · obtain ⟨keyPrefix, hstart, r, hr, hproposal, hkey, hclosed⟩ :=
      h c hc (hsame.cardType.symm.trans htype)
    obtain ⟨r', hr', hages⟩ := hnonces r hr
    refine ⟨keyPrefix, hstart, r', hr', ?_, ?_, hclosed.imp hages.consumed hages.invalidated⟩
    · rw [hages.proposalId, hproposal, hsame.proposalId]
    · rw [hsame.idempotencyKey, hkey, hsame.proposalId, hages.nonce]
  · exact hnew c' hfresh htype

/-- A nonce row stays, with its key; it may be closed. -/
theorem LedgerStep.nonce_ages (h : LedgerStep env db db') : ∀ r ∈ db.nonces, ∃ r' ∈ db'.nonces,
    r.Ages r' := by
  have hmap : ∀ f : NonceRow → NonceRow, (∀ r : NonceRow, r.Ages (f r)) →
      (∀ r ∈ db.nonces, f r ∈ db'.nonces) → ∀ r ∈ db.nonces, ∃ r' ∈ db'.nonces, r.Ages r' :=
    fun f ages hmem r hr => ⟨f r, hmem r hr, ages r⟩
  cases h with
  | aged f ages nonces authorizations =>
    exact hmap f ages fun r hr => by rw [nonces]; exact List.mem_map_of_mem hr
  | created row nonces authorizations =>
    obtain ⟨inserted, hinserted, hnonces⟩ := Option.map_eq_some_iff.mp nonces
    unfold insertNonce at hinserted
    simp only [Option.ite_none_left_eq_some, Option.some.injEq] at hinserted
    obtain ⟨-, rfl⟩ := hinserted
    refine hmap _ (invalidated_ages row.proposalId) fun r hr => ?_
    rw [← hnonces]
    exact List.mem_append_left _ (List.mem_map_of_mem (f := fun r : NonceRow =>
      if r.proposalId == row.proposalId && !r.consumed then { r with invalidated := true } else r) hr)
  | consumed request authorizationId envelopesJson row cardHash now fresh consumable nonces
      authorizations =>
    refine hmap (fun r => if r.proposalId == request.proposalId && r.nonce == request.nonce then
      { r with consumed := true, consumedBy := some request.consumedBy, consumedAt := some now }
      else r) (fun r => ?_) fun r hr => ?_
    · split
      · exact consumeNonceOnly_ages _ _ r
      · exact .refl r
    · rw [nonces]
      exact List.mem_map_of_mem hr
  | authorized request authorizationId cardHash fresh nonces authorizations =>
    exact hmap id NonceRow.Ages.refl fun r hr => by rw [nonces]; exact hr
  | advanced request now advanceable nonces authorizations =>
    exact hmap id NonceRow.Ages.refl fun r hr => by rw [nonces]; exact hr
  | used authorizationId role now nonces authorizations =>
    exact hmap id NonceRow.Ages.refl fun r hr => by rw [nonces]; exact hr

theorem ApprovalKeys.sealed (h : ApprovalKeys env db) {card : Card env.floats} {proposalId : Str}
    {key : Option Str} {role : Option Role} {requestFp : Option Str} {result : Sealed env.floats}
    {behindSeal : Db}
    (hseal : SealStep env card proposalId key role requestFp db result behindSeal)
    (hcards : db'.cards = behindSeal.cards)
    (hnonces : ∀ r ∈ db.nonces, ∃ r' ∈ db'.nonces, r.Ages r')
    (hnew : card.cardType = .structuredApproval →
      ∃ keyPrefix ∈ approvalPrefixes, ∃ r ∈ db'.nonces, r.proposalId = proposalId ∧
        key = some (deriveIdempotencyKey env keyPrefix proposalId r.nonce) ∧
        (r.consumed = true ∨ r.invalidated = true)) : ApprovalKeys env db' := by
  obtain ⟨cards, happended, hrows, -⟩ := hseal.grown
  refine h.grow (.appended (hcards.trans happended)) hnonces fun c hc htype => ?_
  rw [(hrows c hc).1] at htype ⊢
  exact hnew (CardType.column_injective htype)

theorem ApprovalKeys.kept (h : ApprovalKeys env db) (hgrow : CardsGrow db db' [])
    (hnonces : ∀ r ∈ db.nonces, ∃ r' ∈ db'.nonces, r.Ages r') : ApprovalKeys env db' :=
  h.grow hgrow hnonces (by simp)

theorem CloseStep.approvalKeys (h : ApprovalKeys env db) {closure : Closure} {more : Db → Db}
    {request : CloseRequest} {now : Time} {cardHash : Str}
    (hmore : ∀ db, (more db).cards = db.cards ∧ (more db).nonces = db.nonces)
    (hstart : closure.keyPrefix ∈ approvalPrefixes)
    (hnonces : ∀ r ∈ db.nonces, ∃ r' ∈ db'.nonces, r.Ages r')
    (hstep : CloseStep env closure more request now db cardHash db') : ApprovalKeys env db' := by
  cases hstep with
  | intro row card approval behindSeal planned valid isApproval decided sealing =>
    refine h.sealed sealing (hmore _).1 hnonces fun _ => ⟨closure.keyPrefix, hstart, ?_⟩
    have hvalid := validNonce_of_ok valid
    obtain ⟨hrow, hkey⟩ := mem_of_nonce hvalid.found
    obtain ⟨hproposal, hnonce⟩ := Prod.mk.inj hkey
    refine ⟨{ row with invalidated := true }, ?_, hproposal, ?_, .inr rfl⟩
    · rw [(hmore _).2]
      refine List.mem_map.mpr ⟨row, by rw [sealing.ledger.1]; exact hrow, ?_⟩
      simp [hproposal, hnonce, hvalid.unconsumed]
    · simp only [hnonce]

theorem resume_approvalKeys {closing : Prop} {draws : Draws} {next : List (Job env)} {job : Job env}
    (h : ApprovalKeys env db) (hjob : JobLaw closing db job)
    (hfresh : db.authorization draws.uuid = none)
    (hpost : resumePost env draws db next db' job) : ApprovalKeys env db' := by
  have hnonces := (resume_ledgerStep hfresh hpost).nonce_ages
  have hsame : db'.cards = db.cards → ApprovalKeys env db' := fun hcards =>
    h.kept (.same hcards) hnonces
  have hpublished : ∀ (hits : CardRow → Bool) (messageId : Str) (now : Time),
      db'.cards = (publishCards hits messageId now db).2.cards → ApprovalKeys env db' :=
    fun _ _ _ hcards => h.kept (.published hcards) hnonces
  cases job with
  | sealCard request =>
    rcases hpost.2 with rfl | ⟨result, hseal⟩
    · exact h
    · refine h.sealed hseal rfl hnonces fun happroval => ?_
      -- no agent may submit a StructuredApproval
      obtain ⟨hrole, hsubmit⟩ := hjob
      rw [happroval] at hsubmit
      generalize request.preparedByRole = role at hrole hsubmit
      cases role with
      | gateway => exact absurd rfl hrole
      | _ => cases hsubmit
  | confirm request =>
    rcases hpost.2 with rfl | ⟨row, newState, severity, -, rfl⟩
    · exact h
    · exact hpublished _ _ _ rfl
  | consumeNonce request =>
    rcases hpost with ⟨rfl, -⟩ | ⟨consumption, hstep, -⟩
    · exact h
    · cases hstep with
      | intro row envelopesJson card approval behindSeal _ consumable isApproval sealing target =>
        refine h.sealed sealing (insertAuthorization_cards _ _) hnonces fun _ =>
          ⟨"gateway_approval", List.mem_cons_self, ?_⟩
        have hvalid := validNonce_of_ok consumable.valid
        obtain ⟨hrow, hkey⟩ := mem_of_nonce hvalid.found
        obtain ⟨hproposal, hnonce⟩ := Prod.mk.inj hkey
        have hbehind : behindSeal.authorization draws.uuid = none := by
          simpa only [Db.authorization, sealing.ledger.2.1] using hfresh
        refine ⟨{ row with
          consumed := true
          consumedBy := some request.consumedBy
          consumedAt := some draws.now }, ?_, hproposal, by simp only [hnonce], .inl rfl⟩
        rw [consumed, insertAuthorization_fresh hbehind]
        refine List.mem_map.mpr ⟨row, by simpa only [sealing.ledger.1] using hrow, ?_⟩
        rw [if_pos (by simp [hproposal, hnonce])]
  | sealPolicy request =>
    rcases hpost with ⟨rfl, -⟩ | ⟨publication, hstep, -⟩
    · exact h
    · cases hstep with
      | intro approval behindSeal sealing =>
        refine h.sealed sealing (insertAuthorization_cards _ _) hnonces fun happroval => ?_
        cases happroval
  | revise instructions request =>
    rcases hpost with ⟨rfl, -⟩ | ⟨cardHash, roomId, hstep, -⟩
    · exact h
    · exact hstep.approvalKeys h (fun _ => ⟨rfl, rfl⟩) (by simp [revision, approvalPrefixes]) hnonces
  | falseAlarm request =>
    rcases hpost with ⟨rfl, -⟩ | ⟨cardHash, roomId, hstep, -⟩
    · exact h
    · exact hstep.approvalKeys h (fun db => ⟨addSuppressionRule_cards _ db,
        (addSuppressionRule_ledger _ db).1⟩) (by simp [falseAlarm, approvalPrefixes]) hnonces
  | advance request =>
    rcases hpost.2 with rfl | ⟨-, rfl⟩
    · exact h
    · exact hpublished _ _ _ rfl
  | recordNotification notification messageId =>
    rw [hpost.2] at hpublished ⊢
    exact hpublished _ _ _ rfl
  | createNonce row =>
    rcases hpost.2 with rfl | hinsert
    · exact h
    · unfold insertNonce at hinsert
      simp only [Option.ite_none_left_eq_some, Option.some.injEq] at hinsert
      exact hsame (by rw [← hinsert.2])
  | postChallenge request => exact hsame hpost.1.cards
  | recordChallenge record => exact hsame (by rw [hpost.2, challenged])
  | publishApproval request => exact hsame hpost.1.cards
  | publishPolicy request => exact hsame hpost.1.cards
  | notify notification attempts => exact hsame hpost.1.cards
  | consumeAuthorization request =>
    rcases hpost.2 with rfl | rfl
    · exact h
    · exact hsame rfl

theorem reachable_approvalKeys {closing : Prop} {log : List Action} {sys : Sys env}
    (h : Accepts (step env) (Sys.initial env) log sys)
    (hlawful : ∀ action ∈ log, action.Lawful env closing) : ApprovalKeys env sys.db := by
  have hrun := h.history (P := fun log sys => (∀ action ∈ log, action.Lawful env closing) →
    (sys.Idle ∧ AgentLaws closing sys) ∧ ApprovalKeys env sys.db)
    (fun _ => ⟨⟨rfl, initial_agentLaws env closing⟩, fun _ hc => absurd hc List.not_mem_nil⟩)
    fun log v a w hv hstep hlawful => ?_
  · exact (hrun hlawful).2
  · obtain ⟨⟨hidle, hlaws⟩, hkeys⟩ := hv fun b hb => hlawful b (List.mem_append_left _ hb)
    obtain ⟨hto, hidle'⟩ := step_cases env hidle hstep
    have ha := hlawful a (List.mem_append_right _ (List.mem_singleton.mpr rfl))
    refine ⟨⟨hidle', hlaws.step ha hto⟩, ?_⟩
    have hages := hto.ledgerStep.nonce_ages
    cases hto with
    | request request draws next db' fresh post =>
      exact hkeys.kept (.same (start_cards post)) hages
    | resume index draws job next db' fresh pending post =>
      exact resume_approvalKeys hkeys (hlaws.jobs job (List.mem_of_getElem? pending)) fresh post

end Keys

section Refusals

theorem nextSealed_decision {card : Card env.floats} {proposalId : Str} {db : Db} :
    (nextSealed env card proposalId db).card.dump.get "decision" = card.dump.get "decision" := by
  have hsequence : js "decision" ≠ js "sequence_number" := by decide +kernel
  have hprevious : js "decision" ≠ js "previous_card_hash" := by decide +kernel
  unfold nextSealed
  cases Db.lastBySequence (db.cardsOf proposalId) with
  | none => exact linked_get hsequence hprevious
  | some prev => exact linked_get hsequence hprevious

theorem resolveStateOf_rejected {data : Dict} (h : data.get "decision" = .str (js "REJECTED")) :
    resolveStateOf .structuredApproval data = some .rejected := by
  rw [resolveStateOf, h]
  decide +kernel

theorem resolveStateOf_falseAlarm {data : Dict}
    (h : data.get "decision" = .str (js "FALSE_ALARM")) :
    resolveStateOf .structuredApproval data = some .closedFalseAlarm := by
  rw [resolveStateOf, h]
  decide +kernel

/-- A refusal refuses, as long as it does not find the card of an earlier decision. -/
theorem CloseStep.refuses {db db' : Db} {closure : Closure} {more : Db → Db}
    {request : CloseRequest} {now : Time} {cardHash : Str} {p : Str} {s : ProposalState}
    (hledger : LedgerLaws db) (hkeys : ApprovalKeys env db) (hdistinct : DistinctKeys env db)
    (hclosure : (∃ instructions, closure = revision instructions) ∨ closure = falseAlarm)
    (hmore : ∀ db, (more db).proposals = db.proposals)
    (hstep : CloseStep env closure more request now db cardHash db')
    (hp : request.proposalId = p) (hafter : db'.proposalState p = some s) :
    s = .rejected ∨ s = .closedFalseAlarm := by
  have hstart : closure.keyPrefix ∈ approvalPrefixes := by
    rcases hclosure with ⟨instructions, rfl⟩ | rfl
    · simp [revision, approvalPrefixes]
    · simp [falseAlarm, approvalPrefixes]
  cases hstep with
  | intro row card approval behindSeal planned valid isApproval decided sealing =>
    cases sealing with
    | appended _ fresh inserted =>
      -- the state that the new card leads to
      have hdecision : (nextSealed env card request.proposalId db).card.dump.get "decision" =
          .str (js closure.decision) := nextSealed_decision.trans decided
      obtain ⟨inc, hinc, -⟩ := Option.map_eq_some_iff.mp planned
      rw [proposalState_congr (hmore _), closed, proposalState_update (by simp)] at hafter
      obtain ⟨after, hafter, hs⟩ := Option.map_eq_some_iff.mp hafter
      have hid := proposalId_of_proposal hafter
      rw [if_pos (by rw [hid, hp]; exact beq_self_eq_true p)] at hs
      rcases hclosure with ⟨instructions, rfl⟩ | rfl
      · rw [resolveStateOf_rejected hdecision] at hs
        exact .inl hs.symm
      · rw [resolveStateOf_falseAlarm hdecision] at hs
        exact .inr hs.symm
    | replayed existing _ found parsed hash =>
      obtain ⟨key, hkey, hfound⟩ := Option.bind_eq_some_iff.mp found
      have hstored := List.mem_of_find?_eq_some hfound
      have hmatch := List.find?_some hfound
      simp only [Bool.and_eq_true, beq_iff_eq, isApproval.type] at hmatch
      obtain ⟨⟨hproposal, hexisting⟩, htype⟩ := hmatch
      obtain ⟨keyPrefix, hstart', r, hr, hrproposal, hrkey, hclosed⟩ := hkeys existing hstored htype
      have hvalid := validNonce_of_ok valid
      obtain ⟨hrow, hrowkey⟩ := mem_of_nonce hvalid.found
      obtain ⟨hrowproposal, hrownonce⟩ := Prod.mk.inj hrowkey
      -- one key for two nonces, of which one is closed and the other is open
      have hsame : deriveIdempotencyKey env keyPrefix r.proposalId r.nonce =
          deriveIdempotencyKey env closure.keyPrefix row.proposalId row.nonce := by
        rw [eq_of_truthy hkey, hrkey, Option.some.injEq, hproposal] at hexisting
        rw [hrproposal, hproposal, hexisting, hrowproposal, hrownonce]
      obtain ⟨-, hnonce⟩ := hdistinct r hr row hrow
        (by rw [hrproposal, hproposal, hrowproposal]) _ hstart' _ hstart hsame
      have := hledger.unique hr hrow (by rw [hrproposal, hproposal, hrowproposal, hnonce])
      subst this
      rcases hclosed with hconsumed | hinvalidated
      · rw [hvalid.unconsumed] at hconsumed
        cases hconsumed
      · rw [hvalid.valid] at hinvalidated
        cases hinvalidated

end Refusals

section Authority

/-- Where an authorization comes from: a nonce consumed for a human on the list, or the card of a
policy. -/
def Granted (env : Env) (db : Db) (a : AuthorizationRow) : Prop :=
  (a.authorizationType = .humanApproval ∧
    (∃ approver ∈ env.humanApproverIds, a.consumedBy = some approver) ∧
    ∃ r ∈ db.nonces, r.proposalId = a.proposalId ∧ a.nonce = some r.nonce ∧ r.consumed = true) ∨
  (a.authorizationType = .policy ∧ ∃ c ∈ db.cards, c.proposalId = a.proposalId ∧
    c.cardHash = a.cardHash ∧ c.cardType = CardType.policyAuthorization.column)

/-- A human authorization names its nonce. -/
def NamesNonce (db : Db) : Prop :=
  ∀ a ∈ db.authorizations, a.authorizationType = .humanApproval → a.nonce.isSome

theorem NamesNonce.step {db db' : Db} (h : NamesNonce db) (hstep : LedgerStep env db db') :
    NamesNonce db' := by
  have hsame : db'.authorizations = db.authorizations → NamesNonce db' := by
    intro hauths
    unfold NamesNonce
    rw [hauths]
    exact h
  have hforward : ∀ g : AuthorizationRow → AuthorizationRow, (∀ a, Forward a (g a)) →
      db'.authorizations = db.authorizations.map g → NamesNonce db' := by
    intro g hg hauths a ha htype
    rw [hauths] at ha
    obtain ⟨b, hb, rfl⟩ := List.mem_map.mp ha
    obtain ⟨-, -, htype', -, -, -, hnonce, -⟩ := (hg b).same_grant
    rw [hnonce]
    exact h b hb (htype'.symm.trans htype)
  cases hstep with
  | aged f ages nonces authorizations => exact hsame authorizations
  | created row nonces authorizations => exact hsame authorizations
  | consumed request authorizationId envelopesJson row cardHash now fresh consumable nonces
      authorizations =>
    intro a ha htype
    rw [authorizations] at ha
    rcases List.mem_append.mp ha with hold | hnew
    · exact h a hold htype
    · rw [List.mem_singleton.mp hnew]
      rfl
  | authorized request authorizationId cardHash fresh nonces authorizations =>
    intro a ha htype
    rw [authorizations] at ha
    rcases List.mem_append.mp ha with hold | hnew
    · exact h a hold htype
    · rw [List.mem_singleton.mp hnew] at htype
      cases htype
  | advanced request now advanceable nonces authorizations =>
    exact hforward _ (advanceRow_forward request) authorizations
  | used authorizationId role now nonces authorizations =>
    exact hforward _ (useRow_forward authorizationId role now) authorizations

theorem reachable_namesNonce {log : List Action} {sys : Sys env}
    (h : Accepts (step env) (Sys.initial env) log sys) : NamesNonce sys.db := by
  have hrun := h.invariant (P := fun sys => sys.Idle ∧ NamesNonce sys.db)
    ⟨rfl, fun _ ha => absurd ha List.not_mem_nil⟩ fun v a w hv hstep => ?_
  · exact hrun.2
  · obtain ⟨hto, hidle⟩ := step_cases env hv.1 hstep
    exact ⟨hidle, hv.2.step hto.ledgerStep⟩

theorem granted_of_pending {closing : Prop} {sys : Sys env} (hlaws : AgentLaws closing sys)
    (hnonce : NamesNonce sys.db) {a : AuthorizationRow} (ha : a ∈ sys.db.authorizations)
    (hpending : a.status = .pending) : Granted env sys.db a := by
  cases htype : a.authorizationType with
  | humanApproval =>
    obtain ⟨approver, hlisted, hby⟩ := hlaws.grants.listed a ha htype (by rw [hpending]; decide)
    obtain ⟨n, hn⟩ := Option.isSome_iff_exists.mp (hnonce a ha htype)
    obtain ⟨r, hr, hkey, hconsumed⟩ := hlaws.ledger.spent a ha (a.proposalId, n)
      (by rw [usedNonce, hn]; rfl)
    obtain ⟨hproposal, hrn⟩ := Prod.mk.inj hkey
    exact .inl ⟨htype, ⟨approver, hlisted, hby⟩, r, hr, hproposal, by rw [hn, hrn], hconsumed⟩
  | policy =>
    obtain ⟨c, hc⟩ := hlaws.grants.backed a ha
    exact .inr ⟨htype, c, hc.stored, hc.proposalId, hc.cardHash, by rw [hc.cardType, htype]; rfl⟩

/-- The changes of state that the table of prerequisites allows. -/
inductive AllowedMove (before after : Option ProposalState) : Prop
  | same (same : after = before)
  | created (fresh : before = none) (detected : after = some .detected)
  | card (t : CardType) (s s' : ProposalState) (outcome : (t, s') ∈ stateOutcomes)
      (from_ : before = some s) (to_ : after = some s')
      (allowed : ∀ states, statePrerequisites t = some states → s ∈ states)
      (proposal : t = .proposalCard → s' = s)

theorem target_outcome (t : AuthorizationType) : (t.card, t.target) ∈ stateOutcomes := by
  cases t with
  | policy => decide +kernel
  | humanApproval => decide +kernel

theorem proposalCard_outcome : ∀ s, (CardType.proposalCard, s) ∈ stateOutcomes → s = .detected := by
  have hlist : ∀ e ∈ stateOutcomes, e.1 = .proposalCard → e.2 = .detected := by decide +kernel
  exact fun s hs => hlist _ hs rfl

theorem AllowedMove.card_of {t : CardType} {s s' : ProposalState} {before after : Option ProposalState}
    (outcome : (t, s') ∈ stateOutcomes) (hbefore : before = some s) (hafter : after = some s')
    (allowed : ∀ states, statePrerequisites t = some states → s ∈ states)
    (hproposal : t = .proposalCard → s = .detected) : AllowedMove before after := by
  refine .card t s s' outcome hbefore hafter allowed fun ht => ?_
  subst ht
  rw [proposalCard_outcome s' outcome, hproposal rfl]

theorem StepTo.allowedMove {closing : Prop} {sys sys' : Sys env} {action : Action}
    (hlaws : AgentLaws closing sys) (hstep : StepTo env sys action sys') (p : Str) :
    AllowedMove (sys.db.proposalState p) (sys'.db.proposalState p) := by
  cases hstep.stateStep with
  | same states => exact .same (states p)
  | created q fresh states =>
    rw [states p]
    split
    · rename_i hp
      exact .created (hp ▸ fresh) rfl
    · exact .same rfl
  | confirmed request now row s s' severity pending confirmable current states =>
    rw [states p]
    split
    · rename_i hp
      subst hp
      obtain ⟨t, -, houtcome, hrules⟩ := confirmable.moves
      obtain ⟨hallowed, hproposal⟩ := hrules s current
      exact .card_of houtcome current rfl hallowed hproposal
    · exact .same rfl
  | advanced request now pending advanceable result states =>
    rw [states p]
    split
    · rename_i hp
      subst hp
      have hjustified : Justified sys.db request.toPublishRequest := hlaws.jobs _ pending
      obtain ⟨a, -, c, -, htarget⟩ := hjustified
      have houtcome := target_outcome a.authorizationType
      have hrequest : request.target = a.authorizationType.target := by rw [htarget]
      rw [hrequest]
      refine .card_of houtcome advanceable.planned rfl ?_ ?_
      · cases a.authorizationType with
        | policy => simp [AuthorizationType.card, statePrerequisites]
        | humanApproval => simp [AuthorizationType.card, statePrerequisites]
      · cases a.authorizationType with
        | policy => exact fun h => by cases h
        | humanApproval => exact fun h => by cases h
    · exact .same rfl
  | closed job closure more request now cardHash s' pending isClosure keeps closing planned outcome
      states =>
    rw [states p]
    split
    · rename_i hp
      subst hp
      exact .card_of outcome planned rfl (by simp [statePrerequisites]) fun h => by cases h
    · exact .same rfl

/-- A confirmation publishes cards of the confirming role, and a ProposalCard moves nothing. -/
theorem confirm_own {sys : Sys env} {draws : Draws} {next : List (Job env)} {db' : Db}
    {request : ConfirmRequest} (hunique : UniqueKeys sys.db)
    (hrole : request.confirmingRole ≠ .gateway)
    (hpost : resumePost env draws sys.db next db' (.confirm request)) :
    (∀ (i : Nat) (c c' : CardRow), sys.db.cards[i]? = some c → db'.cards[i]? = some c' → c' ≠ c →
        c.preparedByRole = some request.confirmingRole) ∧
      ∀ row, sys.db.cards.find? (isPrepared request.toConfirmBody) = some row →
        row.cardType = CardType.proposalCard.column →
        ∀ p, db'.proposalState p = sys.db.proposalState p := by
  rcases hpost.2 with rfl | ⟨row, newState, severity, hconfirm, rfl⟩
  · refine ⟨fun i c c' hc hc' hne => ?_, fun row hrow htype p => rfl⟩
    rw [hc] at hc'
    exact absurd (Option.some.inj hc').symm hne
  · constructor
    · intro i c c' hc hc' hne
      have hmem := List.mem_of_getElem? hc
      have hprepared : isPrepared request.toConfirmBody c = true := by
        by_contra hother
        have hcards : (confirmed request newState severity draws.now sys.db).cards[i]? = some c := by
          change (sys.db.cards.map _)[i]? = some c
          rw [List.getElem?_map, hc]
          exact congrArg some (if_neg hother)
        exact hne (Option.some.inj (hc'.symm.trans hcards))
      -- the unique key makes it the row that was checked
      have hfound := List.find?_some hconfirm.found
      simp only [isPrepared, Bool.and_eq_true, beq_iff_eq] at hprepared hfound
      have hrow := hunique c hmem row (List.mem_of_find?_eq_some hconfirm.found)
        (hprepared.1.1.trans hfound.1.1.symm) (hprepared.2.trans hfound.2.symm)
        (by rw [hprepared.2]; rfl)
      rw [hrow]
      exact hconfirm.role.resolve_left hrole
    · intro row' hrow' htype p
      obtain rfl := Option.some.inj (hrow'.symm.trans hconfirm.found)
      rcases confirmed_states request newState severity draws.now sys.db with
        hstates | ⟨s, s', rfl, hcurrent, hstates⟩
      · exact hstates p
      · obtain ⟨t, hcolumn, houtcome, hrules⟩ := hconfirm.moves
        obtain rfl := CardType.column_injective (hcolumn.symm.trans htype)
        rw [hstates p]
        split
        · rename_i hp
          rw [hp, hcurrent, proposalCard_outcome s' houtcome, (hrules s hcurrent).2 rfl]
        · rfl

/-- In runs of agents, an approval is the advance of a pending authorization. -/
theorem reachable_publishes {log : List Action} {sys sys' : Sys env} {action : Action}
    (h : Accepts (step env) (Sys.initial env) log sys)
    (hlawful : ∀ action ∈ log, action.Lawful env True) (hkeys : DistinctKeys env sys.db)
    (hto : StepTo env sys action sys') {p : Str} {s : ProposalState}
    (hs : s = .approved ∨ s = .authorized) (hbefore : sys.db.proposalState p ≠ some s)
    (hafter : sys'.db.proposalState p = some s) : ∃ a, Publishes sys.db sys'.db p s a := by
  obtain ⟨-, hlaws⟩ := reachable_agentLaws h hlawful
  rcases hto.together hlaws hs hbefore hafter with ⟨a, ha⟩ | hclosed
  · exact ⟨a, ha⟩
  · -- a refusal does not approve
    obtain ⟨job, -, closure, more, request, now, cardHash, hclosure, hmore, hclosing, hp⟩ := hclosed
    have hrefused := hclosing.refuses hlaws.ledger (reachable_approvalKeys h hlawful) hkeys
      (hclosure.imp (fun ⟨instructions, h⟩ => ⟨instructions, h.2⟩) (·.2)) hmore hp hafter
    rcases hs with rfl | rfl
    · rcases hrefused with h | h
      · cases h
      · cases h
    · rcases hrefused with h | h
      · cases h
      · cases h

/-- Who approves. In every run whose prepare and confirm calls come with agents' keys, a step
brings a proposal to `APPROVED` or `AUTHORIZED` only by publishing an authorization that a listed
human or a policy granted; a confirmation publishes cards of the confirming role only; every
change of state follows the table of prerequisites; and confirming a ProposalCard moves nothing. -/
theorem only_authorities_approve {log : List Action} {sys : Sys env}
    (h : Accepts (step env) (Sys.initial env) log sys)
    (hlawful : ∀ action ∈ log, action.Lawful env True) (hkeys : DistinctKeys env sys.db)
    {action : Action} {sys' : Sys env} (hstep : step env sys action = some sys') :
    (∀ p s, s = .approved ∨ s = .authorized → sys.db.proposalState p ≠ some s →
        sys'.db.proposalState p = some s →
        ∃ a, Publishes sys.db sys'.db p s a ∧ Granted env sys.db a) ∧
      (∀ p, AllowedMove (sys.db.proposalState p) (sys'.db.proposalState p)) ∧
      ∀ index draws request, action = .resume index draws →
        sys.jobs[index]? = some (.confirm request) →
        (∀ (i : Nat) (c c' : CardRow), sys.db.cards[i]? = some c → sys'.db.cards[i]? = some c' → c' ≠ c →
            c.preparedByRole = some request.confirmingRole) ∧
          ∀ row, sys.db.cards.find? (isPrepared request.toConfirmBody) = some row →
            row.cardType = CardType.proposalCard.column →
            ∀ p, sys'.db.proposalState p = sys.db.proposalState p := by
  obtain ⟨hidle, hlaws⟩ := reachable_agentLaws h hlawful
  have hto := (step_cases env hidle hstep).1
  refine ⟨fun p s hs hbefore hafter => ?_, hto.allowedMove hlaws, ?_⟩
  · obtain ⟨a, ha⟩ := reachable_publishes h hlawful hkeys hto hs hbefore hafter
    exact ⟨a, ha, granted_of_pending hlaws (reachable_namesNonce h) ha.stored ha.pending⟩
  · rintro index draws request rfl hjob
    cases hto with
    | resume _ _ job next db' fresh pending post =>
      obtain rfl := Option.some.inj (hjob.symm.trans pending)
      exact confirm_own (reachable_uniqueKeys h).2 (hlaws.jobs _ (List.mem_of_getElem? pending)) post

instance (closing : Prop) [Decidable closing] (action : Action) :
    Decidable (action.Lawful env closing) := by
  unfold Action.Lawful
  split <;> infer_instance

instance (db : Db) : Decidable (DistinctKeys env db) := by
  unfold DistinctKeys
  infer_instance

/-- An approval, up to the advance of its proposal. -/
def decidedRun : Sys sampleEnv × List Action :=
  play sampleStart (opening ++ reviewing "low" ++ planning 4 4 "rebalance_a" "low" ++ challenging 5 ++
    consuming 6 5 ++ resuming 6 ++ resuming 7)

/-- What the run shows, as a value: the next evaluation waits for it. -/
def decidedRunLawful : PLift ((∀ action ∈ decidedRun.2, action.Lawful sampleEnv True) ∧
    DistinctKeys sampleEnv decidedRun.1.db ∧
    decidedRun.1.db.proposalState (js "P1") = some .planned ∧
    (step sampleEnv decidedRun.1 (.resume 0 (drawsAt 8))).any (fun sys' =>
      sys'.db.proposalState (js "P1") == some .approved) = true) where
  down := by decide +kernel

theorem only_authorities_approve_example : ∃ sys',
    step sampleEnv decidedRun.1 (.resume 0 (drawsAt 8)) = some sys' ∧
      ∃ a, Publishes decidedRun.1.db sys'.db (js "P1") .approved a ∧
        Granted sampleEnv decidedRun.1.db a := by
  obtain ⟨hlawful, hkeys, hplanned, hadvance⟩ := decidedRunLawful.down
  obtain ⟨sys', hstep, hafter⟩ := (Option.any_eq_true _ _).mp hadvance
  have hrun : Accepts (step sampleEnv) (Sys.initial sampleEnv) decidedRun.2 decidedRun.1 :=
    play_accepts _ .start
  have h := only_authorities_approve hrun hlawful hkeys hstep
  refine ⟨sys', hstep, h.1 (js "P1") .approved (.inl rfl) ?_ (beq_iff_eq.mp hafter)⟩
  rw [hplanned]
  simp

end Authority
end Concordia.Gateway
