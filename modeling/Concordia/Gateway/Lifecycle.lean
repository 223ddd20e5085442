import Concordia.Gateway.Chain

/-! Nonces and authorizations over all runs: a nonce yields one authorization, an authorization
moves forward only, and a proposal has one open nonce. -/
namespace Concordia.Gateway
open Concordia.Python Concordia.Lib.Transactions Concordia.Lib.Transition
open Concordia.Js hiding Value

variable (env : Env)

section Ledger

/-- What happens to a nonce row besides its creation: it is closed, never opened again. -/
structure NonceRow.Ages (r r' : NonceRow) : Prop where
  proposalId : r'.proposalId = r.proposalId
  nonce : r'.nonce = r.nonce
  planHash : r'.planHash = r.planHash
  actionHash : r'.actionHash = r.actionHash
  consumed : r.consumed = true → r'.consumed = true
  invalidated : r.invalidated = true → r'.invalidated = true

theorem NonceRow.Ages.refl (r : NonceRow) : r.Ages r := ⟨rfl, rfl, rfl, rfl, id, id⟩

/-- What a step does to the nonces and the authorizations. -/
inductive LedgerStep (db db' : Db) : Prop
  | aged (f : NonceRow → NonceRow) (ages : ∀ r : NonceRow, r.Ages (f r))
      (nonces : db'.nonces = db.nonces.map f) (authorizations : db'.authorizations = db.authorizations)
  | created (row : NonceRow) (nonces : (insertNonce row db).map Db.nonces = some db'.nonces)
      (authorizations : db'.authorizations = db.authorizations)
  | consumed (request : ConsumeRequest) (authorizationId envelopesJson : Str) (row : NonceRow)
      (cardHash : Str) (now : Time) (fresh : db.authorization authorizationId = none)
      (consumable : Consumable env request now db row envelopesJson)
      (nonces : db'.nonces =
        (consumeNonceOnly request.proposalId request.nonce request.consumedBy now db).nonces)
      (authorizations : db'.authorizations = db.authorizations ++
        [humanAuthorizationRow request authorizationId envelopesJson row.expiry cardHash])
  | authorized (request : PolicySeal env) (authorizationId cardHash : Str)
      (fresh : db.authorization authorizationId = none) (nonces : db'.nonces = db.nonces)
      (authorizations : db'.authorizations = db.authorizations ++
        [policyAuthorizationRow env request authorizationId cardHash])
  | advanced (request : AdvanceRequest) (now : Time) (advanceable : Advanceable request db)
      (nonces : db'.nonces = db.nonces)
      (authorizations : db'.authorizations = (Gateway.advanced request now db).authorizations)
  | used (authorizationId : Str) (role : Role) (now : Time) (nonces : db'.nonces = db.nonces)
      (authorizations : db'.authorizations =
        (markConsumed authorizationId role now db).2.authorizations)

variable {env}

theorem LedgerStep.same {db db' : Db} (nonces : db'.nonces = db.nonces)
    (authorizations : db'.authorizations = db.authorizations) : LedgerStep env db db' :=
  .aged id NonceRow.Ages.refl (by rw [nonces, List.map_id]) authorizations

theorem insertCard_ledger {row : CardRow} {db db' : Db} (h : db.insertCard row = some db') :
    db'.nonces = db.nonces ∧ db'.authorizations = db.authorizations ∧
      db'.proposals = db.proposals := by
  unfold Db.insertCard at h
  simp only at h
  split at h
  · simp at h
  · rw [← Option.some.inj h]
    exact ⟨rfl, rfl, rfl⟩

theorem SealStep.ledger {card : Card env.floats} {proposalId : Str} {key : Option Str}
    {role : Option Role} {requestFp : Option Str} {db db' : Db} {result : Sealed env.floats}
    (h : SealStep env card proposalId key role requestFp db result db') :
    db'.nonces = db.nonces ∧ db'.authorizations = db.authorizations ∧
      db'.proposals = db.proposals := by
  cases h with
  | appended db' fresh inserted => exact insertCard_ledger inserted
  | replayed existing result found parsed hash => exact ⟨rfl, rfl, rfl⟩

theorem insertAuthorization_fresh {row : AuthorizationRow} {db : Db}
    (h : db.authorization row.authorizationId = none) :
    insertAuthorization row db = { db with authorizations := db.authorizations ++ [row] } := by
  simp [insertAuthorization, h]

theorem invalidateNonce_ages (proposalId nonce : Str) (r : NonceRow) :
    r.Ages (if r.proposalId == proposalId && r.nonce == nonce then
      (if r.consumed then r else { r with invalidated := true }) else r) := by
  split
  · split
    · exact .refl r
    · exact ⟨rfl, rfl, rfl, rfl, id, fun _ => rfl⟩
  · exact .refl r

theorem consumeNonceOnly_ages (consumedBy : Str) (now : Time) (r : NonceRow) :
    r.Ages { r with consumed := true, consumedBy := some consumedBy, consumedAt := some now } :=
  ⟨rfl, rfl, rfl, rfl, fun _ => rfl, id⟩

theorem CloseStep.ledgerStep {closure : Closure} {more : Db → Db} {request : CloseRequest}
    {now : Time} {db db' : Db} {cardHash : Str}
    (hmore : ∀ db, (more db).nonces = db.nonces ∧ (more db).authorizations = db.authorizations)
    (h : CloseStep env closure more request now db cardHash db') : LedgerStep env db db' := by
  cases h with
  | intro row card approval behindSeal planned valid isApproval decided sealing =>
    obtain ⟨hnonces, hauthorizations, -⟩ := sealing.ledger
    refine .aged _ (invalidateNonce_ages request.proposalId request.nonce) ?_ ?_
    · rw [(hmore _).1, ← hnonces]
      rfl
    · rw [(hmore _).2, ← hauthorizations]
      rfl

theorem addSuppressionRule_ledger (proposalId : Str) (db : Db) :
    (addSuppressionRule env proposalId db).nonces = db.nonces ∧
      (addSuppressionRule env proposalId db).authorizations = db.authorizations := by
  simp only [addSuppressionRule]
  split
  · exact ⟨rfl, rfl⟩
  · split <;> exact ⟨rfl, rfl⟩

theorem resume_ledgerStep {draws : Draws} {db db' : Db} {next : List (Job env)} {job : Job env}
    (hfresh : db.authorization draws.uuid = none) (h : resumePost env draws db next db' job) :
    LedgerStep env db db' := by
  cases job with
  | sealCard request =>
    rcases h.2 with rfl | ⟨result, hseal⟩
    · exact .same rfl rfl
    · exact .same hseal.ledger.1 hseal.ledger.2.1
  | confirm request =>
    rcases h.2 with rfl | ⟨row, newState, severity, -, rfl⟩
    · exact .same rfl rfl
    · exact .same rfl rfl
  | createNonce row =>
    rcases h.2 with rfl | hinsert
    · exact .same rfl rfl
    · refine .created row (by rw [hinsert]; rfl) ?_
      unfold insertNonce at hinsert
      simp only [Option.ite_none_left_eq_some, Option.some.injEq] at hinsert
      rw [← hinsert.2]
  | postChallenge request => exact .same h.1.nonces h.1.authorizations
  | recordChallenge record =>
    rw [h.2]
    refine .aged _ (fun r => ?_) rfl rfl
    split
    · exact ⟨rfl, rfl, rfl, rfl, id, id⟩
    · exact .refl r
  | consumeNonce request =>
    rcases h with ⟨rfl, -⟩ | ⟨consumption, hstep, -⟩
    · exact .same rfl rfl
    · cases hstep with
      | intro row envelopesJson card approval behindSeal _ consumable isApproval sealing target =>
        obtain ⟨hnonces, hauthorizations, -⟩ := sealing.ledger
        have hbehind : behindSeal.authorization draws.uuid = none := by
          simpa only [Db.authorization, hauthorizations] using hfresh
        refine .consumed request draws.uuid envelopesJson row approval.cardHash draws.now hfresh
          consumable ?_ ?_
        · rw [consumed, insertAuthorization_fresh hbehind]
          simp only [consumeNonceOnly, updateNonces, hnonces]
        · rw [consumed, insertAuthorization_fresh hbehind]
          simp only [consumeNonceOnly, updateNonces, hauthorizations]
  | publishApproval request => exact .same h.1.nonces h.1.authorizations
  | sealPolicy request =>
    rcases h with ⟨rfl, -⟩ | ⟨publication, hstep, -⟩
    · exact .same rfl rfl
    · cases hstep with
      | intro approval behindSeal sealing =>
        obtain ⟨hnonces, hauthorizations, -⟩ := sealing.ledger
        have hbehind : behindSeal.authorization draws.uuid = none := by
          simpa only [Db.authorization, hauthorizations] using hfresh
        refine .authorized request draws.uuid approval.cardHash hfresh ?_ ?_
        · rw [policyAuthorized, insertAuthorization_fresh hbehind]
          exact hnonces
        · rw [policyAuthorized, insertAuthorization_fresh hbehind, hauthorizations]
  | publishPolicy request => exact .same h.1.nonces h.1.authorizations
  | advance request =>
    rcases h.2 with rfl | ⟨hadvance, rfl⟩
    · exact .same rfl rfl
    · exact .advanced request draws.now hadvance rfl rfl
  | consumeAuthorization request =>
    rcases h.2 with rfl | rfl
    · exact .same rfl rfl
    · exact .used request.authorization.authorizationId request.role draws.now rfl rfl
  | revise instructions request =>
    rcases h with ⟨rfl, -⟩ | ⟨cardHash, roomId, hstep, -⟩
    · exact .same rfl rfl
    · exact hstep.ledgerStep fun _ => ⟨rfl, rfl⟩
  | falseAlarm request =>
    rcases h with ⟨rfl, -⟩ | ⟨cardHash, roomId, hstep, -⟩
    · exact .same rfl rfl
    · exact hstep.ledgerStep (addSuppressionRule_ledger _)
  | notify notification attempts => exact .same h.1.nonces h.1.authorizations
  | recordNotification notification messageId =>
    rw [h.2]
    exact .same rfl rfl

theorem start_ledger {draws : Draws} {db db' : Db} {next : List (Job env)} {request : Request}
    (h : startPost env draws db next db' request) :
    db'.nonces = db.nonces ∧ db'.authorizations = db.authorizations := by
  cases request with
  | prepare cardType xAgentKey xIdempotencyKey body =>
    cases h.1 with
    | same => exact ⟨rfl, rfl⟩
    | inserted row fresh detected => exact ⟨rfl, rfl⟩
  | decide approverId proposalId nonce decision =>
    cases decision with
    | approve => rw [h.1]; exact ⟨rfl, rfl⟩
    | revise instructions => rw [h.1]; exact ⟨rfl, rfl⟩
    | falseAlarm => rw [h.1]; exact ⟨rfl, rfl⟩
  | createRoom xAgentKey proposalId => exact ⟨h.1.nonces, h.1.authorizations⟩
  | postMessage xAgentKey roomId content senderRole metadata =>
    exact ⟨h.1.nonces, h.1.authorizations⟩
  | _ => rw [h.1]; exact ⟨rfl, rfl⟩

/-- The only ways in which a step touches the nonces and the authorizations. -/
theorem StepTo.ledgerStep {sys sys' : Sys env} {action : Action} (h : StepTo env sys action sys') :
    LedgerStep env sys.db sys'.db := by
  cases h with
  | request request draws next db' fresh post =>
    exact .same (start_ledger post).1 (start_ledger post).2
  | resume index draws job next db' fresh pending post => exact resume_ledgerStep fresh post

end Ledger

section SingleUse

/-- A nonce of the proposal that is neither consumed nor invalidated. -/
def isLive (proposalId : Str) (r : NonceRow) : Bool :=
  r.proposalId == proposalId && !r.consumed && !r.invalidated

/-- The nonce that an authorization was made of, with its proposal. -/
def usedNonce (auth : AuthorizationRow) : Option (Str × Str) :=
  auth.nonce.map fun n => (auth.proposalId, n)

/-- The laws of the two tables. -/
structure LedgerLaws (db : Db) : Prop where
  ids : (db.authorizations.map (·.authorizationId)).Nodup
  keys : (db.nonces.map fun r => (r.proposalId, r.nonce)).Nodup
  spent : ∀ auth ∈ db.authorizations, ∀ key, usedNonce auth = some key →
    ∃ r ∈ db.nonces, (r.proposalId, r.nonce) = key ∧ r.consumed = true
  once : (db.authorizations.filterMap usedNonce).Nodup
  live : ∀ p, db.nonces.countP (isLive p) ≤ 1

variable {env}

theorem NonceRow.Ages.key {r r' : NonceRow} (h : r.Ages r') :
    (r'.proposalId, r'.nonce) = (r.proposalId, r.nonce) := by
  rw [h.proposalId, h.nonce]

theorem NonceRow.Ages.isLive {r r' : NonceRow} (h : r.Ages r') {p : Str}
    (hlive : Gateway.isLive p r' = true) : Gateway.isLive p r = true := by
  simp only [Gateway.isLive, Bool.and_eq_true, beq_iff_eq, Bool.not_eq_true'] at hlive ⊢
  obtain ⟨⟨hp, hconsumed⟩, hinvalidated⟩ := hlive
  refine ⟨⟨h.proposalId.symm.trans hp, ?_⟩, ?_⟩
  · by_contra hc
    simp [h.consumed (by simpa using hc)] at hconsumed
  · by_contra hi
    simp [h.invalidated (by simpa using hi)] at hinvalidated

theorem LedgerLaws.aged {db db' : Db} {f : NonceRow → NonceRow} (h : LedgerLaws db)
    (ages : ∀ r : NonceRow, r.Ages (f r)) (nonces : db'.nonces = db.nonces.map f)
    (authorizations : db'.authorizations = db.authorizations) : LedgerLaws db' := by
  have hkeys : (db.nonces.map f).map (fun r => (r.proposalId, r.nonce)) =
      db.nonces.map fun r => (r.proposalId, r.nonce) := by
    rw [List.map_map]
    exact List.map_congr_left fun r _ => (ages r).key
  refine ⟨by rw [authorizations]; exact h.ids, by rw [nonces, hkeys]; exact h.keys, ?_,
    by rw [authorizations]; exact h.once, fun p => ?_⟩
  · rw [authorizations, nonces]
    intro auth hauth key hkey
    obtain ⟨r, hr, hrkey, hconsumed⟩ := h.spent auth hauth key hkey
    exact ⟨f r, List.mem_map_of_mem hr, (ages r).key.trans hrkey, (ages r).consumed hconsumed⟩
  · rw [nonces, List.countP_map]
    exact le_trans (List.countP_mono_left fun r _ hlive => (ages r).isLive hlive) (h.live p)

theorem invalidated_ages (proposalId : Str) (r : NonceRow) :
    r.Ages (if r.proposalId == proposalId && !r.consumed then { r with invalidated := true } else r) := by
  split
  · exact ⟨rfl, rfl, rfl, rfl, id, fun _ => rfl⟩
  · exact .refl r

theorem LedgerLaws.created {db db' : Db} {row : NonceRow} (h : LedgerLaws db)
    (nonces : (insertNonce row db).map Db.nonces = some db'.nonces)
    (authorizations : db'.authorizations = db.authorizations) : LedgerLaws db' := by
  obtain ⟨inserted, hinserted, hnonces⟩ := Option.map_eq_some_iff.mp nonces
  unfold insertNonce at hinserted
  simp only [Option.ite_none_left_eq_some, Option.some.injEq] at hinserted
  obtain ⟨hnew, rfl⟩ := hinserted
  let behind : Db := { db with nonces := db.nonces.map fun r =>
    if r.proposalId == row.proposalId && !r.consumed then { r with invalidated := true } else r }
  have hbehind : LedgerLaws behind := h.aged (invalidated_ages row.proposalId) rfl rfl
  have hrows : db'.nonces = behind.nonces ++ [row] := hnonces.symm
  have hauthorizations : db'.authorizations = behind.authorizations := authorizations
  refine ⟨by rw [hauthorizations]; exact hbehind.ids, ?_, ?_,
    by rw [hauthorizations]; exact hbehind.once, fun p => ?_⟩
  · rw [hrows, List.map_append, List.map_singleton, List.nodup_append]
    refine ⟨hbehind.keys, List.nodup_singleton _, fun key hkey other hother heq => ?_⟩
    obtain ⟨r, hr, rfl⟩ := List.mem_map.mp hkey
    obtain rfl := List.mem_singleton.mp hother
    obtain ⟨hp, hn⟩ := Prod.mk.inj heq
    refine hnew (List.any_eq_true.mpr ⟨r, hr, ?_⟩)
    simp [hp, hn]
  · rw [hauthorizations, hrows]
    intro auth hauth key hkey
    obtain ⟨r, hr, hrest⟩ := hbehind.spent auth hauth key hkey
    exact ⟨r, List.mem_append_left _ hr, hrest⟩
  · rw [hrows, List.countP_append, List.countP_singleton]
    by_cases hp : row.proposalId = p
    · have hclosed : behind.nonces.countP (isLive p) = 0 := by
        rw [List.countP_eq_zero]
        intro r hr
        obtain ⟨old, -, rfl⟩ := List.mem_map.mp hr
        simp only [isLive, hp]
        split <;> simp_all
      rw [hclosed]
      split <;> omega
    · have := hbehind.live p
      simp only [isLive, beq_iff_eq, hp, Bool.and_eq_true, false_and, if_false]
      exact this

/-- What `validate_nonce_only` accepts. -/
structure ValidNonce (db : Db) (proposalId nonce planHash actionHash : Str) (now : Time)
    (row : NonceRow) : Prop where
  found : db.nonce proposalId nonce = some row
  unconsumed : row.consumed = false
  valid : row.invalidated = false
  planHash : row.planHash = planHash
  actionHash : row.actionHash = actionHash
  unexpired : now ≤ row.expiry

theorem validNonce_of_ok {db : Db} {proposalId nonce planHash actionHash : Str} {visible : Bool}
    {now : Time} {row : NonceRow}
    (h : validateNonceOnly env db proposalId nonce planHash actionHash visible now = .ok row) :
    ValidNonce db proposalId nonce planHash actionHash now row := by
  unfold validateNonceOnly at h
  cases hfound : db.nonce proposalId nonce with
  | none => simp [hfound] at h
  | some found =>
    simp only [hfound, ite_eq_iff, reduceCtorEq, and_false, false_or, not_lt, ne_eq, not_not,
      Bool.not_eq_true, Except.ok.injEq] at h
    obtain ⟨hvalid, hunconsumed, -, hplan, haction, hexpiry, rfl⟩ := h
    exact ⟨hfound, hunconsumed, hvalid, hplan, haction, hexpiry⟩

theorem mem_of_nonce {db : Db} {proposalId nonce : Str} {row : NonceRow}
    (h : db.nonce proposalId nonce = some row) :
    row ∈ db.nonces ∧ (row.proposalId, row.nonce) = (proposalId, nonce) := by
  have hkey := List.find?_some h
  simp only [Bool.and_eq_true, beq_iff_eq] at hkey
  exact ⟨List.mem_of_find?_eq_some h, by rw [hkey.1, hkey.2]⟩

/-- The row of a key is the one that `SELECT` finds. -/
theorem LedgerLaws.unique {db : Db} (h : LedgerLaws db) {r r' : NonceRow} (hr : r ∈ db.nonces)
    (hr' : r' ∈ db.nonces) (hkey : (r.proposalId, r.nonce) = (r'.proposalId, r'.nonce)) : r = r' :=
  List.inj_on_of_nodup_map h.keys hr hr' hkey

theorem not_mem_of_authorization {db : Db} {authorizationId : Str}
    (h : db.authorization authorizationId = none) :
    authorizationId ∉ db.authorizations.map (·.authorizationId) := by
  intro hmem
  obtain ⟨auth, hauth, hid⟩ := List.mem_map.mp hmem
  have := List.find?_eq_none.mp h auth hauth
  simp [hid] at this

theorem nodup_concat {α : Type} {l : List α} {a : α} (h : l.Nodup) (ha : a ∉ l) :
    (l ++ [a]).Nodup :=
  List.nodup_append.mpr ⟨h, List.nodup_singleton a, fun _ hx _ hy =>
    List.mem_singleton.mp hy ▸ fun heq => ha (heq ▸ hx)⟩

theorem LedgerLaws.consumed {db db' : Db} {request : ConsumeRequest}
    {authorizationId envelopesJson : Str} {row : NonceRow} {cardHash : Str} {now : Time}
    (h : LedgerLaws db) (fresh : db.authorization authorizationId = none)
    (consumable : Consumable env request now db row envelopesJson)
    (nonces : db'.nonces =
      (consumeNonceOnly request.proposalId request.nonce request.consumedBy now db).nonces)
    (authorizations : db'.authorizations = db.authorizations ++
      [humanAuthorizationRow request authorizationId envelopesJson row.expiry cardHash]) :
    LedgerLaws db' := by
  have hvalid := validNonce_of_ok consumable.valid
  obtain ⟨hrow, hkey⟩ := mem_of_nonce hvalid.found
  let f : NonceRow → NonceRow := fun r =>
    if r.proposalId == request.proposalId && r.nonce == request.nonce then
      { r with consumed := true, consumedBy := some request.consumedBy, consumedAt := some now }
    else r
  have ages : ∀ r : NonceRow, r.Ages (f r) := by
    intro r
    simp only [f]
    split
    · exact consumeNonceOnly_ages _ _ r
    · exact .refl r
  let behind : Db := { db with nonces := db.nonces.map f }
  have hbehind : LedgerLaws behind := h.aged ages rfl rfl
  have hnonces : db'.nonces = behind.nonces := nonces
  refine ⟨?_, by rw [hnonces]; exact hbehind.keys, ?_, ?_, by rw [hnonces]; exact hbehind.live⟩
  · rw [authorizations, List.map_append]
    exact nodup_concat h.ids (not_mem_of_authorization fresh)
  · rw [authorizations, hnonces]
    intro auth hauth key hused
    rcases List.mem_append.mp hauth with hold | hnew
    · exact hbehind.spent auth hold key hused
    · obtain rfl := List.mem_singleton.mp hnew
      obtain rfl : (request.proposalId, request.nonce) = key := by
        simpa [usedNonce, humanAuthorizationRow] using hused
      refine ⟨f row, List.mem_map_of_mem hrow, (ages row).key.trans hkey, ?_⟩
      simp [f, (Prod.mk.inj hkey).1, (Prod.mk.inj hkey).2]
  · rw [authorizations, List.filterMap_append]
    refine nodup_concat h.once fun hmem => ?_
    -- the nonce of an earlier authorization is consumed, this one is not
    obtain ⟨auth, hauth, hused⟩ := List.mem_filterMap.mp hmem
    obtain ⟨r, hr, hrkey, hconsumed⟩ := h.spent auth hauth _ hused
    have hsame := h.unique hr hrow (hrkey.trans hkey.symm)
    rw [hsame, hvalid.unconsumed] at hconsumed
    exact Bool.false_ne_true hconsumed

theorem LedgerLaws.authorized {db db' : Db} {row : AuthorizationRow} (h : LedgerLaws db)
    (fresh : db.authorization row.authorizationId = none) (hnonce : row.nonce = none)
    (nonces : db'.nonces = db.nonces) (authorizations : db'.authorizations = db.authorizations ++ [row]) :
    LedgerLaws db' := by
  have hunused : usedNonce row = none := by simp [usedNonce, hnonce]
  refine ⟨?_, by rw [nonces]; exact h.keys, ?_, ?_, by rw [nonces]; exact h.live⟩
  · rw [authorizations, List.map_append]
    exact nodup_concat h.ids (not_mem_of_authorization fresh)
  · rw [authorizations, nonces]
    intro auth hauth key hused
    rcases List.mem_append.mp hauth with hold | hnew
    · exact h.spent auth hold key hused
    · rw [List.mem_singleton.mp hnew, hunused] at hused
      cases hused
  · rw [authorizations, List.filterMap_append]
    simpa [hunused] using h.once

theorem LedgerLaws.changed {db db' : Db} {g : AuthorizationRow → AuthorizationRow}
    (h : LedgerLaws db) (hid : ∀ a, (g a).authorizationId = a.authorizationId)
    (hused : ∀ a, usedNonce (g a) = usedNonce a) (nonces : db'.nonces = db.nonces)
    (authorizations : db'.authorizations = db.authorizations.map g) : LedgerLaws db' := by
  refine ⟨?_, by rw [nonces]; exact h.keys, ?_, ?_, by rw [nonces]; exact h.live⟩
  · rw [authorizations, List.map_map]
    simpa only [Function.comp_def, hid] using h.ids
  · rw [authorizations, nonces]
    intro auth hauth key hkey
    obtain ⟨old, hold, rfl⟩ := List.mem_map.mp hauth
    exact h.spent old hold key (by rwa [hused] at hkey)
  · rw [authorizations, List.filterMap_map]
    simpa only [Function.comp_def, hused] using h.once

/-- One step keeps the laws. -/
theorem LedgerLaws.step {db db' : Db} (h : LedgerLaws db) (hstep : LedgerStep env db db') :
    LedgerLaws db' := by
  cases hstep with
  | aged f ages nonces authorizations => exact h.aged ages nonces authorizations
  | created row nonces authorizations => exact h.created nonces authorizations
  | consumed request authorizationId envelopesJson row cardHash now fresh consumable nonces
      authorizations => exact h.consumed fresh consumable nonces authorizations
  | authorized request authorizationId cardHash fresh nonces authorizations =>
    exact h.authorized fresh rfl nonces authorizations
  | advanced request now advanceable nonces authorizations =>
    refine h.changed (fun a => ?_) (fun a => ?_) nonces authorizations
    · split <;> rfl
    · split <;> rfl
  | used authorizationId role now nonces authorizations =>
    refine h.changed (fun a => ?_) (fun a => ?_) nonces authorizations
    · split <;> rfl
    · split <;> rfl

theorem initial_laws (env : Env) : LedgerLaws (Sys.initial env).db :=
  ⟨List.nodup_nil, List.nodup_nil, fun _ h => absurd h List.not_mem_nil, List.nodup_nil,
    fun _ => Nat.zero_le _⟩

theorem reachable_laws {log : List Action} {sys : Sys env}
    (h : Accepts (step env) (Sys.initial env) log sys) : sys.Idle ∧ LedgerLaws sys.db := by
  refine h.invariant (P := fun sys => sys.Idle ∧ LedgerLaws sys.db) ⟨rfl, initial_laws env⟩
    fun v a w hv hstep => ?_
  obtain ⟨hto, hidle⟩ := step_cases env hv.1 hstep
  exact ⟨hidle, hv.2.step hto.ledgerStep⟩

end SingleUse

section Forward

/-- The only moves of an authorization: it is published, and later it is consumed. -/
inductive Forward (auth : AuthorizationRow) : AuthorizationRow → Prop
  | same : Forward auth auth
  | published (roomMessageId : Str) (pending : auth.status = .pending) :
      Forward auth { auth with status := .published, roomMessageId := some roomMessageId }
  | consumed (role : Role) (now : Time) (published : auth.status = .published) :
      Forward auth { auth with
        status := .consumed
        consumed := true
        consumedBy := some (js role.name)
        consumedAt := some now }

variable {env}

theorem authorization_map {db db' : Db} {g : AuthorizationRow → AuthorizationRow}
    (hid : ∀ a, (g a).authorizationId = a.authorizationId)
    (authorizations : db'.authorizations = db.authorizations.map g) (authorizationId : Str) :
    db'.authorization authorizationId = (db.authorization authorizationId).map g := by
  unfold Db.authorization
  rw [authorizations, List.find?_map]
  simp only [Function.comp_def, hid]

theorem authorization_append {db db' : Db} {row : AuthorizationRow}
    (authorizations : db'.authorizations = db.authorizations ++ [row]) (authorizationId : Str) :
    db'.authorization authorizationId = (db.authorization authorizationId).or
      (if row.authorizationId = authorizationId then some row else none) := by
  unfold Db.authorization
  rw [authorizations, List.find?_append, List.find?_singleton]
  simp

/-- What the lifecycle advance makes of an authorization. -/
def advanceRow (request : AdvanceRequest) (a : AuthorizationRow) : AuthorizationRow :=
  if a.authorizationId == request.authorizationId && a.status == .pending then
    { a with status := .published, roomMessageId := some request.roomMessageId }
  else a

/-- What the consumption of an authorization makes of a row. -/
def useRow (authorizationId : Str) (role : Role) (now : Time) (a : AuthorizationRow) :
    AuthorizationRow :=
  if a.authorizationId == authorizationId && a.status == .published then
    { a with
      status := .consumed
      consumed := true
      consumedBy := some (js role.name)
      consumedAt := some now }
  else a

theorem advanced_authorizations (request : AdvanceRequest) (now : Time) (db : Db) :
    (Gateway.advanced request now db).authorizations = db.authorizations.map (advanceRow request) :=
  rfl

theorem markConsumed_authorizations (authorizationId : Str) (role : Role) (now : Time) (db : Db) :
    (markConsumed authorizationId role now db).2.authorizations =
      db.authorizations.map (useRow authorizationId role now) :=
  rfl

theorem advanceRow_id (request : AdvanceRequest) (a : AuthorizationRow) :
    (advanceRow request a).authorizationId = a.authorizationId := by
  unfold advanceRow
  split <;> rfl

theorem useRow_id (authorizationId : Str) (role : Role) (now : Time) (a : AuthorizationRow) :
    (useRow authorizationId role now a).authorizationId = a.authorizationId := by
  unfold useRow
  split <;> rfl

theorem advanceRow_forward (request : AdvanceRequest) (a : AuthorizationRow) :
    Forward a (advanceRow request a) := by
  unfold advanceRow
  split
  · rename_i hhit
    simp only [Bool.and_eq_true, beq_iff_eq] at hhit
    exact .published request.roomMessageId hhit.2
  · exact .same

theorem useRow_forward (authorizationId : Str) (role : Role) (now : Time) (a : AuthorizationRow) :
    Forward a (useRow authorizationId role now a) := by
  unfold useRow
  split
  · rename_i hhit
    simp only [Bool.and_eq_true, beq_iff_eq] at hhit
    exact .consumed role now hhit.2
  · exact .same

/-- Every authorization that is there stays, as it is or one status further. -/
theorem LedgerStep.forward {db db' : Db} (h : LedgerStep env db db') {authorizationId : Str}
    {auth : AuthorizationRow} (hauth : db.authorization authorizationId = some auth) :
    ∃ auth', db'.authorization authorizationId = some auth' ∧ Forward auth auth' := by
  cases h with
  | aged f ages nonces authorizations =>
    exact ⟨auth, by simpa only [Db.authorization, authorizations] using hauth, .same⟩
  | created row nonces authorizations =>
    exact ⟨auth, by simpa only [Db.authorization, authorizations] using hauth, .same⟩
  | consumed request id envelopesJson row cardHash now fresh consumable nonces authorizations =>
    exact ⟨auth, by rw [authorization_append authorizations, hauth]; rfl, .same⟩
  | authorized request id cardHash fresh nonces authorizations =>
    exact ⟨auth, by rw [authorization_append authorizations, hauth]; rfl, .same⟩
  | advanced request now advanceable nonces authorizations =>
    rw [advanced_authorizations] at authorizations
    refine ⟨advanceRow request auth, ?_, advanceRow_forward request auth⟩
    rw [authorization_map (advanceRow_id request) authorizations, hauth]
    rfl
  | used id role now nonces authorizations =>
    rw [markConsumed_authorizations] at authorizations
    refine ⟨useRow id role now auth, ?_, useRow_forward id role now auth⟩
    rw [authorization_map (useRow_id id role now) authorizations, hauth]
    rfl

/-- A new authorization is pending. -/
theorem LedgerStep.new_pending {db db' : Db} (h : LedgerStep env db db') {authorizationId : Str}
    {auth : AuthorizationRow} (hnone : db.authorization authorizationId = none)
    (hauth : db'.authorization authorizationId = some auth) : auth.status = .pending := by
  cases h with
  | aged f ages nonces authorizations =>
    rw [Db.authorization, authorizations, ← Db.authorization, hnone] at hauth
    cases hauth
  | created row nonces authorizations =>
    rw [Db.authorization, authorizations, ← Db.authorization, hnone] at hauth
    cases hauth
  | consumed request id envelopesJson row cardHash now fresh consumable nonces authorizations =>
    rw [authorization_append authorizations, hnone, Option.none_or] at hauth
    split at hauth
    · rw [← Option.some.inj hauth]
      rfl
    · cases hauth
  | authorized request id cardHash fresh nonces authorizations =>
    rw [authorization_append authorizations, hnone, Option.none_or] at hauth
    split at hauth
    · rw [← Option.some.inj hauth]
      rfl
    · cases hauth
  | advanced request now advanceable nonces authorizations =>
    rw [advanced_authorizations] at authorizations
    rw [authorization_map (advanceRow_id request) authorizations, hnone] at hauth
    cases hauth
  | used id role now nonces authorizations =>
    rw [markConsumed_authorizations] at authorizations
    rw [authorization_map (useRow_id id role now) authorizations, hnone] at hauth
    cases hauth

end Forward
end Concordia.Gateway
