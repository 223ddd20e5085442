import Concordia.Gateway.PolicyPath

/-! The startup migration, against the databases that this gateway leaves. Its backfills are for
rows of older schemas, where later columns are NULL; one of them goes by a card of the proposal and
not by a missing column. -/
namespace Concordia.Gateway
open Concordia.Python Concordia.Lib.Transactions Concordia.Lib.Transition
open Concordia.Js hiding Value

section Migrate

/-- A row of `authorizations` as a file can hold it: columns that were added later may be NULL. -/
structure RawAuthorization where
  authorizationId : Str
  proposalId : Str
  authorizationType : AuthorizationType
  planHash : Str
  actionHash : Str
  envelopesJson : Str
  expiry : Time
  consumed : Bool
  consumedAt : Option Time
  consumedBy : Option Str
  status : Option AuthorizationStatus
  roomMessageId : Option Str
  nonce : Option Str
  cardHash : Option Str
  deriving DecidableEq

/-- A row with nothing missing, as it lies in the file. -/
def AuthorizationRow.raw (a : AuthorizationRow) : RawAuthorization :=
  ⟨a.authorizationId, a.proposalId, a.authorizationType, a.planHash, a.actionHash, a.envelopesJson,
    a.expiry, a.consumed, a.consumedAt, a.consumedBy, some a.status, a.roomMessageId, a.nonce,
    some a.cardHash⟩

def RawAuthorization.row (r : RawAuthorization) : Option AuthorizationRow := do
  let status ← r.status
  let cardHash ← r.cardHash
  return ⟨r.authorizationId, r.proposalId, r.authorizationType, r.planHash, r.actionHash,
    r.envelopesJson, r.expiry, r.consumed, r.consumedAt, r.consumedBy, status, r.roomMessageId,
    r.nonce, cardHash⟩

@[simp] theorem AuthorizationRow.row_raw (a : AuthorizationRow) : a.raw.row = some a := rfl

/-- The tables that the migration updates and reads. -/
structure RawDb where
  proposals : List ProposalRow
  cards : List CardRow
  authorizations : List RawAuthorization
  deriving DecidableEq

def Db.raw (db : Db) : RawDb := ⟨db.proposals, db.cards, db.authorizations.map AuthorizationRow.raw⟩

/-- `SET room_id = COALESCE(room_id, legacy_room_id)`, where only the older column is set. -/
def backfillRoom (p : ProposalRow) : ProposalRow :=
  if p.roomId.isNone && p.legacyRoomId.isSome then { p with roomId := p.legacyRoomId } else p

/-- `status IS NULL OR status = 'PENDING'`. -/
def RawAuthorization.isOpen (r : RawAuthorization) : Bool :=
  r.status.isNone || r.status == some .pending

/-- `SET status = 'CONSUMED'`. -/
def backfillConsumed (r : RawAuthorization) : RawAuthorization :=
  if r.consumedAt.isSome && r.isOpen then { r with status := some .consumed } else r

/-- A published PolicyAuthorization of the proposal. -/
def hasPublishedPolicy (cards : List CardRow) (proposalId : Str) : Bool :=
  cards.any fun c => c.proposalId == proposalId &&
    c.cardType == CardType.policyAuthorization.column && c.publishedAt.isSome

/-- `SET status = 'PUBLISHED'`. The subquery joins on the primary key, so that the row of the
authorization is the one that is joined to the cards. -/
def backfillPublished (cards : List CardRow) (r : RawAuthorization) : RawAuthorization :=
  if r.isOpen && hasPublishedPolicy cards r.proposalId then { r with status := some .published }
  else r

variable (env : Env)

/-- `json_extract(card_json, '$.key')`, where it is a text. -/
def jsonExtract (c : CardRow) (key : String) : Option Str :=
  match loads env.floats c.cardJson with
  | some (.dict data) => match Dict.get data key with
    | .str s => some s
    | _ => none
  | _ => none

/-- `SET card_hash`, for a policy without one. -/
def backfillPolicy (cards : List CardRow) (r : RawAuthorization) : RawAuthorization :=
  if r.authorizationType == .policy && r.cardHash.isNone then
    let card := cards.find? fun c => c.proposalId == r.proposalId &&
      c.cardType == CardType.policyAuthorization.column &&
      jsonExtract env c "authorization_id" == some r.authorizationId
    { r with cardHash := card.map (·.cardHash) }
  else r

/-- `SET card_hash, nonce`, for a human approval without a card hash. -/
def backfillApproval (cards : List CardRow) (r : RawAuthorization) : RawAuthorization :=
  if r.authorizationType == .humanApproval && r.cardHash.isNone then
    let card := cards.find? fun c => c.proposalId == r.proposalId &&
      c.cardType == CardType.structuredApproval.column &&
      jsonExtract env c "plan_hash" == some r.planHash &&
      jsonExtract env c "action_hash" == some r.actionHash
    { r with cardHash := card.map (·.cardHash), nonce := card.bind fun c => jsonExtract env c "nonce" }
  else r

/-- All updates of an authorization row, in their order. -/
def migrateAuthorization (cards : List CardRow) (r : RawAuthorization) : RawAuthorization :=
  backfillApproval env cards (backfillPolicy env cards (backfillPublished cards (backfillConsumed r)))

/-- `_migrate`; its other statements only add what the schema has. -/
def migrate (d : RawDb) : RawDb :=
  { d with
    proposals := d.proposals.map backfillRoom
    authorizations := d.authorizations.map (migrateAuthorization env d.cards) }

end Migrate

section Idempotent
variable {env : Env} {cards : List CardRow}

theorem backfillRoom_idem (p : ProposalRow) : backfillRoom (backfillRoom p) = backfillRoom p := by
  unfold backfillRoom
  cases hroom : p.roomId <;> cases hlegacy : p.legacyRoomId <;> simp [hroom, hlegacy]

/-- A row that the first two updates leave alone. -/
structure StatusSettled (cards : List CardRow) (r : RawAuthorization) : Prop where
  consumed : r.consumedAt.isSome = true → r.isOpen = false
  published : hasPublishedPolicy cards r.proposalId = true → r.isOpen = false

theorem StatusSettled.keep {r : RawAuthorization} (h : StatusSettled cards r) :
    backfillPublished cards (backfillConsumed r) = r := by
  have hconsumed : backfillConsumed r = r := by
    rw [backfillConsumed, if_neg]
    rw [Bool.and_eq_true]
    rintro ⟨hat, hopen⟩
    rw [h.consumed hat] at hopen
    cases hopen
  rw [hconsumed, backfillPublished, if_neg]
  rw [Bool.and_eq_true]
  rintro ⟨hopen, hcard⟩
  rw [h.published hcard] at hopen
  cases hopen

theorem backfillConsumed_settled {r : RawAuthorization}
    (h : (backfillConsumed r).consumedAt.isSome = true) : (backfillConsumed r).isOpen = false := by
  unfold backfillConsumed at h ⊢
  by_cases hopen : (r.consumedAt.isSome && r.isOpen) = true
  · rw [if_pos hopen]
    rfl
  · rw [if_neg hopen] at h ⊢
    simpa [h] using hopen

theorem statusSettled (r : RawAuthorization) :
    StatusSettled cards (backfillPublished cards (backfillConsumed r)) := by
  rw [backfillPublished]
  split
  · exact ⟨fun _ => rfl, fun _ => rfl⟩
  · rename_i hleft
    refine ⟨backfillConsumed_settled, fun hcard => ?_⟩
    simpa [hcard] using hleft

theorem StatusSettled.policy {r : RawAuthorization} (h : StatusSettled cards r) :
    StatusSettled cards (backfillPolicy env cards r) := by
  unfold backfillPolicy
  split
  · exact ⟨h.consumed, h.published⟩
  · exact h

theorem StatusSettled.approval {r : RawAuthorization} (h : StatusSettled cards r) :
    StatusSettled cards (backfillApproval env cards r) := by
  unfold backfillApproval
  split
  · exact ⟨h.consumed, h.published⟩
  · exact h

theorem backfillPolicy_idem (r : RawAuthorization) :
    backfillPolicy env cards (backfillPolicy env cards r) = backfillPolicy env cards r := by
  unfold backfillPolicy
  by_cases h : (r.authorizationType == .policy && r.cardHash.isNone) = true
  · simp only [if_pos h]
    split <;> rfl
  · simp only [if_neg h]

theorem backfillApproval_idem (r : RawAuthorization) :
    backfillApproval env cards (backfillApproval env cards r) = backfillApproval env cards r := by
  unfold backfillApproval
  by_cases h : (r.authorizationType == .humanApproval && r.cardHash.isNone) = true
  · simp only [if_pos h]
    split <;> rfl
  · simp only [if_neg h]

/-- The two updates of the card hash are for different rows. -/
theorem backfillPolicy_approval (r : RawAuthorization) :
    backfillPolicy env cards (backfillApproval env cards r) =
      backfillApproval env cards (backfillPolicy env cards r) := by
  unfold backfillPolicy backfillApproval
  cases htype : r.authorizationType <;> simp [htype]
  all_goals split <;> simp [htype]

theorem migrateAuthorization_idem (r : RawAuthorization) :
    migrateAuthorization env cards (migrateAuthorization env cards r) =
      migrateAuthorization env cards r := by
  have hsettled : StatusSettled cards (migrateAuthorization env cards r) :=
    (statusSettled r).policy.approval
  rw [migrateAuthorization, hsettled.keep, migrateAuthorization, backfillPolicy_approval,
    backfillPolicy_idem, backfillApproval_idem]

/-- Running the migration again changes nothing, whatever the file held. -/
theorem migrate_idem (d : RawDb) : migrate env (migrate env d) = migrate env d := by
  have hrooms : backfillRoom ∘ backfillRoom = backfillRoom := funext backfillRoom_idem
  have hrows : migrateAuthorization env d.cards ∘ migrateAuthorization env d.cards =
      migrateAuthorization env d.cards := funext migrateAuthorization_idem
  simp only [migrate, List.map_map, hrooms, hrows]

end Idempotent

section Restart
variable {env : Env}

/-- What the migration makes of a row of this gateway. -/
def restartedRow (cards : List CardRow) (a : AuthorizationRow) : AuthorizationRow :=
  if a.consumedAt.isSome ∧ a.status = .pending then { a with status := .consumed }
  else if a.status = .pending ∧ hasPublishedPolicy cards a.proposalId = true then
    { a with status := .published }
  else a

/-- A restart: the jobs are gone, the file is migrated. A row that kept a NULL could not be read. -/
def restart (sys : Sys env) : Option (Sys env) :=
  let migrated := migrate env sys.db.raw
  (migrated.authorizations.mapM RawAuthorization.row).map fun rows =>
    ⟨idle { sys.db with proposals := migrated.proposals, authorizations := rows }, []⟩

/-- The gateway between its restarts, and the restarts. -/
inductive Move where
  | act (action : Action)
  | restart

def turn (sys : Sys env) : Move → Option (Sys env)
  | .act action => step env sys action
  | .restart => restart sys

/-- No pending authorization belongs to a proposal with a published PolicyAuthorization. -/
def Settled (db : Db) : Prop :=
  ∀ a ∈ db.authorizations, a.status = .pending → hasPublishedPolicy db.cards a.proposalId = false

/-- What this gateway writes into the columns that the migration looks at. -/
structure ColumnLaws (db : Db) : Prop where
  rooms : RoomsNamed db
  consumed : ∀ a ∈ db.authorizations, a.consumedAt.isSome = true → a.status = .consumed

/-- The row's columns are never NULL, so that the two updates of the card hash pass it by. -/
theorem migrateAuthorization_raw (cards : List CardRow) (a : AuthorizationRow) :
    migrateAuthorization env cards a.raw = (restartedRow cards a).raw := by
  have hstatus : backfillPublished cards (backfillConsumed a.raw) = (restartedRow cards a).raw := by
    unfold backfillPublished backfillConsumed restartedRow
    cases hconsumed : a.consumedAt <;> cases hstatus : a.status <;>
      cases hcard : hasPublishedPolicy cards a.proposalId <;>
      simp [AuthorizationRow.raw, RawAuthorization.isOpen, hconsumed, hstatus, hcard]
  rw [migrateAuthorization, hstatus]
  simp [backfillApproval, backfillPolicy, AuthorizationRow.raw]

theorem restart_eq (sys : Sys env) : restart sys = some ⟨idle { sys.db with
    proposals := sys.db.proposals.map backfillRoom
    authorizations := sys.db.authorizations.map (restartedRow sys.db.cards) }, []⟩ := by
  have hrows : (sys.db.authorizations.map fun a =>
      (restartedRow sys.db.cards a).raw).mapM RawAuthorization.row =
        some (sys.db.authorizations.map (restartedRow sys.db.cards)) := by
    induction sys.db.authorizations with
    | nil => rfl
    | cons a rest ih =>
      rw [List.map_cons, List.mapM_cons, ih]
      rfl
  have hmigrated : (migrate env sys.db.raw).authorizations =
      sys.db.authorizations.map fun a => (restartedRow sys.db.cards a).raw := by
    simp [migrate, Db.raw, migrateAuthorization_raw]
  rw [restart, hmigrated, hrows]
  rfl

theorem restartedRow_id (cards : List CardRow) (a : AuthorizationRow) :
    (restartedRow cards a).authorizationId = a.authorizationId := by
  unfold restartedRow
  split
  · rfl
  · split <;> rfl

theorem restartedRow_nonce (cards : List CardRow) (a : AuthorizationRow) :
    usedNonce (restartedRow cards a) = usedNonce a := by
  unfold restartedRow
  split
  · rfl
  · split <;> rfl

theorem restartedRow_consumed {cards : List CardRow} {a : AuthorizationRow}
    (h : (restartedRow cards a).consumedAt.isSome = true)
    (ha : a.consumedAt.isSome = true → a.status = .consumed) :
    (restartedRow cards a).status = .consumed := by
  unfold restartedRow at h ⊢
  split
  · rfl
  · rename_i hopen
    rw [if_neg hopen] at h
    split at h
    · rename_i hpending
      rw [ha h] at hpending
      cases hpending.1
    · rename_i hkept
      rw [if_neg hkept]
      exact ha h

theorem raw_injective : Function.Injective AuthorizationRow.raw := by
  intro a b h
  have := congrArg RawAuthorization.row h
  simpa using this

/-- The migration leaves a row as it is. -/
theorem restartedRow_eq {cards : List CardRow} {a : AuthorizationRow}
    (ha : a.consumedAt.isSome = true → a.status = .consumed) :
    restartedRow cards a = a ↔
      (a.status = .pending → hasPublishedPolicy cards a.proposalId = false) := by
  unfold restartedRow
  constructor
  · intro heq hpending
    by_contra hcard
    rw [Bool.not_eq_false] at hcard
    have hat : a.consumedAt.isSome ≠ true := by
      intro hat
      rw [ha hat] at hpending
      cases hpending
    rw [if_neg fun h => hat h.1, if_pos ⟨hpending, hcard⟩] at heq
    have := congrArg AuthorizationRow.status heq
    rw [hpending] at this
    cases this
  · intro hnone
    rw [if_neg, if_neg]
    · rintro ⟨hpending, hcard⟩
      rw [hnone hpending] at hcard
      cases hcard
    · rintro ⟨hat, hpending⟩
      rw [ha hat] at hpending
      cases hpending

theorem map_eq_self {α : Type} {f : α → α} {l : List α} : l.map f = l ↔ ∀ x ∈ l, f x = x := by
  induction l with
  | nil => simp
  | cons x l ih => simp [ih]

/-- The migration changes no row exactly where nothing is left pending behind a policy. -/
theorem ColumnLaws.migrate_iff {db : Db} (h : ColumnLaws db) :
    migrate env db.raw = db.raw ↔ Settled db := by
  have hrooms : db.proposals.map backfillRoom = db.proposals := by
    refine map_eq_self.mpr fun p hp => ?_
    unfold backfillRoom
    cases hroom : p.roomId with
    | none => simp [h.rooms p hp hroom]
    | some room => simp
  have hrows : (db.authorizations.map AuthorizationRow.raw).map (migrateAuthorization env db.cards) =
      db.authorizations.map AuthorizationRow.raw ↔
        db.authorizations.map (restartedRow db.cards) = db.authorizations := by
    rw [List.map_map, ← (List.map_injective_iff.mpr raw_injective).eq_iff, List.map_map]
    simp only [Function.comp_def, migrateAuthorization_raw]
  rw [migrate, Db.raw, hrooms, RawDb.mk.injEq]
  simp only [true_and]
  rw [hrows, map_eq_self]
  constructor
  · intro hkept a ha
    exact (restartedRow_eq (h.consumed a ha)).mp (hkept a ha)
  · intro hsettled a ha
    exact (restartedRow_eq (h.consumed a ha)).mpr (hsettled a ha)

/-- A restart that finds nothing pending behind a policy changes nothing. -/
theorem ColumnLaws.restart_settled {sys sys' : Sys env} (h : ColumnLaws sys.db)
    (hsettled : Settled sys.db) (hrestart : restart sys = some sys') : sys'.db = sys.db := by
  have hraw : migrate env sys.db.raw = sys.db.raw := h.migrate_iff.mpr hsettled
  rw [restart_eq] at hrestart
  obtain rfl := Option.some.inj hrestart
  have hrooms : sys.db.proposals.map backfillRoom = sys.db.proposals :=
    congrArg RawDb.proposals hraw
  have hrows : sys.db.authorizations.map (restartedRow sys.db.cards) = sys.db.authorizations :=
    map_eq_self.mpr fun a ha => (restartedRow_eq (h.consumed a ha)).mpr (hsettled a ha)
  rw [hrooms, hrows]
  rfl

end Restart

section Runs
variable {env : Env} {sys sys' : Sys env} {log : List Move}

/-- A step of a job that is no advance takes over the authorizations, with a consumption or a new
pending one. -/
theorem resume_unadvanced {draws : Draws} {db db' : Db} {next : List (Job env)} {job : Job env}
    (hjob : ∀ request, job ≠ .advance request) (h : resumePost env draws db next db' job) :
    (∃ new, db'.authorizations = db.authorizations ++ new ∧ ∀ a ∈ new, a.status = .pending) ∨
      ∃ authorizationId role now,
        db'.authorizations = db.authorizations.map (useRow authorizationId role now) := by
  have hsame : ∀ {d : Db}, d.authorizations = db.authorizations →
      ∃ new, d.authorizations = db.authorizations ++ new ∧ ∀ a ∈ new, a.status = .pending :=
    fun heq => ⟨[], by simpa using heq, by simp⟩
  have hinserted : ∀ {d : Db} {row : AuthorizationRow}, d.authorizations = db.authorizations →
      row.status = .pending → ∃ new, (insertAuthorization row d).authorizations =
        db.authorizations ++ new ∧ ∀ a ∈ new, a.status = .pending := by
    intro d row heq hpending
    unfold insertAuthorization
    split
    · exact hsame heq
    · exact ⟨[row], by rw [← heq], by simpa using hpending⟩
  cases job with
  | sealCard request =>
    rcases h.2 with rfl | ⟨result, hseal⟩
    · exact .inl (hsame rfl)
    · exact .inl (hsame hseal.ledger.2.1)
  | confirm request =>
    rcases h.2 with rfl | ⟨row, newState, severity, -, rfl⟩
    · exact .inl (hsame rfl)
    · exact .inl (hsame rfl)
  | createNonce row =>
    rcases h.2 with rfl | hinsert
    · exact .inl (hsame rfl)
    · unfold insertNonce at hinsert
      simp only [Option.ite_none_left_eq_some, Option.some.injEq] at hinsert
      rw [← hinsert.2]
      exact .inl (hsame rfl)
  | postChallenge request => exact .inl (hsame h.1.authorizations)
  | recordChallenge record =>
    rw [h.2]
    exact .inl (hsame rfl)
  | consumeNonce request =>
    rcases h with ⟨rfl, -⟩ | ⟨consumption, hstep, -⟩
    · exact .inl (hsame rfl)
    · cases hstep with
      | intro row envelopesJson card approval behindSeal _ consumable isApproval sealing target =>
        exact .inl (hinserted sealing.ledger.2.1 rfl)
  | publishApproval request => exact .inl (hsame h.1.authorizations)
  | sealPolicy request =>
    rcases h with ⟨rfl, -⟩ | ⟨publication, hstep, -⟩
    · exact .inl (hsame rfl)
    · cases hstep with
      | intro approval behindSeal sealing => exact .inl (hinserted sealing.ledger.2.1 rfl)
  | publishPolicy request => exact .inl (hsame h.1.authorizations)
  | advance request => exact absurd rfl (hjob request)
  | consumeAuthorization request =>
    rcases h.2 with rfl | rfl
    · exact .inl (hsame rfl)
    · exact .inr ⟨_, _, _, markConsumed_authorizations _ _ _ db⟩
  | revise instructions request =>
    rcases h with ⟨rfl, -⟩ | ⟨cardHash, roomId, hstep, -⟩
    · exact .inl (hsame rfl)
    · cases hstep with
      | intro row card approval behindSeal planned valid isApproval decided sealing =>
        exact .inl (hsame sealing.ledger.2.1)
  | falseAlarm request =>
    rcases h with ⟨rfl, -⟩ | ⟨cardHash, roomId, hstep, -⟩
    · exact .inl (hsame rfl)
    · cases hstep with
      | intro row card approval behindSeal planned valid isApproval decided sealing =>
        exact .inl (hsame ((addSuppressionRule_ledger _ _).2.trans sealing.ledger.2.1))
  | notify notification attempts => exact .inl (hsame h.1.authorizations)
  | recordNotification notification messageId =>
    rw [h.2]
    exact .inl (hsame rfl)

/-- The step is the advance of the authorization. -/
def IsAdvance (sys : Sys env) (action : Action) (authorizationId : Str) : Prop :=
  ∃ index draws request, action = .resume index draws ∧ sys.jobs[index]? = some (.advance request) ∧
    request.authorizationId = authorizationId

/-- Only its own advance publishes a pending authorization. -/
theorem StepTo.publishes_own {action : Action} (h : StepTo env sys action sys')
    (hledger : LedgerLaws sys.db) {a a' : AuthorizationRow} (ha : a ∈ sys.db.authorizations)
    (hpending : a.status = .pending) (ha' : a' ∈ sys'.db.authorizations)
    (hid : a'.authorizationId = a.authorizationId) (hpublished : a'.status = .published) :
    IsAdvance sys action a.authorizationId := by
  have hunique : ∀ b ∈ sys.db.authorizations, b.authorizationId = a.authorizationId → b = a :=
    fun b hb heq => List.inj_on_of_nodup_map hledger.ids hb ha heq
  have hkept : a' ∉ sys.db.authorizations := by
    intro hmem
    rw [hunique a' hmem hid, hpending] at hpublished
    cases hpublished
  cases h with
  | request request draws next db' fresh post =>
    have hsame : db'.authorizations = sys.db.authorizations := (start_ledger post).2
    change a' ∈ db'.authorizations at ha'
    rw [hsame] at ha'
    exact absurd ha' hkept
  | resume index draws job next db' fresh pending post =>
    change a' ∈ db'.authorizations at ha'
    by_cases hadvance : ∃ request, job = .advance request
    · obtain ⟨request, rfl⟩ := hadvance
      refine ⟨index, draws, request, rfl, pending, ?_⟩
      rcases post.2 with rfl | ⟨-, rfl⟩
      · exact absurd ha' hkept
      · rw [advanced_authorizations] at ha'
        obtain ⟨b, hb, rfl⟩ := List.mem_map.mp ha'
        rw [advanceRow_id] at hid
        obtain rfl := hunique b hb hid
        by_contra hother
        rw [advanceRow, if_neg (by simp [Ne.symm hother]), hpending] at hpublished
        cases hpublished
    · rcases resume_unadvanced (fun request heq => hadvance ⟨request, heq⟩) post with
        ⟨new, heq, hnew⟩ | ⟨authorizationId, role, now, heq⟩
      · rw [heq] at ha'
        rcases List.mem_append.mp ha' with hold | hfresh
        · exact absurd hold hkept
        · rw [hnew a' hfresh] at hpublished
          cases hpublished
      · rw [heq] at ha'
        obtain ⟨b, hb, rfl⟩ := List.mem_map.mp ha'
        rw [useRow_id] at hid
        obtain rfl := hunique b hb hid
        rw [useRow, if_neg (by simp [hpending]), hpending] at hpublished
        cases hpublished

/-- The columns of the rooms, over a step. -/
theorem StepTo.roomsNamed {action : Action} (h : StepTo env sys action sys')
    (hnamed : RoomsNamed sys.db) : RoomsNamed sys'.db := by
  have hsame : ∀ {db' : Db}, db'.proposals = sys.db.proposals → RoomsNamed db' := by
    intro db' heq
    rw [RoomsNamed, heq]
    exact hnamed
  have hmoved : ∀ {db : Db} {hits : ProposalRow → Bool} {state : ProposalRow → ProposalState},
      db.proposals = sys.db.proposals →
        RoomsNamed (updateProposals hits (fun r => { r with state := state r }) db).2 := by
    intro db hits state heq
    exact (hsame heq).updated fun r hr => hr
  cases h with
  | request request draws next db' fresh post =>
    change RoomsNamed db'
    cases request with
    | prepare cardType xAgentKey xIdempotencyKey body =>
      cases post.1 with
      | same => exact hnamed
      | inserted row fresh detected roomless =>
        intro p hp hnone
        rcases List.mem_append.mp hp with hp | hp
        · exact hnamed p hp hnone
        · rw [List.mem_singleton.mp hp]
          exact roomless
    | decide approverId proposalId nonce decision =>
      cases decision with
      | approve => rw [post.1]; exact hnamed
      | revise instructions => rw [post.1]; exact hnamed
      | falseAlarm => rw [post.1]; exact hnamed
    | createRoom xAgentKey proposalId => exact post.1.named hnamed
    | postMessage xAgentKey roomId content senderRole metadata => exact post.1.named hnamed
    | _ => rw [post.1]; exact hnamed
  | resume index draws job next db' fresh pending post =>
    change RoomsNamed db'
    cases job with
    | sealCard request =>
      rcases post.2 with rfl | ⟨result, hseal⟩
      · exact hnamed
      · exact hsame hseal.ledger.2.2
    | confirm request =>
      rcases post.2 with rfl | ⟨row, newState, severity, -, rfl⟩
      · exact hnamed
      · refine RoomsNamed.updated (hsame rfl) fun r hr hnone => ?_
        cases hroom : truthy request.roomId with
        | none =>
          simp only [confirmProposal, hroom, Option.orElse_none] at hnone ⊢
          exact hr hnone
        | some room => simp [confirmProposal, hroom] at hnone
    | createNonce row =>
      rcases post.2 with rfl | hinsert
      · exact hnamed
      · unfold insertNonce at hinsert
        simp only [Option.ite_none_left_eq_some, Option.some.injEq] at hinsert
        rw [← hinsert.2]
        exact hsame rfl
    | postChallenge request => exact post.1.named hnamed
    | recordChallenge record =>
      rw [post.2]
      exact hsame rfl
    | consumeNonce request =>
      rcases post with ⟨rfl, -⟩ | ⟨consumption, hstep, -⟩
      · exact hnamed
      · cases hstep with
        | intro row envelopesJson card approval behindSeal _ consumable isApproval sealing target =>
          refine hsame (Eq.trans ?_ sealing.ledger.2.2)
          simp only [consumed, consumeNonceOnly, updateNonces, insertAuthorization]
          split <;> rfl
    | publishApproval request => exact post.1.named hnamed
    | sealPolicy request =>
      rcases post with ⟨rfl, -⟩ | ⟨publication, hstep, -⟩
      · exact hnamed
      · cases hstep with
        | intro approval behindSeal sealing =>
          refine hsame (Eq.trans ?_ sealing.ledger.2.2)
          simp only [policyAuthorized, insertAuthorization]
          split <;> rfl
    | publishPolicy request => exact post.1.named hnamed
    | advance request =>
      rcases post.2 with rfl | ⟨-, rfl⟩
      · exact hnamed
      · exact hmoved rfl
    | consumeAuthorization request =>
      rcases post.2 with rfl | rfl
      · exact hnamed
      · exact hsame rfl
    | revise instructions request =>
      rcases post with ⟨rfl, -⟩ | ⟨cardHash, roomId, hstep, -⟩
      · exact hnamed
      · cases hstep with
        | intro row card approval behindSeal planned valid isApproval decided sealing =>
          exact hmoved sealing.ledger.2.2
    | falseAlarm request =>
      rcases post with ⟨rfl, -⟩ | ⟨cardHash, roomId, hstep, -⟩
      · exact hnamed
      · cases hstep with
        | intro row card approval behindSeal planned valid isApproval decided sealing =>
          rw [RoomsNamed, addSuppressionRule_proposals]
          exact hmoved sealing.ledger.2.2
    | notify notification attempts => exact post.1.named hnamed
    | recordNotification notification messageId =>
      rw [post.2]
      exact hsame rfl

theorem Forward.consumedAt {a a' : AuthorizationRow} (h : Forward a a')
    (ha : a.consumedAt.isSome = true → a.status = .consumed) :
    a'.consumedAt.isSome = true → a'.status = .consumed := by
  cases h with
  | same => exact ha
  | published roomMessageId pending =>
    intro hat
    rw [ha hat] at pending
    cases pending
  | consumed role now published => exact fun _ => rfl

/-- A row of the table is one of before, moved forward, or a new one. -/
theorem LedgerStep.origin {db db' : Db} (h : LedgerStep env db db') :
    ∀ a' ∈ db'.authorizations, (∃ a ∈ db.authorizations, Forward a a') ∨ a'.consumedAt = none := by
  have hsame : db'.authorizations = db.authorizations → ∀ a' ∈ db'.authorizations,
      (∃ a ∈ db.authorizations, Forward a a') ∨ a'.consumedAt = none := by
    intro heq a' ha'
    exact .inl ⟨a', heq ▸ ha', .same⟩
  have hmap : ∀ {g : AuthorizationRow → AuthorizationRow}, (∀ a, Forward a (g a)) →
      db'.authorizations = db.authorizations.map g → ∀ a' ∈ db'.authorizations,
        (∃ a ∈ db.authorizations, Forward a a') ∨ a'.consumedAt = none := by
    intro g hg heq a' ha'
    rw [heq] at ha'
    obtain ⟨a, ha, rfl⟩ := List.mem_map.mp ha'
    exact .inl ⟨a, ha, hg a⟩
  have happend : ∀ {row : AuthorizationRow}, row.consumedAt = none →
      db'.authorizations = db.authorizations ++ [row] → ∀ a' ∈ db'.authorizations,
        (∃ a ∈ db.authorizations, Forward a a') ∨ a'.consumedAt = none := by
    intro row hrow heq a' ha'
    rw [heq] at ha'
    rcases List.mem_append.mp ha' with hold | hnew
    · exact .inl ⟨a', hold, .same⟩
    · rw [List.mem_singleton.mp hnew]
      exact .inr hrow
  cases h with
  | aged f ages nonces authorizations => exact hsame authorizations
  | created row nonces authorizations => exact hsame authorizations
  | consumed request id envelopesJson row cardHash now fresh consumable nonces authorizations =>
    exact happend rfl authorizations
  | authorized request id cardHash fresh nonces authorizations => exact happend rfl authorizations
  | advanced request now advanceable nonces authorizations =>
    exact hmap (advanceRow_forward request) authorizations
  | used id role now nonces authorizations => exact hmap (useRow_forward id role now) authorizations

/-- What the migration relies on, in every state that this gateway and its restarts lead to. -/
structure RestartLaws (sys : Sys env) : Prop where
  idle : sys.Idle
  ledger : LedgerLaws sys.db
  columns : ColumnLaws sys.db

theorem RestartLaws.initial : RestartLaws (Sys.initial env) :=
  ⟨rfl, initial_laws env, fun _ h => absurd h List.not_mem_nil, fun _ h => absurd h List.not_mem_nil⟩

theorem RestartLaws.act (h : RestartLaws sys) {action : Action}
    (hstep : step env sys action = some sys') : RestartLaws sys' := by
  obtain ⟨hto, hidle⟩ := step_cases env h.idle hstep
  refine ⟨hidle, h.ledger.step hto.ledgerStep, hto.roomsNamed h.columns.rooms, fun a' ha' hat => ?_⟩
  rcases hto.ledgerStep.origin a' ha' with ⟨a, ha, hforward⟩ | hnew
  · exact hforward.consumedAt (h.columns.consumed a ha) hat
  · rw [hnew] at hat
    cases hat

theorem backfillRoom_named {p : ProposalRow} (h : (backfillRoom p).roomId = none) :
    (backfillRoom p).legacyRoomId = none := by
  unfold backfillRoom at h ⊢
  cases hroom : p.roomId <;> cases hlegacy : p.legacyRoomId <;> simp [hroom, hlegacy] at h ⊢

theorem RestartLaws.restart (h : RestartLaws sys) (hrestart : restart sys = some sys') :
    RestartLaws sys' := by
  rw [restart_eq] at hrestart
  obtain rfl := Option.some.inj hrestart
  refine ⟨rfl, h.ledger.changed (restartedRow_id _) (restartedRow_nonce _) rfl rfl, ?_, ?_⟩
  · intro p hp hnone
    obtain ⟨q, hq, rfl⟩ := List.mem_map.mp hp
    exact backfillRoom_named hnone
  · intro a' ha' hat
    obtain ⟨a, ha, rfl⟩ := List.mem_map.mp ha'
    exact restartedRow_consumed hat (h.columns.consumed a ha)

theorem RestartLaws.turn (h : RestartLaws sys) {m : Move} (hturn : turn sys m = some sys') :
    RestartLaws sys' := by
  cases m with
  | act action => exact h.act hturn
  | restart => exact h.restart hturn

theorem reachable_restartLaws (h : Accepts turn (Sys.initial env) log sys) : RestartLaws sys :=
  h.invariant .initial fun _ _ _ hv hturn => hv.turn hturn

/-- A restart finds nothing pending behind a policy. -/
def SettledRestart (sys : Sys env) (m : Move) : Prop := m = .restart → Settled sys.db

/-- A restart changes nothing, and an authorization is published by its own advance. -/
structure Preserved (sys : Sys env) (m : Move) (sys' : Sys env) : Prop where
  restart : m = .restart → sys'.db = sys.db
  publishes : ∀ a ∈ sys.db.authorizations, a.status = .pending → ∀ a' ∈ sys'.db.authorizations,
    a'.authorizationId = a.authorizationId → a'.status = .published →
      ∃ action, m = .act action ∧ IsAdvance sys action a.authorizationId

theorem RestartLaws.preserved (h : RestartLaws sys) {m : Move} (hsettled : SettledRestart sys m)
    (hturn : Gateway.turn sys m = some sys') : Preserved sys m sys' := by
  cases m with
  | act action =>
    refine ⟨nofun, fun a ha hpending a' ha' hid hpublished => ⟨action, rfl, ?_⟩⟩
    exact (step_cases env h.idle hturn).1.publishes_own h.ledger ha hpending ha' hid hpublished
  | restart =>
    have hdb : sys'.db = sys.db := h.columns.restart_settled (hsettled rfl) hturn
    refine ⟨fun _ => hdb, fun a ha hpending a' ha' hid hpublished => ?_⟩
    rw [hdb] at ha'
    obtain rfl := List.inj_on_of_nodup_map h.ledger.ids ha' ha hid
    rw [hpending] at hpublished
    cases hpublished

/-- In every state the migration is idempotent, and it changes no row exactly where no authorization
is pending behind a published policy. If all restarts of a run meet that, they preserve all rows,
and every published authorization was published by its own advance. -/
theorem restarts_preserve (h : Accepts turn (Sys.initial env) log sys) :
    migrate env (migrate env sys.db.raw) = migrate env sys.db.raw ∧
    (migrate env sys.db.raw = sys.db.raw ↔ Settled sys.db) ∧
    (EveryStep turn (Sys.initial env) log SettledRestart →
      EveryStep turn (Sys.initial env) log fun v m => ∀ w, turn v m = some w → Preserved v m w) := by
  refine ⟨migrate_idem _, (reachable_restartLaws h).columns.migrate_iff, ?_⟩
  intro hsettled before m after v heq hv w hturn
  exact (reachable_restartLaws hv).preserved (hsettled before m after v heq hv) hturn

/-- A run of the gateway alone. -/
theorem acts_accepted {actions : List Action}
    (h : Accepts (step env) (Sys.initial env) actions sys) :
    Accepts turn (Sys.initial env) (actions.map .act) sys := by
  induction h with
  | start => exact .start
  | accept _ hstep ih =>
    rw [List.map_append]
    exact ih.accept hstep

end Runs

section Samples

/-- `Settled`, as a test. -/
def settled (db : Db) : Bool :=
  db.authorizations.all fun a => a.status != .pending || !hasPublishedPolicy db.cards a.proposalId

theorem settled_iff {db : Db} : settled db = true ↔ Settled db := by
  simp [settled, Settled, List.all_eq_true, imp_iff_not_or]

/-- The human approval is sealed and not yet published, as a policy for the same plan goes all the
way. -/
def overlappingRun : Sys sampleEnv × List Action :=
  play sampleStart (opening ++ reviewing "low" ++ planning 4 4 "rebalance_a" "low" ++ challenging 5 ++
    consuming 6 5 ++ resuming 6 ++ asking 7 ++ behind 1 (resuming 7 ++ resuming 8 ++ resuming 9))

/-- Both runs in one evaluation; a value, as the next one waits for it. -/
def restartedRunsEnd : PLift (
    (policyRun.1.db.authorizations ≠ [] ∧ settled policyRun.1.db = true) ∧
    (restart overlappingRun.1).any (fun sys' =>
    overlappingRun.1.db.authorizations.any fun a => a.authorizationType == .humanApproval &&
      a.status == .pending && sys'.db.authorizations.any fun a' =>
        a'.authorizationId == a.authorizationId && a'.status == .published &&
          a'.roomMessageId.isNone) = true) where
  down := by decide +kernel

theorem restarts_preserve_policy : policyRun.1.db.authorizations ≠ [] ∧
    migrate sampleEnv policyRun.1.db.raw = policyRun.1.db.raw := by
  have hrun : Accepts (step sampleEnv) (Sys.initial sampleEnv) policyRun.2 policyRun.1 :=
    play_accepts _ .start
  obtain ⟨hrows, hsettled⟩ := restartedRunsEnd.down.1
  exact ⟨hrows, (restarts_preserve (acts_accepted hrun)).2.1.mpr (settled_iff.mp hsettled)⟩

/-- The restart makes a published authorization of the pending one; nothing was ever posted. -/
theorem restart_publishes_approval :
    Accepts turn (Sys.initial sampleEnv) (overlappingRun.2.map .act) overlappingRun.1 ∧
    migrate sampleEnv overlappingRun.1.db.raw ≠ overlappingRun.1.db.raw ∧
    ∃ sys', turn overlappingRun.1 .restart = some sys' ∧
      ∃ a ∈ overlappingRun.1.db.authorizations, a.status = .pending ∧
        ∃ a' ∈ sys'.db.authorizations, a'.authorizationId = a.authorizationId ∧
          a'.status = .published ∧ a'.roomMessageId = none := by
  have hrun : Accepts turn (Sys.initial sampleEnv) (overlappingRun.2.map .act) overlappingRun.1 :=
    acts_accepted (play_accepts _ .start)
  obtain ⟨sys', hrestart, hany⟩ := (Option.any_eq_true _ _).mp restartedRunsEnd.down.2
  obtain ⟨a, ha, hrow⟩ := List.any_eq_true.mp hany
  rw [Bool.and_eq_true, Bool.and_eq_true, beq_iff_eq, beq_iff_eq, List.any_eq_true] at hrow
  obtain ⟨⟨-, hpending⟩, a', ha', hpublished⟩ := hrow
  simp only [Bool.and_eq_true, beq_iff_eq, Option.isNone_iff_eq_none] at hpublished
  obtain ⟨⟨hid, hstatus⟩, hmessage⟩ := hpublished
  have hlaws := reachable_restartLaws hrun
  refine ⟨hrun, fun hsame => ?_, sys', hrestart, a, ha, hpending, a', ha', hid, hstatus, hmessage⟩
  rw [hlaws.columns.restart_settled (hlaws.columns.migrate_iff.mp hsame) hrestart] at ha'
  obtain rfl := List.inj_on_of_nodup_map hlaws.ledger.ids ha' ha hid
  rw [hpending] at hstatus
  cases hstatus

end Samples
end Concordia.Gateway
