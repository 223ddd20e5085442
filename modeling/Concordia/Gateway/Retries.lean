import Concordia.Gateway.Execution
import Concordia.Gateway.FailedOperations
import Concordia.Python.Printable
import Concordia.Verity.Review

/-! Retried submissions: what a prepare request is answered with when its idempotency key was used
before. The row that was sealed under a key answers every later request with the key. -/
namespace Concordia.Gateway
open Concordia.Python Concordia.Lib.Transactions Concordia.Lib.Transactions.Program
open Concordia.Lib.Transition
open Concordia.Js hiding Value

variable (env : Env)

/-- The parts of a prepare request that comes with a key. -/
structure PrepareCall where
  cardTypeName : Str
  xAgentKey : Str
  key : Str
  keyed : key ≠ []
  body : Dict

namespace PrepareCall

/-- `prepare_card` up to its seal. -/
def checks (call : PrepareCall) (uuid : Str) : Sql (PrepareResponse ⊕ SealRequest env.floats) :=
  prepareChecks env call.cardTypeName call.xAgentKey (some call.key) call.body uuid

/-- A request whose agent may submit it and whose card is valid. -/
structure Valid (call : PrepareCall) (t : CardType) (role : Role) (card : Card env.floats) : Prop where
  known : CardType.ofColumn call.cardTypeName = some t
  authenticated : authenticateAgent env call.xAgentKey t = .ok role
  validated : env.modelValidate t (call.body.set (js "card_type") (.str call.cardTypeName)) = some card
  named : cardProposalId card ≠ []

end PrepareCall

/-- The content that the fingerprint is taken of: all but the chain fields. -/
def payload (d : Dict) : Value :=
  sortKeys (.dict (d.filter fun item => !chainFields.any fun f => js f == item.1))

/-- Two texts of different bytes with one SHA-256 digest. -/
def Collision (text other : Str) : Prop :=
  utf8 text ≠ utf8 other ∧ hexdigest env text = hexdigest env other

/-- The row that answers the requests with its key. -/
structure AnswersKey (db : Db) (proposalId key : Str) (t : CardType) (fp : Str) (row : CardRow) :
    Prop where
  stored : row ∈ db.cards
  proposalId : row.proposalId = proposalId
  idempotencyKey : row.idempotencyKey = some key
  cardType : row.cardType = t.column
  fingerprint : storedFingerprint env row = some fp

/-- Two answers about one sealed card: values are compared up to the order of their keys, and the
`card_hash` within the card is left aside. -/
structure SameAnswer (first again : PrepareResponse) : Prop where
  submissionId : again.submissionId = first.submissionId
  cardHash : again.cardHash = first.cardHash
  sequenceNumber : again.sequenceNumber = first.sequenceNumber
  proposalId : again.proposalId = first.proposalId
  members : ∀ name, name ≠ js "card_hash" →
    (again.sealedCard.lookup name).map sortKeys = (first.sealedCard.lookup name).map sortKeys

variable {env}

section Fingerprints

theorem hexdigest_ne_nil (text : Str) : hexdigest env text ≠ [] := by
  intro h
  have hlength := congrArg List.length h
  simp [hexdigest, toHex] at hlength

theorem truthy_some {text : Str} (h : text ≠ []) : truthy (some text) = some text := by
  cases text with
  | nil => exact absurd rfl h
  | cons u rest => rfl

theorem requestFingerprint_ne_nil (d : Dict) : requestFingerprint env d ≠ [] := hexdigest_ne_nil _

/-- Values with one digest have the same content, or their texts collide. -/
theorem hashValue_content {v w : Value} (hv : WellFormed env.floats v) (hw : WellFormed env.floats w)
    (h : hashValue env v = hashValue env w) :
    sortKeys v = sortKeys w ∨ Collision env (dumpsSorted v) (dumpsSorted w) := by
  have hv := wellFormed_sortKeys hv
  have hw := wellFormed_sortKeys hw
  by_cases hbytes : utf8 (dumpsSorted v) = utf8 (dumpsSorted w)
  · exact .inl (dumps_injective hv hw
      (utf8_printable_injective (printable_dumps hv) (printable_dumps hw) hbytes))
  · exact .inr ⟨hbytes, h⟩

/-- One fingerprint is one payload, or a collision. -/
theorem payload_of_fingerprint {d e : Dict} (hd : WellFormed env.floats (.dict d))
    (he : WellFormed env.floats (.dict e))
    (h : requestFingerprint env d = requestFingerprint env e) :
    payload d = payload e ∨ Collision env (dumps (payload d)) (dumps (payload e)) := by
  have hformed : ∀ {c : Dict}, WellFormed env.floats (.dict c) → WellFormed env.floats
      (.dict (c.filter fun item => !chainFields.any fun f => js f == item.1)) := by
    intro c hc
    refine ⟨hc.1.sublist (List.filter_sublist.map _), ?_⟩
    rw [wellFormedItems_iff]
    intro item hitem
    exact (wellFormedItems_iff env.floats).mp hc.2 item (List.mem_of_mem_filter hitem)
  exact hashValue_content (hformed hd) (hformed he) h

theorem fingerprint_of_payload {d e : Dict} (h : payload d = payload e) :
    requestFingerprint env d = requestFingerprint env e := by
  have htext : dumps (payload d) = dumps (payload e) := congrArg dumps h
  exact congrArg (hexdigest env) htext

end Fingerprints

section Rows
variable {db db' : Db} {proposalId key : Str} {t : CardType} {fp : Str} {row : CardRow}

/-- The row of a key is the only one. -/
theorem AnswersKey.found (h : AnswersKey env db proposalId key t fp row) (hunique : UniqueKeys db)
    (hkey : key ≠ []) {card : Card env.floats} (ht : card.cardType = t) :
    sealedBefore env card proposalId (some key) db = some row := by
  have hmatch : ∀ r ∈ db.cards, (r.proposalId == proposalId && r.idempotencyKey == some key &&
      r.cardType == card.cardType.column) = true → r = row := by
    intro r hr hhit
    simp only [Bool.and_eq_true, beq_iff_eq] at hhit
    exact hunique r hr row h.stored (hhit.1.1.trans h.proposalId.symm)
      (hhit.1.2.trans h.idempotencyKey.symm) (by rw [hhit.1.2]; rfl)
  rw [sealedBefore, truthy_some hkey, Option.bind_some]
  cases hfind : db.cards.find? _ with
  | none =>
    have hnone := List.find?_eq_none.mp hfind row h.stored
    simp [h.proposalId, h.idempotencyKey, h.cardType, ht] at hnone
  | some r =>
    have hhit := List.find?_some hfind
    rw [hmatch r (List.mem_of_find?_eq_some hfind) hhit]

/-- Another card type does not find the row. -/
theorem AnswersKey.otherType (h : AnswersKey env db proposalId key t fp row) (hunique : UniqueKeys db)
    {card : Card env.floats} (ht : card.cardType ≠ t) :
    sealedBefore env card proposalId (some key) db = none := by
  cases hbefore : sealedBefore env card proposalId (some key) db with
  | none => rfl
  | some r =>
    obtain ⟨k, hk, hfound⟩ := Option.bind_eq_some_iff.mp hbefore
    obtain rfl := eq_of_truthy hk
    have hhit := List.find?_some hfound
    simp only [Bool.and_eq_true, beq_iff_eq] at hhit
    obtain rfl := hunique r (List.mem_of_find?_eq_some hfound) row h.stored
      (hhit.1.1.trans h.proposalId.symm) (hhit.1.2.trans h.idempotencyKey.symm)
      (by rw [hhit.1.2]; rfl)
    exact absurd (CardType.column_injective (hhit.2.symm.trans h.cardType)) ht

theorem CardRow.SameSeal.trans {c c' c'' : CardRow} (h : c.SameSeal c') (h' : c'.SameSeal c'') :
    c.SameSeal c'' :=
  ⟨h'.proposalId.trans h.proposalId, h'.sequenceNumber.trans h.sequenceNumber,
    h'.cardType.trans h.cardType, h'.cardHash.trans h.cardHash, h'.cardJson.trans h.cardJson,
    h'.idempotencyKey.trans h.idempotencyKey, h'.preparedByRole.trans h.preparedByRole⟩

/-- What a step leaves of a sealed row. -/
theorem CardsStep.kept (h : CardsStep env db db') (hrow : row ∈ db.cards) :
    ∃ row' ∈ db'.cards, row.SameSeal row' ∧ row'.requestFp = row.requestFp := by
  cases h with
  | same cards => exact ⟨row, cards ▸ hrow, .refl row, rfl⟩
  | published hits messageId now cards =>
    refine ⟨_, by rw [cards]; exact List.mem_map_of_mem hrow, published_sameSeal hits messageId now row, ?_⟩
    split <;> rfl
  | appended card p k role requestFp fresh known cards =>
    exact ⟨row, by rw [cards]; exact List.mem_append_left _ hrow, .refl row, rfl⟩

theorem storedFingerprint_congr {row' : CardRow} (hsame : row.SameSeal row')
    (hfp : row'.requestFp = row.requestFp) :
    storedFingerprint env row' = storedFingerprint env row := by
  rw [storedFingerprint, storedFingerprint, hfp, hsame.cardJson]

theorem AnswersKey.kept (h : AnswersKey env db proposalId key t fp row) {row' : CardRow}
    (hstored : row' ∈ db'.cards) (hsame : row.SameSeal row') (hfp : row'.requestFp = row.requestFp) :
    AnswersKey env db' proposalId key t fp row' where
  stored := hstored
  proposalId := hsame.proposalId.trans h.proposalId
  idempotencyKey := hsame.idempotencyKey.trans h.idempotencyKey
  cardType := hsame.cardType.trans h.cardType
  fingerprint := (storedFingerprint_congr hsame hfp).trans h.fingerprint

/-- Sealed rows stay in every later state. -/
theorem kept_later {sys sys' : Sys env} {log : List Action} (hrow : row ∈ sys.db.cards)
    (hidle : sys.Idle) (hrun : Accepts (step env) sys log sys') : ∃ row' ∈ sys'.db.cards,
      row.SameSeal row' ∧ row'.requestFp = row.requestFp := by
  have hkept := hrun.invariant (P := fun sys' => sys'.Idle ∧ ∃ row' ∈ sys'.db.cards,
    row.SameSeal row' ∧ row'.requestFp = row.requestFp) ⟨hidle, row, hrow, .refl row, rfl⟩
    fun v a w hv hstep => ?_
  · exact hkept.2
  · obtain ⟨hv, old, hold, hsame, hfp⟩ := hv
    obtain ⟨hto, hidle⟩ := step_cases env hv hstep
    obtain ⟨new, hnew, hnewSame, hnewFp⟩ := hto.cardsStep.kept hold
    exact ⟨hidle, new, hnew, hsame.trans hnewSame, hnewFp.trans hfp⟩

/-- The row of a key answers in every later state. -/
theorem AnswersKey.later {sys sys' : Sys env} {log : List Action}
    (h : AnswersKey env sys.db proposalId key t fp row) (hidle : sys.Idle)
    (hrun : Accepts (step env) sys log sys') : ∃ row',
      AnswersKey env sys'.db proposalId key t fp row' ∧ row.SameSeal row' := by
  obtain ⟨row', hstored, hsame, hfp⟩ := kept_later h.stored hidle hrun
  exact ⟨row', h.kept hstored hsame hfp, hsame⟩

end Rows

section Checks
variable {call : PrepareCall} {t : CardType} {role : Role} {card : Card env.floats}

theorem PrepareCall.Valid.cardType (h : call.Valid env t role card) : card.cardType = t :=
  env.validated _ _ _ h.validated

theorem PrepareCall.Valid.unique_type {t' : CardType} {role' : Role} {card' : Card env.floats}
    (h : call.Valid env t role card) (h' : call.Valid env t' role' card') : t = t' :=
  Option.some.inj (h.known.symm.trans h'.known)

theorem PrepareCall.Valid.unique_card {role' : Role} {card' : Card env.floats}
    (h : call.Valid env t role card) (h' : call.Valid env t role' card') : card = card' :=
  Option.some.inj (h.validated.symm.trans h'.validated)

/-- A request whose key was used: its answer comes from the row, or its payload is another one. -/
theorem PrepareCall.Valid.repeated (h : call.Valid env t role card) {c : Connection Db}
    {fp : Str} {row : CardRow} {data : Dict}
    (hrow : AnswersKey env c.data (cardProposalId card) call.key t fp row) (hunique : UniqueKeys c.data)
    (hdata : rowData env row = some data) (uuid : Str) :
    call.checks env uuid c = if fp ≠ requestFingerprint env card.dump then
        (.error (invalidPayload env call.key t), c)
      else (.ok (.inl ⟨call.key, data, row.cardHash, row.sequenceNumber, cardProposalId card, role,
        destination (cardProposalId card) c.data⟩), c) := by
  have hfound := hrow.found hunique call.keyed h.cardType
  have hkey := truthy_some call.keyed
  unfold PrepareCall.checks prepareChecks
  simp only [h.known, h.authenticated, h.validated, if_neg h.named, hkey, Option.getD_some]
  rw [select_bind, hfound]
  simp only [hrow.fingerprint, hdata]
  split
  · rfl
  · rfl

/-- What the checks hand over, or answer with. -/
def ChecksPost (call : PrepareCall) (db : Db) : PrepareResponse ⊕ SealRequest env.floats → Prop
  | .inl response => ∃ t role card row data, call.Valid env t role card ∧
      sealedBefore env card (cardProposalId card) (some call.key) db = some row ∧
      storedFingerprint env row = some (requestFingerprint env card.dump) ∧
      rowData env row = some data ∧ response = ⟨call.key, data, row.cardHash, row.sequenceNumber,
        cardProposalId card, role, destination (cardProposalId card) db⟩
  | .inr request => ∃ t role card, call.Valid env t role card ∧ request.card.cardType = t ∧
      request.proposalId = cardProposalId card ∧ request.idempotencyKey = call.key ∧
      request.preparedByRole = role ∧ request.requestFp = requestFingerprint env card.dump

theorem PrepareCall.checks_ends (call : PrepareCall) (uuid : Str) (db : Db) :
    Ends (call.checks env uuid) (idle db) fun r _ => ∀ next, r = .ok next →
      ChecksPost call db next := by
  unfold PrepareCall.checks prepareChecks
  split
  · simp
  · rename_i t hknown
    split
    · simp
    · rename_i role hrole
      split
      · simp
      · rename_i card hcard
        rw [truthy_some call.keyed, Option.getD_some]
        simp only
        split
        · simp
        · rename_i hnamed
          have hvalid : call.Valid env t role card := ⟨hknown, hrole, hcard, hnamed⟩
          have hcontinue : ∀ c, Ends (prepareChecks.continueWith env card (cardProposalId card) call.key
              role (requestFingerprint env card.dump)) c fun r _ => ∀ next, r = .ok next →
                ChecksPost call db next := by
            intro c
            unfold prepareChecks.continueWith
            rw [ends_bind]
            refine Ends.mono (R := fun _ _ => True) trivial fun r c' _ => ?_
            cases r with
            | error e => simp
            | ok u =>
              simp only [ends_select_bind]
              cases hfloor : applyRiskFloor env card c'.data with
              | none => simp
              | some floored =>
                simp only [ends_pure, Except.ok.injEq, forall_eq']
                exact ⟨t, role, card, hvalid,
                  (applyRiskFloor_cardType env hfloor).trans hvalid.cardType, rfl, rfl, rfl, rfl⟩
          rw [ends_select_bind]
          split
          · rename_i existing hexisting
            split
            · rename_i stored data hstored hdata
              split
              · simp
              · rename_i hsame
                rw [ends_select_bind, ends_pure]
                rintro next hnext
                obtain rfl := Except.ok.inj hnext
                exact ⟨t, role, card, existing, data, hvalid, hexisting,
                  hstored.trans (congrArg some (not_not.mp hsame)), hdata, rfl⟩
            · split <;> simp
            · simp
          · rw [ends_select_bind]
            split
            · simp
            · split
              · simp
              · exact hcontinue _
            · exact hcontinue _

end Checks

section Seal
variable {card : Card env.floats} {proposalId key fp : Str} {role : Option Role}

/-- The card of a result is the one of the row, as it is dumped or as it is parsed. -/
structure CarriedBy (result : Sealed env.floats) (row : CardRow) : Prop where
  cardHash : result.cardHash = row.cardHash
  text : row.cardJson = result.card.canonical ∨ parseCard env row.cardJson = some result.card

theorem replaySealed_fingerprint (idempotencyKey requestFp : Option Str) (existing : CardRow)
    (c : Connection Db) : Ends (replaySealed env card idempotencyKey requestFp existing) c fun r c' =>
      c' = c ∧ ∀ result, r = .ok result → CarriedBy result existing ∧
        storedFingerprint env existing = some (payloadFingerprint env card requestFp) := by
  unfold replaySealed
  cases hstored : storedFingerprint env existing with
  | none => simp
  | some stored =>
    simp only
    split
    · simp
    · rename_i hsame
      cases hparse : parseCard env existing.cardJson with
      | none => simp
      | some parsed =>
        simp only [ends_pure, true_and]
        rintro result hresult
        obtain rfl := Except.ok.inj hresult
        exact ⟨⟨rfl, .inr hparse⟩, congrArg some (not_not.mp hsame)⟩

theorem payloadFingerprint_some (hfp : fp ≠ []) : payloadFingerprint env card (some fp) = fp := by
  rw [payloadFingerprint, truthy_some hfp, Option.getD_some]

theorem answersKey_nextRow {db db' : Db} (hfp : fp ≠ [])
    (h : db.insertCard (nextRow env card proposalId (some key) role (some fp) db) = some db') :
    AnswersKey env db' proposalId key card.cardType fp
      (nextRow env card proposalId (some key) role (some fp) db) where
  stored := by
    rw [insertCard_cards h]
    exact List.mem_append_right _ (List.mem_singleton.mpr rfl)
  proposalId := rfl
  idempotencyKey := rfl
  cardType := rfl
  fingerprint := by
    have hrow : (nextRow env card proposalId (some key) role (some fp) db).requestFp = some fp :=
      congrArg some (payloadFingerprint_some hfp)
    rw [storedFingerprint, hrow, truthy_some hfp]

/-- Whatever `seal_card` returns, a row of the table stands for it. -/
theorem sealCard_answers (hkey : key ≠ []) (hfp : fp ≠ []) (db : Db) :
    Ends (sealCard env card proposalId (some key) role (some fp)) (idle db) fun r c =>
      ∀ result, r = .ok result → ∃ row,
        AnswersKey env c.data proposalId key card.cardType fp row ∧ CarriedBy result row := by
  unfold sealCard
  rw [ends_begin_bind, ends_attempt, ends_select_bind]
  cases hfound : sealedBefore env card proposalId (some key) db with
  | some existing =>
    rw [ends_rollback_bind]
    refine (replaySealed_fingerprint (some key) (some fp) existing _).mono fun r c hr => ?_
    obtain ⟨rfl, hr⟩ := hr
    cases r with
    | error e => cases e <;> simp
    | ok result =>
      rintro _ hresult
      obtain rfl := Except.ok.inj hresult
      obtain ⟨hcarried, hstored⟩ := hr result rfl
      rw [payloadFingerprint_some hfp] at hstored
      rw [sealedBefore, truthy_some hkey, Option.bind_some] at hfound
      have hhit := List.find?_some hfound
      simp only [Bool.and_eq_true, beq_iff_eq] at hhit
      exact ⟨existing, ⟨List.mem_of_find?_eq_some hfound, hhit.1.1, hhit.1.2, hhit.2, hstored⟩, hcarried⟩
  | none =>
    simp only [ends_select_bind, ends_execute_bind]
    refine ⟨fun db' hdb' => ?_, fun _ => ?_⟩
    · simp only [ends_commit_bind, ends_pure, Except.ok.injEq, forall_eq']
      exact ⟨_, answersKey_nextRow hfp hdb', ⟨rfl, .inl rfl⟩⟩
    · simp [DriverError.integrity]

/-- What `prepare_card` answers with after its seal. -/
def sealedResponse (request : SealRequest env.floats) (result : Sealed env.floats) (db : Db) :
    PrepareResponse where
  submissionId := request.idempotencyKey
  sealedCard := result.card.dump.set (js "card_hash") (.str result.cardHash)
  cardHash := result.cardHash
  sequenceNumber := match result.card.dump.get "sequence_number" with | .int n => n | _ => 0
  proposalId := request.proposalId
  agentRole := request.preparedByRole
  roomId := destination request.proposalId db

theorem prepareSeal_answers (request : SealRequest env.floats) (hkey : request.idempotencyKey ≠ [])
    (hfp : request.requestFp ≠ []) (db : Db) :
    Ends (prepareSeal env request) (idle db) fun r c => ∀ response, r = .ok response →
      ∃ result row, response = sealedResponse request result c.data ∧ CarriedBy result row ∧
        AnswersKey env c.data request.proposalId request.idempotencyKey request.card.cardType
          request.requestFp row := by
  unfold prepareSeal
  rw [ends_attempt_bind]
  refine Ends.mono (sealCard_answers hkey hfp db) fun r c hc => ?_
  cases r with
  | error e => cases e <;> simp
  | ok result =>
    simp only [ends_select_bind, ends_pure, Except.ok.injEq, forall_eq']
    obtain ⟨row, hrow, hcarried⟩ := hc result rfl
    exact ⟨result, row, rfl, hcarried, hrow⟩

/-- A key that was used for another type is refused, and the tables stay. -/
theorem prepareSeal_otherType {request : SealRequest env.floats} {t : CardType} {row : CardRow} {db : Db}
    (hrow : AnswersKey env db request.proposalId request.idempotencyKey t fp row)
    (hunique : UniqueKeys db) (ht : request.card.cardType ≠ t) : ∃ detail,
      prepareSeal env request (idle db) = (.error (.http 409 detail), idle db) := by
  have hnone := hrow.otherType hunique ht
  have hinsert : db.insertCard (nextRow env request.card request.proposalId
      (some request.idempotencyKey) (some request.preparedByRole) (some request.requestFp) db) = none := by
    unfold Db.insertCard
    simp only
    refine if_pos (Bool.or_eq_true_iff.mpr (.inr (List.any_eq_true.mpr ⟨row, hrow.stored, ?_⟩)))
    simp [nextRow, hrow.proposalId, hrow.idempotencyKey]
  have hends : Ends (prepareSeal env request) (idle db) fun r c => c = idle db ∧ ∃ detail,
      r = .error (.http 409 detail) := by
    unfold prepareSeal sealCard
    rw [ends_attempt_bind, ends_begin_bind, ends_attempt, ends_select_bind]
    simp only [idle_data, hnone, ends_select_bind, ends_execute_bind, hinsert]
    refine ⟨fun _ h => by simp at h, fun _ => ?_⟩
    simp [DriverError.integrity, otherCardType, idle]
  obtain ⟨hconnection, detail, hdetail⟩ := hends
  exact ⟨detail, Prod.ext hdetail hconnection⟩

end Seal

section Answers

theorem rowData_text {row : CardRow} {card : Card env.floats} (h : row.cardJson = card.canonical) :
    rowData env row = some (sortedItems card.dump) := by
  rw [rowData, h, Card.canonical, loads_dumpsSorted card.wellFormed, sortKeys_dict]

theorem CarriedBy.canonical {result : Sealed env.floats} {row : CardRow} (h : CarriedBy result row)
    (hparse : Reparses env row) : row.cardJson = result.card.canonical := by
  rcases h.text with htext | hparsed
  · exact htext
  · rw [Reparses, hparsed, Option.map_some] at hparse
    exact (Option.some.inj hparse).symm

theorem eq_int_of_sortKeys {v : Value} {n : Int} (h : sortKeys v = sortKeys (.int n)) :
    v = .int n := by
  cases v <;> simp_all [sortKeys]

/-- The number that a sealed text carries is the one of its row. -/
theorem Chained.sequenceNumber {db : Db} (h : Chained env db) {row : CardRow} (hrow : row ∈ db.cards)
    {card : Card env.floats} (htext : row.cardJson = card.canonical) :
    card.dump.get "sequence_number" = .int row.sequenceNumber := by
  obtain ⟨i, hi⟩ := List.mem_iff_getElem?.mp (mem_cardsOf.mpr ⟨hrow, rfl⟩)
  have hfits := (h row.proposalId).get hi
  obtain ⟨behind, hbehind⟩ := hfits.sealed
  have hsame := sortKeys_get card.wellFormed (behind.linked _ _).wellFormed (htext.symm.trans hbehind)
    "sequence_number"
  have hlink : ∀ n prev, (behind.linked n prev).dump.get "sequence_number" = .int n := by
    intro n prev
    rw [Card.linked, get_set_other (by decide +kernel), get_set_self]
  rw [hlink] at hsame
  rw [hfits.numbered]
  exact eq_int_of_sortKeys hsame

variable (env) in
/-- What a row says to an answer that was given for it. -/
structure StandsFor (response : PrepareResponse) (row : CardRow) : Prop where
  cardHash : response.cardHash = row.cardHash
  sequenceNumber : response.sequenceNumber = row.sequenceNumber
  members : ∃ data, rowData env row = some data ∧ ∀ name, name ≠ js "card_hash" →
    (data.lookup name).map sortKeys = (response.sealedCard.lookup name).map sortKeys

theorem CarriedBy.standsFor {db : Db} {result : Sealed env.floats} {row : CardRow}
    (h : CarriedBy result row) (hchain : Chained env db) (hrow : row ∈ db.cards)
    (hparse : Reparses env row) (request : SealRequest env.floats) :
    StandsFor env (sealedResponse request result db) row := by
  have htext := h.canonical hparse
  refine ⟨h.cardHash, ?_, sortedItems result.card.dump, rowData_text htext, fun name hname => ?_⟩
  · rw [sealedResponse, hchain.sequenceNumber hrow htext]
  · rw [lookup_sortedItems result.card.wellFormed.1, Option.map_map, sealedResponse,
      Dict.lookup_set_other hname]
    congr 1
    funext v
    exact sortKeys_sortKeys v

end Answers

section Runs
variable {call : PrepareCall} {response : PrepareResponse} {sys sys' : Sys env} {log : List Action}

variable (env) in
/-- A prepare request is answered when a run reaches this state: by its checks, or by its seal,
after whatever happened since the checks. -/
inductive Answered (call : PrepareCall) : Sys env → PrepareResponse → Prop
  | replayed {before : List Action} {sys : Sys env} {uuid : Str} {response : PrepareResponse}
      (reached : Accepts (step env) (Sys.initial env) before sys)
      (answer : (call.checks env uuid sys.connection).1 = .ok (.inl response)) :
      Answered call sys response
  | sealed {before between : List Action} {checked sys sys' : Sys env} {uuid : Str}
      {request : SealRequest env.floats} {index : Nat} {draws : Draws} {response : PrepareResponse}
      (reached : Accepts (step env) (Sys.initial env) before checked)
      (handed : (call.checks env uuid checked.connection).1 = .ok (.inr request))
      (since : Accepts (step env) checked between sys)
      (pending : sys.jobs[index]? = some (.sealCard request))
      (taken : step env sys (.resume index draws) = some sys')
      (answer : (prepareSeal env request sys.connection).1 = .ok response) :
      Answered call sys' response

theorem Sys.Idle.connection_eq (h : sys.Idle) : sys.connection = idle sys.db := by
  obtain ⟨⟨data, saved⟩, jobs⟩ := sys
  obtain rfl : saved = none := h
  rfl

/-- The seal of a job leaves the database of the state behind it. -/
theorem settle_connection (jobs : List (Job env)) (p : Sql (List (Job env))) :
    (sys.settle jobs p).connection = (p sys.connection).2 := by
  unfold Sys.settle
  cases p sys.connection with
  | mk r c => cases r <;> rfl

theorem step_sealCard {request : SealRequest env.floats} {index : Nat} {draws : Draws}
    (pending : sys.jobs[index]? = some (.sealCard request))
    (taken : step env sys (.resume index draws) = some sys') :
    sys'.connection = (prepareSeal env request sys.connection).2 := by
  unfold step at taken
  split at taken
  · cases taken
  · simp only [pending, Option.map_some, Option.some.injEq] at taken
    subst taken
    rw [settle_connection]
    unfold resumeJob
    simp only [bind]
    cases prepareSeal env request sys.connection with
    | mk r c => cases r <;> rfl

/-- What is known of an answer: its request, and the row that it speaks about. -/
structure AnsweredRow (call : PrepareCall) (sys : Sys env) (response : PrepareResponse) (t : CardType)
    (role : Role) (card : Card env.floats) (row : CardRow) : Prop where
  reached : ∃ log, Accepts (step env) (Sys.initial env) log sys
  valid : call.Valid env t role card
  answers : AnswersKey env sys.db (cardProposalId card) call.key t (requestFingerprint env card.dump) row
  standsFor : StandsFor env response row
  submissionId : response.submissionId = call.key
  proposalId : response.proposalId = cardProposalId card

theorem Answered.settled (h : Answered env call sys response)
    (hparse : ∀ row ∈ sys.db.cards, Reparses env row) :
    ∃ t role card row, AnsweredRow call sys response t role card row := by
  cases h with
  | replayed reached answer =>
    rename_i before uuid
    have hchain := reachable_chained reached
    rw [hchain.1.connection_eq] at answer
    obtain ⟨t, role, card, row, data, hvalid, hfound, hstored, hdata, rfl⟩ :=
      call.checks_ends uuid sys.db _ answer
    rw [sealedBefore, truthy_some call.keyed, Option.bind_some] at hfound
    have hhit := List.find?_some hfound
    simp only [Bool.and_eq_true, beq_iff_eq] at hhit
    have hmem := List.mem_of_find?_eq_some hfound
    have hanswers : AnswersKey env sys.db (cardProposalId card) call.key t
        (requestFingerprint env card.dump) row :=
      ⟨hmem, hhit.1.1, hhit.1.2, hvalid.cardType ▸ hhit.2, hstored⟩
    exact ⟨t, role, card, row, ⟨before, reached⟩, hvalid, hanswers,
      ⟨rfl, rfl, data, hdata, fun name _ => rfl⟩, rfl, rfl⟩
  | sealed reached handed since pending taken answer =>
    rename_i before between checked earlier uuid request index draws
    have hchecked := reachable_chained reached
    rw [hchecked.1.connection_eq] at handed
    obtain ⟨t, role, card, hvalid, htype, hproposal, hkey, -, hfp⟩ :=
      call.checks_ends uuid checked.db _ handed
    have hrun := reached.trans since
    have hidle := (reachable_chained hrun).1
    have hseal := prepareSeal_answers request (hkey ▸ call.keyed)
      (hfp ▸ requestFingerprint_ne_nil card.dump) earlier.db
    have hconnection := step_sealCard pending taken
    rw [hidle.connection_eq] at answer hconnection
    obtain ⟨result, row, rfl, hcarried, hanswers⟩ := hseal _ answer
    rw [← hconnection, htype, hproposal, hkey, hfp] at hanswers
    have hchain := (reachable_chained (hrun.accept taken)).2
    have hstands := hcarried.standsFor hchain hanswers.stored (hparse row hanswers.stored) request
    rw [← hconnection]
    exact ⟨t, role, card, row, ⟨_, hrun.accept taken⟩, hvalid, hanswers, hstands, hkey, hproposal⟩

section Checks
variable {retry : PrepareCall} {t t' : CardType} {role : Role} {card : Card env.floats} {row : CardRow}
  {fp : Str}

theorem severityFloor_readable {db : Db} (hchain : Chained env db) {c : CardRow} (hc : c ∈ db.cards) :
    severityFloor env c ≠ none := by
  obtain ⟨i, hi⟩ := List.mem_iff_getElem?.mp (mem_cardsOf.mpr ⟨hc, rfl⟩)
  obtain ⟨behind, hbehind⟩ := ((hchain c.proposalId).get hi).sealed
  rw [severityFloor, hbehind, Card.canonical, loads_dumpsSorted (behind.linked _ _).wellFormed,
    sortKeys_dict]
  simp

/-- The risk floor reads only stored texts, so it does not fail. -/
theorem applyRiskFloor_readable {db : Db} (hchain : Chained env db) (card : Card env.floats) :
    ∃ floored, applyRiskFloor env card db = some floored := by
  unfold applyRiskFloor
  split
  · exact ⟨_, rfl⟩
  · have hfloor : ∃ raised, card.withSeverityFloor env db = some raised := by
      unfold Card.withSeverityFloor
      simp only
      split
      · exact ⟨_, rfl⟩
      · rename_i assessment hlast
        have hmem := (mem_cardsOf.mp (List.mem_of_mem_filter (lastBySequence_mem hlast))).1
        obtain ⟨floor, hfloor⟩ := Option.ne_none_iff_exists'.mp (severityFloor_readable hchain hmem)
        exact ⟨_, by rw [hfloor, Option.map_some]⟩
    obtain ⟨raised, hraised⟩ := hfloor
    exact ⟨_, by rw [hraised, Option.map_some]⟩

/-- The checks of a key that was used for another type: they refuse, or hand over to the seal,
and write nothing. -/
theorem PrepareCall.Valid.otherType (h : retry.Valid env t' role card) {db : Db}
    (hchain : Chained env db) (hhoused : Housed db)
    (hrow : AnswersKey env db (cardProposalId card) retry.key t fp row) (hunique : UniqueKeys db)
    (ht : t' ≠ t) (uuid : Str) :
    (∃ detail, retry.checks env uuid (idle db) = (.error (.http 409 detail), idle db)) ∨
      ∃ request, retry.checks env uuid (idle db) = (.ok (.inr request), idle db) := by
  have hnone : sealedBefore env card (cardProposalId card) (some retry.key) db = none :=
    hrow.otherType hunique (h.cardType ▸ ht)
  obtain ⟨proposal, hproposal⟩ : ∃ proposal, db.proposal (cardProposalId card) = some proposal := by
    have hsome := hhoused row hrow.stored
    rw [hrow.proposalId, Db.proposalState, Option.isSome_map] at hsome
    exact Option.isSome_iff_exists.mp hsome
  obtain ⟨floored, hfloored⟩ := applyRiskFloor_readable hchain card
  have hends : Ends (retry.checks env uuid) (idle db) fun r c => c = idle db ∧
      ((∃ detail, r = .error (.http 409 detail)) ∨ ∃ request, r = .ok (.inr request)) := by
    have hcontinue : Ends (prepareChecks.continueWith env card (cardProposalId card) retry.key role
        (requestFingerprint env card.dump)) (idle db) fun r c => c = idle db ∧
          ((∃ detail, r = .error (.http 409 detail)) ∨ ∃ request, r = .ok (.inr request)) := by
      unfold prepareChecks.continueWith upsertProposal
      simp [hproposal, hfloored]
    unfold PrepareCall.checks prepareChecks
    simp only [h.known, h.authenticated, h.validated, if_neg h.named, truthy_some retry.keyed,
      Option.getD_some]
    rw [ends_select_bind]
    simp only [idle_data, hnone]
    rw [ends_select_bind]
    split
    · simp
    · split
      · simp
      · exact hcontinue
    · exact hcontinue
  obtain ⟨hconnection, ⟨detail, hdetail⟩ | ⟨request, hrequest⟩⟩ := hends
  · exact .inl ⟨detail, Prod.ext hdetail hconnection⟩
  · exact .inr ⟨request, Prod.ext hrequest hconnection⟩

end Checks

variable (env) in
/-- What a later request gets that comes with the same key for the same proposal: the same answer,
or a conflict. It writes nothing. -/
structure Retried (call : PrepareCall) (response : PrepareResponse) (t : CardType)
    (card : Card env.floats) (sys : Sys env) : Prop where
  samePayload : ∀ (retry : PrepareCall) (uuid : Str) (role : Role) (card' : Card env.floats),
    retry.key = call.key → retry.Valid env t role card' → cardProposalId card' = cardProposalId card →
      payload card'.dump = payload card.dump → ∃ again,
        retry.checks env uuid sys.connection = (.ok (.inl again), sys.connection) ∧
          SameAnswer response again ∧ again.agentRole = role
  otherPayload : ∀ (retry : PrepareCall) (uuid : Str) (role : Role) (card' : Card env.floats),
    retry.key = call.key → retry.Valid env t role card' → cardProposalId card' = cardProposalId card →
      payload card'.dump ≠ payload card.dump →
        Collision env (dumps (payload card.dump)) (dumps (payload card'.dump)) ∨
          ∃ detail, retry.checks env uuid sys.connection = (.error (.http 409 detail), sys.connection)
  otherType : ∀ (retry : PrepareCall) (uuid : Str) (t' : CardType) (role : Role)
    (card' : Card env.floats), retry.key = call.key → t' ≠ t → retry.Valid env t' role card' →
      cardProposalId card' = cardProposalId card →
        (∃ detail, retry.checks env uuid sys.connection =
          (.error (.http 409 detail), sys.connection)) ∨
        ∃ request, retry.checks env uuid sys.connection = (.ok (.inr request), sys.connection) ∧
          ∀ (log : List Action) (sys' : Sys env), Accepts (step env) sys log sys' → ∃ detail,
            prepareSeal env request sys'.connection = (.error (.http 409 detail), sys'.connection)

/-- Retries are idempotent in every run: whatever happens between the answer and the retry, the key
stands for one sealed card of its proposal. -/
theorem prepare_retried (h : Answered env call sys response)
    (hparse : ∀ row ∈ sys.db.cards, Reparses env row) (hlater : Accepts (step env) sys log sys') :
    ∃ t role card, call.Valid env t role card ∧ Retried env call response t card sys' := by
  obtain ⟨t, role, card, row, hsettled⟩ := h.settled hparse
  obtain ⟨before, hbefore⟩ := hsettled.reached
  have hrun := hbefore.trans hlater
  obtain ⟨hidle, hunique⟩ := reachable_uniqueKeys hrun
  have hchain := (reachable_chained hrun).2
  obtain ⟨row', hanswers, hsame⟩ :=
    hsettled.answers.later (reachable_chained hbefore).1 hlater
  obtain ⟨data, hdata, hmembers⟩ := hsettled.standsFor.members
  have hdata' : rowData env row' = some data := by rw [rowData, hsame.cardJson]; exact hdata
  have hconnection := hidle.connection_eq
  refine ⟨t, role, card, hsettled.valid, ?_, ?_, ?_⟩
  · intro retry uuid role' card' hkey hvalid hproposal hpayload
    rw [← hproposal, ← hkey, ← fingerprint_of_payload hpayload] at hanswers
    have hchecks := hvalid.repeated hanswers hunique hdata' uuid
    rw [if_neg (not_not.mpr rfl)] at hchecks
    refine ⟨_, hchecks, ⟨?_, ?_, ?_, ?_, hmembers⟩, rfl⟩
    · rw [hsettled.submissionId, hkey]
    · rw [hsettled.standsFor.cardHash, hsame.cardHash]
    · rw [hsettled.standsFor.sequenceNumber, hsame.sequenceNumber]
    · rw [hsettled.proposalId, hproposal]
  · intro retry uuid role' card' hkey hvalid hproposal hpayload
    rw [← hproposal, ← hkey] at hanswers
    by_cases hfp : requestFingerprint env card.dump = requestFingerprint env card'.dump
    · exact .inl ((payload_of_fingerprint card.wellFormed card'.wellFormed hfp).resolve_left
        (Ne.symm hpayload))
    · have hchecks := hvalid.repeated hanswers hunique hdata' uuid
      rw [if_pos hfp] at hchecks
      exact .inr ⟨_, hchecks⟩
  · intro retry uuid t' role' card' hkey ht hvalid hproposal
    rw [hconnection]
    have hretry := hanswers
    rw [← hproposal, ← hkey] at hretry
    refine (hvalid.otherType hchain (reachable_housed hrun) hretry hunique ht uuid).imp_right ?_
    rintro ⟨request, hrequest⟩
    refine ⟨request, hrequest, fun log' sys'' hlater' => ?_⟩
    obtain ⟨t'', role'', card'', hvalid', htype, hproposal', hkey', -⟩ :=
      retry.checks_ends uuid sys'.db _ (congrArg Prod.fst hrequest)
    obtain rfl := hvalid.unique_type hvalid'
    obtain rfl := hvalid.unique_card hvalid'
    obtain ⟨hidle'', hunique''⟩ := reachable_uniqueKeys (hrun.trans hlater')
    obtain ⟨row'', hanswers'', -⟩ := hretry.later hidle hlater'
    rw [← hproposal', ← hkey'] at hanswers''
    rw [hidle''.connection_eq]
    exact prepareSeal_otherType hanswers'' hunique'' (htype ▸ ht)

end Runs

section Sample

theorem step_prepare {call : PrepareCall} {sys : Sys env} {draws : Draws}
    {request : SealRequest env.floats} (fresh : sys.db.authorization draws.uuid = none)
    (handed : (call.checks env draws.uuid sys.connection).1 = .ok (.inr request)) :
    step env sys (.request (.prepare call.cardTypeName call.xAgentKey (some call.key) call.body) draws) =
      some ⟨(call.checks env draws.uuid sys.connection).2, sys.jobs ++ [.sealCard request]⟩ := by
  unfold step
  simp only [Action.draws, fresh, Option.isSome_none, Bool.false_eq_true, if_false, Option.some.injEq,
    Sys.settle, startRequest, bind]
  unfold PrepareCall.checks at handed ⊢
  cases hchecks : prepareChecks env call.cardTypeName call.xAgentKey (some call.key) call.body draws.uuid
    sys.connection with
  | mk r c =>
    rw [hchecks] at handed
    obtain rfl : r = .ok (.inr request) := handed
    rfl

/-- A pending seal can be taken. -/
theorem step_pending {c : Connection Db} {draws : Draws} {request : SealRequest env.floats}
    (fresh : c.data.authorization draws.uuid = none) : ∃ sys',
      step env ⟨c, [.sealCard request]⟩ (.resume 0 draws) = some sys' := by
  unfold step
  simp only [Action.draws, Sys.db, fresh]
  exact ⟨_, rfl⟩

variable (env) in
/-- `prepare_card` to its end. -/
def PrepareCall.toEnd (call : PrepareCall) (uuid : Str) : Sql PrepareResponse :=
  prepareCard env call.cardTypeName call.xAgentKey (some call.key) call.body uuid

theorem PrepareCall.toEnd_eq {call : PrepareCall} {uuid : Str} (c : Connection Db) :
    call.toEnd env uuid c = match call.checks env uuid c with
      | (.ok (.inl response), c) => (.ok response, c)
      | (.ok (.inr request), c) => prepareSeal env request c
      | (.error e, c) => (.error e, c) := by
  unfold PrepareCall.toEnd prepareCard PrepareCall.checks
  simp only [bind]
  cases prepareChecks env call.cardTypeName call.xAgentKey (some call.key) call.body uuid c with
  | mk r c => rcases r with e | response | request <;> rfl

theorem Upserted.authorization {db db' : Db} (h : Upserted db db') (id : Str) :
    db'.authorization id = db.authorization id := by
  cases h <;> rfl

/-- The first request of a run is answered in two steps. -/
theorem Answered.first {call : PrepareCall} {draws : Draws} {response : PrepareResponse}
    (answer : (call.toEnd env draws.uuid (idle Db.empty)).1 = .ok response) :
    ∃ sys, Answered env call sys response ∧
      sys.connection = (call.toEnd env draws.uuid (idle Db.empty)).2 := by
  have hpost := @PrepareCall.checks_ends env call draws.uuid Db.empty
  have hupserted := (prepareChecks_settles env call.cardTypeName call.xAgentKey (some call.key) call.body
    draws.uuid Db.empty).2.1
  change Upserted Db.empty (call.checks env draws.uuid (idle Db.empty)).2.data at hupserted
  rw [PrepareCall.toEnd_eq] at answer ⊢
  unfold Ends at hpost
  cases hchecks : call.checks env draws.uuid (idle Db.empty) with
  | mk r c =>
    rw [hchecks] at answer hpost hupserted
    rcases r with e | response' | request
    · cases answer
    · obtain ⟨t, role, card, row, data, -, hfound, -⟩ := hpost _ rfl
      obtain ⟨k, -, hfind⟩ := Option.bind_eq_some_iff.mp hfound
      exact absurd (List.mem_of_find?_eq_some hfind) List.not_mem_nil
    · have handed : (call.checks env draws.uuid (Sys.initial env).connection).1 = .ok (.inr request) :=
        congrArg Prod.fst hchecks
      have hprepared := step_prepare rfl handed
      have hfresh : c.data.authorization draws.uuid = none := hupserted.authorization draws.uuid
      have hc : (call.checks env draws.uuid (Sys.initial env).connection).2 = c :=
        congrArg Prod.snd hchecks
      rw [hc] at hprepared
      obtain ⟨sys', htaken⟩ := @step_pending env c draws request hfresh
      exact ⟨sys', .sealed .start handed (.accept .start hprepared) rfl htaken answer,
        step_sealCard rfl htaken⟩

/-- The recorder's card of a proposal, prepared under one key. -/
def proposalCall (proposalId : String) : PrepareCall where
  cardTypeName := js "ProposalCard"
  xAgentKey := js "key-recorder"
  key := js "k"
  keyed := by decide +kernel
  body := [(js "signal_id", .str (js proposalId)), (js "source", .str (js "governance_feed")),
    (js "timestamp", .str (js "2026-01-01 00:00:00+00:00")), (js "title", .str (js "Rebalance")),
    (js "fingerprint", .str (js "f1"))]

def isOk {α : Type} (r : Except PyException α) (p : α → Bool) : Bool :=
  match r with
  | .ok a => p a
  | .error _ => false

theorem isOk_iff {α : Type} {r : Except PyException α} {p : α → Bool} :
    isOk r p = true ↔ ∃ a, r = .ok a ∧ p a = true := by
  cases r <;> simp [isOk]

/-- The connection behind the first card. -/
def firstSealed : Connection Db := ((proposalCall "P1").toEnd sampleEnv sampleDraws.uuid (idle Db.empty)).2

theorem retries_end :
    isOk ((proposalCall "P1").toEnd sampleEnv sampleDraws.uuid (idle Db.empty)).1 (fun first =>
        Verity.hasSealFields first.sealedCard) = true ∧
      isOk ((proposalCall "P1").toEnd sampleEnv sampleDraws.uuid firstSealed).1 (fun again =>
        !Verity.hasSealFields again.sealedCard) = true ∧
      isOk ((proposalCall "P2").toEnd sampleEnv sampleDraws.uuid firstSealed).1 (fun other =>
        Verity.hasSealFields other.sealedCard) = true ∧
      ∀ row ∈ firstSealed.data.cards, Reparses sampleEnv row := by
  unfold Reparses
  decide +kernel

theorem prepare_retried_example : ∃ (sys : Sys sampleEnv) (first : PrepareResponse)
    (card : Card sampleEnv.floats), sys.connection = firstSealed ∧
      Retried sampleEnv (proposalCall "P1") first .proposalCard card sys := by
  obtain ⟨hfirst, -, -, hparse⟩ := retries_end
  obtain ⟨first, hanswer, -⟩ := isOk_iff.mp hfirst
  obtain ⟨sys, hanswered, hconnection⟩ := Answered.first hanswer
  obtain ⟨t, role, card, hvalid, hretried⟩ :=
    prepare_retried hanswered (by rw [Sys.db, hconnection]; exact hparse) .start
  have ht : CardType.ofColumn (js "ProposalCard") = some .proposalCard :=
    CardType.ofColumn_column .proposalCard
  obtain rfl := Option.some.inj (ht.symm.trans hvalid.known)
  exact ⟨sys, first, card, hconnection, hretried⟩

/-- The card of a retry has no seal fields, where the first one had them; and the key of one
proposal seals a card of another. -/
theorem retried_card_unsealed : ∃ (sys : Sys sampleEnv) (first again other : PrepareResponse),
    Answered sampleEnv (proposalCall "P1") sys first ∧ Verity.hasSealFields first.sealedCard = true ∧
      ((proposalCall "P1").toEnd sampleEnv sampleDraws.uuid sys.connection).1 = .ok again ∧
      Verity.hasSealFields again.sealedCard = false ∧
      (proposalCall "P2").key = (proposalCall "P1").key ∧
      ((proposalCall "P2").toEnd sampleEnv sampleDraws.uuid sys.connection).1 = .ok other := by
  obtain ⟨hfirst, hagain, hother, -⟩ := retries_end
  obtain ⟨first, hanswer, hsealed⟩ := isOk_iff.mp hfirst
  obtain ⟨again, hretry, hunsealed⟩ := isOk_iff.mp hagain
  obtain ⟨other, hanother, -⟩ := isOk_iff.mp hother
  obtain ⟨sys, hanswered, hconnection⟩ := Answered.first hanswer
  refine ⟨sys, first, again, other, hanswered, hsealed, ?_, by simpa using hunsealed, rfl, ?_⟩
  · rw [hconnection]
    exact hretry
  · rw [hconnection]
    exact hanother

end Sample
end Concordia.Gateway
