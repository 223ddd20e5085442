import Concordia.Gateway.Database

/-! The integrity chain: cards are linked and hashed when they are sealed, and the chain of a
proposal can be verified from the stored texts. -/
namespace Concordia.Gateway
open Concordia.Python Concordia.Lib.Transactions Concordia.Lib.Transactions.Program
open Concordia.Js hiding Value

/-- A value that is a string or `None`. -/
def optStr : Option Str → Value
  | some s => .str s
  | none => .none

def isOptStr (value : Value) (expected : Option Str) : Bool :=
  match value, expected with
  | .none, none => true
  | .str s, some t => s == t
  | _, _ => false

theorem isOptStr_iff {value : Value} {expected : Option Str} :
    isOptStr value expected = true ↔ value = optStr expected := by
  cases value <;> cases expected <;> simp [isOptStr, optStr]

section Dictionaries

theorem get_set_other {d : Dict} {key : Str} {v : Value} {name : String} (h : js name ≠ key) :
    (d.set key v).get name = d.get name := by
  induction d with
  | nil => simp [Dict.set, Dict.get, List.lookup_cons, beq_eq_false_iff_ne.mpr h]
  | cons item d ih =>
    obtain ⟨k, w⟩ := item
    simp only [Dict.get] at ih ⊢
    rw [Dict.set]
    split
    · rename_i heq
      have hk : js name ≠ k := fun hname => h (hname.trans heq)
      simp [List.lookup_cons, beq_eq_false_iff_ne.mpr h, beq_eq_false_iff_ne.mpr hk]
    · rw [List.lookup_cons, List.lookup_cons]
      split
      · rfl
      · exact ih

theorem get_set_self (d : Dict) (name : String) (v : Value) : (d.set (js name) v).get name = v := by
  induction d with
  | nil => simp [Dict.set, Dict.get]
  | cons item d ih =>
    simp only [Dict.get] at ih ⊢
    rw [Dict.set]
    split
    · simp
    · rename_i hne
      rw [List.lookup_cons, beq_eq_false_iff_ne.mpr (Ne.symm hne)]
      exact ih

end Dictionaries

variable (env : Env)

/-- The chain fields that `seal_card` assigns. -/
def Card.linked {floats : FloatFormat} (card : Card floats) (sequenceNumber : Int)
    (previousCardHash : Option Str) : Card floats where
  cardType := card.cardType
  dump := (card.dump.set (js "sequence_number") (.int sequenceNumber)).set
    (js "previous_card_hash") (optStr previousCardHash)
  wellFormed := wellFormed_set (wellFormed_set card.wellFormed (by simp [WellFormed]) _)
    (by cases previousCardHash <;> simp [WellFormed, optStr]) _
  typed := by
    rw [get_set_other (by decide +kernel), get_set_other (by decide +kernel), card.typed]

/-- `card.key = value`, for another field than the type. -/
def Card.assign {floats : FloatFormat} (card : Card floats) (key : String) (value : Value)
    (hvalue : WellFormed floats value) (hkey : js "card_type" ≠ js key) : Card floats where
  cardType := card.cardType
  dump := card.dump.set (js key) value
  wellFormed := wellFormed_set card.wellFormed hvalue _
  typed := by rw [get_set_other hkey, card.typed]

/-- `_CHAIN_FIELDS`. -/
def chainFields : List String := ["card_hash", "sequence_number", "previous_card_hash"]

def requestFingerprint (cardData : Dict) : Str :=
  hashValue env (.dict (cardData.filter fun item => !chainFields.any fun f => js f == item.1))

/-- `parse_card`; `none` is an exception. -/
def parseCard (cardJson : Str) : Option (Card env.floats) :=
  match loads env.floats cardJson with
  | some (.dict data) =>
    match Dict.get data "card_type" with
    | .str t => (CardType.ofColumn t).bind fun cardType => env.modelValidate cardType data
    | _ => none
  | _ => none

/-- `json.dumps(card.model_dump(exclude={"card_hash"}), sort_keys=True, default=str)`. -/
def Card.canonical {floats : FloatFormat} (card : Card floats) : Str := dumpsSorted (.dict card.dump)

/-- `compute_hash`. -/
def Card.computeHash (card : Card env.floats) : Str := hexdigest env card.canonical

/-- A card with its `card_hash`. -/
structure Sealed (floats : FloatFormat) where
  card : Card floats
  cardHash : Str

section Seal
variable (card : Card env.floats) (proposalId : Str) (idempotencyKey : Option Str)
  (preparedByRole : Option Role) (requestFp : Option Str)

/-- The row that an idempotent retry finds. -/
def sealedBefore (db : Db) : Option CardRow :=
  (truthy idempotencyKey).bind fun key => db.cards.find? fun r =>
    r.proposalId == proposalId && r.idempotencyKey == some key &&
      r.cardType == card.cardType.column

/-- `request_fp or request_fingerprint(card.model_dump())`. -/
def payloadFingerprint : Str := (truthy requestFp).getD (requestFingerprint env card.dump)

/-- The fingerprint of a stored row; `none` is a failed parse. -/
def storedFingerprint (existing : CardRow) : Option Str :=
  match truthy existing.requestFp with
  | some fp => some fp
  | none =>
    match loads env.floats existing.cardJson with
    | some (.dict stored) => some (requestFingerprint env stored)
    | _ => none

def keyConflict (differs : String) : PyException :=
  .idempotencyConflict (js "Idempotency key " ++ env.repr (idempotencyKey.getD []) ++ js differs)

/-- What a retry is answered with. -/
def replaySealed (existing : CardRow) : Sql (Sealed env.floats) := do
  match storedFingerprint env existing with
  | none => raise .other
  | some stored =>
    if stored ≠ payloadFingerprint env card requestFp then
      raise (keyConflict env idempotencyKey
        s!" already used with a different payload for {card.cardType.name}")
    else
      match parseCard env existing.cardJson with
      | some stored => return ⟨stored, existing.cardHash⟩
      | none => raise .other

/-- The card behind the last one of the proposal. -/
def nextSealed (db : Db) : Sealed env.floats :=
  let linked := match Db.lastBySequence (db.cardsOf proposalId) with
    | some prev => card.linked (prev.sequenceNumber + 1) (some prev.cardHash)
    | none => card.linked 1 none
  ⟨linked, linked.computeHash env⟩

/-- The row that sealing inserts. -/
def nextRow (db : Db) : CardRow where
  proposalId := proposalId
  sequenceNumber := match Db.lastBySequence (db.cardsOf proposalId) with
    | some prev => prev.sequenceNumber + 1
    | none => 1
  cardType := card.cardType.column
  cardHash := (nextSealed env card proposalId db).cardHash
  cardJson := (nextSealed env card proposalId db).card.canonical
  idempotencyKey := idempotencyKey
  preparedByRole := preparedByRole
  requestFp := some (payloadFingerprint env card requestFp)
  publishedAt := none
  roomMessageId := none

def otherCardType : PyException :=
  .idempotencyConflict (js "Idempotency key " ++ env.repr (idempotencyKey.getD []) ++
    js " already used for a different card type on proposal " ++ env.repr proposalId)

/-- `seal_card`. -/
def sealCard : Sql (Sealed env.floats) := do
  begin
  attempt (do
    match ← select (sealedBefore env card proposalId idempotencyKey) with
    | some existing =>
      rollback
      replaySealed env card idempotencyKey requestFp existing
    | none =>
      let row ← select (nextRow env card proposalId idempotencyKey preparedByRole requestFp)
      let result ← select (nextSealed env card proposalId)
      execute (Db.insertCard row)
      commit
      return result)
    fun e => match e with
      | .idempotencyConflict message => raise (.idempotencyConflict message)
      | .integrityError => do
        attempt rollback fun _ => pure ()
        raise (otherCardType env proposalId idempotencyKey)
      | e => do
        rollback
        raise e

/-- `seal_card_in_transaction`: the transaction is the caller's. -/
def sealCardInTransaction : Sql (Sealed env.floats) := do
  match ← select (sealedBefore env card proposalId idempotencyKey) with
  | some existing => replaySealed env card idempotencyKey requestFp existing
  | none =>
    let row ← select (nextRow env card proposalId idempotencyKey preparedByRole requestFp)
    let result ← select (nextSealed env card proposalId)
    attempt (execute (Db.insertCard row)) fun e => match e with
      | .integrityError => raise (otherCardType env proposalId idempotencyKey)
      | e => raise e
    return result

end Seal

section Verify

def noneText (s : Option Str) : Str := s.getD (js "None")

def intText (n : Int) : Str := dumpsInt n

/-- The errors of one row of `verify_chain`, behind the row whose hash is `prevHash`. -/
def rowErrors (expectedSeq : Nat) (prevHash : Option Str) (row : CardRow)
    (card : Card env.floats) : List Str :=
  let seq := intText row.sequenceNumber
  let previous := card.dump.get "previous_card_hash"
  let recomputed := card.computeHash env
  (if row.sequenceNumber ≠ expectedSeq then
    [js "Sequence gap: expected " ++ decimal expectedSeq ++ js ", got " ++ seq] else []) ++
  (if !isOptStr previous prevHash then
    [js "Card " ++ seq ++ js ": previous_card_hash mismatch. Expected " ++ noneText prevHash ++
      js ", got " ++ (match previous with | .str s => s | _ => js "None")] else []) ++
  (if recomputed ≠ row.cardHash then
    [js "Card " ++ seq ++ js ": hash mismatch. Stored " ++ row.cardHash.take 16 ++
      js "..., recomputed " ++ recomputed.take 16 ++ js "..."] else [])

/-- The loop of `verify_chain`; `none` is an exception of `parse_card`. -/
def chainErrors : Nat → Option Str → List CardRow → Option (List Str)
  | _, _, [] => some []
  | i, prevHash, row :: rows => do
    let card ← parseCard env row.cardJson
    let rest ← chainErrors (i + 1) (some row.cardHash) rows
    return rowErrors env (i + 1) prevHash row card ++ rest

/-- `verify_chain`, over the rows in their order. -/
def verifyRows (rows : List CardRow) : Option (Bool × List Str) :=
  (chainErrors env 0 none rows).map fun errors => (errors.isEmpty, errors)

def verifyChain (proposalId : Str) (db : Db) : Option (Bool × List Str) :=
  verifyRows env (db.chainOf proposalId)

end Verify
end Concordia.Gateway
