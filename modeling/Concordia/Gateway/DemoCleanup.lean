import Concordia.Gateway.Database

/-! The cleanup of demo proposals: which proposals are taken for synthetic ones, and what becomes of
the rows that refer to them. -/
namespace Concordia.Gateway.DemoCleanup
open Concordia.Python Concordia.Lib.Transactions Concordia.Lib.Transactions.Program
open Concordia.Js hiding Value

/-- A row, by the column that refers to a proposal and its other columns. -/
structure Row where
  proposalId : Option Str
  columns : Dict

structure SignalRow extends Row where
  signalId : Str

/-- The whole database. The reference of a suppression rule is its `source_proposal_id`, that of a
proposal its own key. -/
structure Db where
  suppressionRules : List Row
  authorizations : List Row
  nonces : List Row
  roomMessages : List Row
  rooms : List Row
  cards : List Row
  signals : List SignalRow
  proposals : List Row
  participants : List Dict
  heartbeats : List Dict

abbrev Sql (α : Type) := Program Db PyException α

section Selection

def lowerAscii (u : UInt16) : UInt16 := if 0x41 ≤ u && u ≤ 0x5a then u + 0x20 else u

/-- `proposal_id LIKE 'DAO-PROP-%'`, which ignores the case of ASCII letters. -/
def isDemo (proposalId : Str) : Bool :=
  ((js "DAO-PROP-").map lowerAscii).isPrefixOf (proposalId.map lowerAscii)

/-- `_demo_proposal_ids`. -/
def demoProposalIds (db : Db) : List Str :=
  db.proposals.filterMap fun row => row.proposalId.filter isDemo

/-- `column IN (ids)`. -/
def refersTo (ids : List Str) (row : Row) : Bool := row.proposalId.any ids.contains

def detached (ids : List Str) (row : Row) : Row :=
  if refersTo ids row then { row with proposalId := none } else row

end Selection

section Statements
-- The failure of the statement with this number, when it fails: a lock, a full disk, too many
-- variables.
variable (faults : Nat → Option PyException)

def statement {α : Type} (n : Nat) (run : Sql α) : Sql α :=
  match faults n with
  | some failure => raise failure
  | none => run

/-- A table, by its rows and the database with other rows in it. -/
structure Table (α : Type) where
  rows : Db → List α
  put : List α → Db → Db

def suppressionRules : Table Row where
  rows := Db.suppressionRules
  put rows db := { db with suppressionRules := rows }

def authorizations : Table Row where
  rows := Db.authorizations
  put rows db := { db with authorizations := rows }

def nonces : Table Row where
  rows := Db.nonces
  put rows db := { db with nonces := rows }

def roomMessages : Table Row where
  rows := Db.roomMessages
  put rows db := { db with roomMessages := rows }

def rooms : Table Row where
  rows := Db.rooms
  put rows db := { db with rooms := rows }

def cards : Table Row where
  rows := Db.cards
  put rows db := { db with cards := rows }

def signals : Table SignalRow where
  rows := Db.signals
  put rows db := { db with signals := rows }


/-- `_delete_for_proposals`. -/
def deleteForProposals {α : Type} (n : Nat) (table : Table α) (refers : α → Bool) (ids : List Str) :
    Sql Nat :=
  if ids.isEmpty then return 0
  else statement faults n <| update fun db =>
    ((table.rows db).countP refers, table.put ((table.rows db).filter fun row => !refers row) db)

/-- `_detach_for_proposals`. -/
def detachForProposals (n : Nat) (table : Table Row) (ids : List Str) : Sql Nat :=
  if ids.isEmpty then return 0
  else statement faults n <| update fun db =>
    ((table.rows db).countP (refersTo ids), table.put ((table.rows db).map (detached ids)) db)

/-- `DELETE FROM proposals`, under the foreign keys of cards, rooms and room messages. -/
def deleteProposals (n : Nat) (ids : List Str) : Sql Nat :=
  if ids.isEmpty then return 0
  else statement faults n do
    let count ← select fun db => db.proposals.countP (refersTo ids)
    execute fun db =>
      if (db.cards ++ db.rooms ++ db.roomMessages).any (refersTo ids) then none
      else some { db with proposals := db.proposals.filter fun row => !refersTo ids row }
    return count

/-- The counts of `deleted`, by their keys. -/
abbrev Counts := List (String × Nat)

/-- The `try` block. -/
def removeRows (ids : List Str) : Sql Counts := do
  statement faults 1 begin
  let rules ← deleteForProposals faults 2 suppressionRules (refersTo ids) ids
  let granted ← deleteForProposals faults 3 authorizations (refersTo ids) ids
  let issued ← deleteForProposals faults 4 nonces (refersTo ids) ids
  let messages ← detachForProposals faults 5 roomMessages ids
  let chambers ← detachForProposals faults 6 rooms ids
  let sealed ← deleteForProposals faults 7 cards (refersTo ids) ids
  let correlated ← deleteForProposals faults 8 signals (fun row => refersTo ids row.toRow) ids
  let raw ← deleteForProposals faults 9 signals (fun row => ids.contains row.signalId) ids
  let proposals ← deleteProposals faults 10 ids
  statement faults 11 commit
  return [("suppression_rules", rules), ("authorizations", granted), ("nonces", issued),
    ("proposal_room_messages_detached", messages), ("proposal_rooms_detached", chambers),
    ("cards", sealed), ("signals", correlated + raw), ("proposals", proposals)]

structure CleanupResult where
  cleanedProposals : Nat
  deletedRecords : Counts
  roomsPreserved : Nat
  deriving DecidableEq

def removeDemoProposals : Sql CleanupResult := do
  let ids ← statement faults 0 (select demoProposalIds)
  if ids.isEmpty then return ⟨0, [], 0⟩
  else do
    let deleted ← attempt (removeRows faults ids) fun failure => do
      rollback
      raise failure
    return ⟨ids.length, deleted, ids.length⟩

end Statements

section Cleanup
variable {faults : Nat → Option PyException} {c : Connection Db}

/-- The database without the rows of the proposals, the chambers detached from them. -/
def cleaned (ids : List Str) (db : Db) : Db where
  suppressionRules := db.suppressionRules.filter fun row => !refersTo ids row
  authorizations := db.authorizations.filter fun row => !refersTo ids row
  nonces := db.nonces.filter fun row => !refersTo ids row
  roomMessages := db.roomMessages.map (detached ids)
  rooms := db.rooms.map (detached ids)
  cards := db.cards.filter fun row => !refersTo ids row
  signals := db.signals.filter fun row => !refersTo ids row.toRow && !ids.contains row.signalId
  proposals := db.proposals.filter fun row => !refersTo ids row
  participants := db.participants
  heartbeats := db.heartbeats

/-- A statement fails as it does, or runs. -/
theorem ends_statement_bind {α β : Type} {n : Nat} {run : Sql α} {f : α → Sql β}
    {Q : Except PyException β → Connection Db → Prop}
    (hrun : Ends (run >>= f) c Q) (hfails : ∀ failure, (∃ n, faults n ≠ none) → Q (.error failure) c) :
    Ends (statement faults n run >>= f) c Q := by
  unfold statement
  cases hfault : faults n with
  | some failure => exact hfails failure ⟨n, by simp [hfault]⟩
  | none => exact hrun

theorem ends_deleteFor_bind {α β : Type} {n : Nat} {table : Table α} {refers : α → Bool}
    {ids : List Str} {f : Nat → Sql β} {Q : Except PyException β → Connection Db → Prop}
    (hids : ids ≠ [])
    (hrun : ∀ count, Ends (f count)
      ⟨table.put ((table.rows c.data).filter fun row => !refers row) c.data, c.saved⟩ Q)
    (hfails : ∀ failure, (∃ n, faults n ≠ none) → Q (.error failure) c) :
    Ends (deleteForProposals faults n table refers ids >>= f) c Q := by
  have hne : ids.isEmpty = false := List.isEmpty_eq_false_iff.mpr hids
  rw [deleteForProposals, hne]
  exact ends_statement_bind (hrun _) hfails

theorem ends_detachFor_bind {β : Type} {n : Nat} {table : Table Row} {ids : List Str}
    {f : Nat → Sql β} {Q : Except PyException β → Connection Db → Prop} (hids : ids ≠ [])
    (hrun : ∀ count, Ends (f count)
      ⟨table.put ((table.rows c.data).map (detached ids)) c.data, c.saved⟩ Q)
    (hfails : ∀ failure, (∃ n, faults n ≠ none) → Q (.error failure) c) :
    Ends (detachForProposals faults n table ids >>= f) c Q := by
  have hne : ids.isEmpty = false := List.isEmpty_eq_false_iff.mpr hids
  rw [detachForProposals, hne]
  exact ends_statement_bind (hrun _) hfails

theorem refersTo_detached (ids : List Str) (row : Row) : refersTo ids (detached ids row) = false := by
  unfold detached
  split
  · rfl
  · rename_i h
    exact Bool.eq_false_iff.mpr h

/-- No child of the removed proposals is left when they are deleted. -/
theorem no_children (ids : List Str) (cards rooms messages : List Row) :
    ((cards.filter fun row => !refersTo ids row) ++ rooms.map (detached ids) ++
      messages.map (detached ids)).any (refersTo ids) = false := by
  rw [List.any_eq_false]
  intro row hmem
  rw [List.mem_append, List.mem_append, List.mem_filter, List.mem_map, List.mem_map] at hmem
  rcases hmem with (⟨-, hrow⟩ | ⟨other, -, rfl⟩) | ⟨other, -, rfl⟩
  · simpa using hrow
  · simp [refersTo_detached]
  · simp [refersTo_detached]

/-- The block ends with all the rows removed, or within its transaction, or before it. -/
theorem removeRows_ends {ids : List Str} (hids : ids ≠ []) (db : Db) :
    Ends (removeRows faults ids) (idle db) fun result c =>
      match result with
      | .ok _ => c = idle (cleaned ids db)
      | .error _ => (c = idle db ∨ c.saved = some db) ∧ ∃ n, faults n ≠ none := by
  unfold removeRows
  apply ends_statement_bind _ fun _ hfault => ⟨.inl rfl, hfault⟩
  rw [ends_begin_bind]
  apply ends_deleteFor_bind hids _ fun _ hfault => ⟨.inr rfl, hfault⟩
  intro rules
  apply ends_deleteFor_bind hids _ fun _ hfault => ⟨.inr rfl, hfault⟩
  intro granted
  apply ends_deleteFor_bind hids _ fun _ hfault => ⟨.inr rfl, hfault⟩
  intro issued
  apply ends_detachFor_bind hids _ fun _ hfault => ⟨.inr rfl, hfault⟩
  intro messages
  apply ends_detachFor_bind hids _ fun _ hfault => ⟨.inr rfl, hfault⟩
  intro chambers
  apply ends_deleteFor_bind hids _ fun _ hfault => ⟨.inr rfl, hfault⟩
  intro sealed
  apply ends_deleteFor_bind hids _ fun _ hfault => ⟨.inr rfl, hfault⟩
  intro correlated
  apply ends_deleteFor_bind hids _ fun _ hfault => ⟨.inr rfl, hfault⟩
  intro raw
  have hne : ids.isEmpty = false := List.isEmpty_eq_false_iff.mpr hids
  rw [deleteProposals, hne]
  apply ends_statement_bind _ fun _ hfault => ⟨.inr rfl, hfault⟩
  rw [ends_bind_assoc, ends_select_bind, ends_bind_assoc, ends_execute_bind]
  have hfree := no_children ids db.cards db.rooms db.roomMessages
  refine ⟨fun after hafter => ?_, fun hnone => ?_⟩
  · rw [if_neg (by simpa [cards, rooms, roomMessages, suppressionRules, authorizations, nonces,
      signals] using hfree)] at hafter
    cases hafter
    rw [ends_pure_bind]
    apply ends_statement_bind _ fun _ hfault => ⟨.inr rfl, hfault⟩
    rw [ends_commit_bind, ends_pure]
    simp [cleaned, cards, rooms, roomMessages, suppressionRules, authorizations, nonces, signals,
      List.filter_filter, Bool.and_comm]
  · rw [if_neg (by simpa [cards, rooms, roomMessages, suppressionRules, authorizations, nonces,
      signals] using hfree)] at hnone
    cases hnone

theorem cleaned_nil (db : Db) : cleaned [] db = db := by
  have hrefers (row : Row) : refersTo [] row = false := by
    cases hrow : row.proposalId <;> simp [refersTo, hrow]
  have hdetached : detached [] = id := by
    funext row
    simp [detached, hrefers]
  simp [cleaned, hrefers, hdetached]

/-- The cleanup ends with the rows of the demo proposals removed, or with nothing changed. -/
theorem removeDemoProposals_ends (db : Db) :
    Settles (removeDemoProposals faults) db fun result after =>
      match result with
      | .ok report => after = cleaned (demoProposalIds db) db ∧
          report.cleanedProposals = (demoProposalIds db).length
      | .error _ => after = db ∧ ∃ n, faults n ≠ none := by
  unfold removeDemoProposals Settles
  apply ends_statement_bind _ fun _ hfault => ⟨rfl, rfl, hfault⟩
  rw [ends_select_bind, idle_data]
  by_cases hids : demoProposalIds db = []
  · simp [hids, cleaned_nil]
  · have hne : (demoProposalIds db).isEmpty = false := List.isEmpty_eq_false_iff.mpr hids
    rw [hne, if_neg Bool.false_ne_true, ends_attempt_bind]
    apply Ends.mono (removeRows_ends hids db)
    intro result c hresult
    cases result with
    | ok counts =>
      obtain rfl := hresult
      exact ⟨rfl, rfl, rfl⟩
    | error failure =>
      obtain ⟨hconnection, hfault⟩ := hresult
      obtain ⟨data, saved⟩ := c
      rcases hconnection with heq | heq
      · cases heq
        exact ⟨rfl, rfl, hfault⟩
      · obtain rfl : saved = some db := heq
        exact ⟨rfl, rfl, hfault⟩

/-- Of the proposals, the ones with an id that looks like a demo are meant. -/
theorem refersTo_demo {db : Db} {row : Row} (h : row ∈ db.proposals) :
    refersTo (demoProposalIds db) row = row.proposalId.any isDemo := by
  cases hid : row.proposalId with
  | none => simp [refersTo, hid]
  | some proposalId =>
    have hmem : proposalId ∈ demoProposalIds db ↔ isDemo proposalId = true := by
      simp only [demoProposalIds, List.mem_filterMap, Option.filter_eq_some_iff]
      constructor
      · rintro ⟨other, -, -, hdemo⟩
        exact hdemo
      · intro hdemo
        exact ⟨row, h, hid, hdemo⟩
    rw [refersTo, hid, Option.any_some, Option.any_some, Bool.eq_iff_iff, List.contains_iff_mem]
    exact hmem

/-- What a cleanup leaves: no row of a demo proposal but its chamber and the messages in it, which
refer to no proposal any more, and every other row as it was. -/
structure Frame (db after : Db) : Prop where
  proposals : after.proposals = db.proposals.filter fun row => !row.proposalId.any isDemo
  suppressionRules : after.suppressionRules =
    db.suppressionRules.filter fun row => !refersTo (demoProposalIds db) row
  authorizations : after.authorizations =
    db.authorizations.filter fun row => !refersTo (demoProposalIds db) row
  nonces : after.nonces = db.nonces.filter fun row => !refersTo (demoProposalIds db) row
  cards : after.cards = db.cards.filter fun row => !refersTo (demoProposalIds db) row
  signals : after.signals = db.signals.filter fun row =>
    !refersTo (demoProposalIds db) row.toRow && !(demoProposalIds db).contains row.signalId
  rooms : after.rooms = db.rooms.map (detached (demoProposalIds db))
  roomMessages : after.roomMessages = db.roomMessages.map (detached (demoProposalIds db))
  participants : after.participants = db.participants
  heartbeats : after.heartbeats = db.heartbeats
  unreferenced : ∀ row ∈ after.proposals ++ after.suppressionRules ++ after.authorizations ++
    after.nonces ++ after.cards ++ after.signals.map SignalRow.toRow ++ after.rooms ++
    after.roomMessages, refersTo (demoProposalIds db) row = false

theorem frame_cleaned (db : Db) : Frame db (cleaned (demoProposalIds db) db) where
  proposals := by
    apply List.filter_congr
    intro row hmem
    rw [refersTo_demo hmem]
  suppressionRules := rfl
  authorizations := rfl
  nonces := rfl
  cards := rfl
  signals := rfl
  rooms := rfl
  roomMessages := rfl
  participants := rfl
  heartbeats := rfl
  unreferenced := by
    intro row hmem
    simp only [cleaned, List.mem_append, List.mem_filter, List.mem_map, Bool.and_eq_true,
      Bool.not_eq_true'] at hmem
    rcases hmem with ((((((h | h) | h) | h) | h) | ⟨signal, h, rfl⟩) | ⟨other, -, rfl⟩) | ⟨other, -, rfl⟩
    all_goals first
      | exact h.2
      | exact h.2.1
      | exact refersTo_detached _ _

end Cleanup

section Canonical

def canonicalProposalId : Str := js "DAO-PROP-6CB25C"

def canonicalRow : Row := ⟨some canonicalProposalId, []⟩

/-- The canonical proposal, and its chamber. -/
def canonicalDb : Db := ⟨[], [], [], [], [canonicalRow], [], [], [canonicalRow], [], []⟩

end Canonical
end Concordia.Gateway.DemoCleanup
