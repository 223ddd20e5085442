import Concordia.Lib.Cursor
import Concordia.Gateway.Database

/-! The Council Chamber tables as the room routes list them: rooms with the moment they were last
written, participants, and messages under their `AUTOINCREMENT` key. -/
namespace Concordia.Gateway
open Concordia.Python Concordia.Lib
open Concordia.Js hiding Value

structure ChamberRow extends RoomRow where
  updatedAt : Nat
  deriving DecidableEq

structure SequencedMessage extends MessageRow where
  id : Nat
  deriving DecidableEq

/-- `lastId` is the entry of `sqlite_sequence` for the messages. -/
structure Chambers where
  rooms : List ChamberRow
  participants : List (Str × Str)
  messages : List SequencedMessage
  lastId : Nat
  deriving DecidableEq

/-- `limit = max(1, min(limit, 500))`, in both listings. -/
def clampLimit (limit : Int) : Nat := (max 1 (min limit 500)).toNat

theorem clampLimit_pos (limit : Int) : 0 < clampLimit limit := by
  unfold clampLimit
  omega

namespace Chambers

def empty : Chambers where
  rooms := []
  participants := []
  messages := []
  lastId := 0

/-- `INSERT INTO proposal_rooms`; nothing writes `updated_at` again. -/
def createRoom (db : Chambers) (uuid : Str) (proposalId : Option Str) (now : Nat) : Option Chambers :=
  let roomId := js "room-" ++ uuid
  if db.rooms.any fun r => r.roomId == roomId || (r.proposalId.isSome && r.proposalId == proposalId)
  then none
  else some { db with rooms := db.rooms ++ [⟨⟨roomId, proposalId⟩, now⟩] }

/-- `store_room_participant`; a known participant keeps its row. -/
def storeRoomParticipant (db : Chambers) (roomId participantId : Str) : Option Chambers :=
  if db.rooms.any fun r => r.roomId == roomId then
    if (roomId, participantId) ∈ db.participants then some db
    else some { db with participants := db.participants ++ [(roomId, participantId)] }
  else none

/-- `store_room_message`: only the messages change. -/
def storeRoomMessage (db : Chambers) (row : MessageRow) : Option Chambers :=
  if db.rooms.any fun r => r.roomId == row.roomId then
    if db.messages.any fun m => m.messageId == row.messageId then none
    else some { db with messages := db.messages ++ [⟨row, db.lastId + 1⟩], lastId := db.lastId + 1 }
  else none

/-- `list_messages`. -/
def listMessages (db : Chambers) (roomId : Str) (afterId : Nat) (limit : Int) :
    List SequencedMessage :=
  ((db.messages.filter fun m => m.roomId == roomId && afterId < m.id).mergeSort
    fun a b => a.id ≤ b.id).take (clampLimit limit)

/-- `COALESCE(MAX(m.id), 0)`. -/
def lastSequence (db : Chambers) (roomId : Str) : Nat :=
  ((db.messages.filter fun m => m.roomId == roomId).map (·.id)).foldl max 0

/-- The rooms a `participant_id` narrows the query to; without one it is every room. -/
def roomsOf (db : Chambers) (participantId : Option Str) : List ChamberRow :=
  match truthy participantId with
  | some p => db.rooms.filter fun r => (r.roomId, p) ∈ db.participants
  | none => db.rooms

/-- The order in which the engine meets the grouped rows, which decides between equal keys. -/
structure QueryPlan where
  rows : List ChamberRow → List ChamberRow
  perm : ∀ l, (rows l).Perm l

/-- `ORDER BY r.updated_at DESC`, of the rows a plan yields. -/
def byUpdatedAt (plan : QueryPlan) (rooms : List ChamberRow) : List ChamberRow :=
  (plan.rows rooms).mergeSort fun a b => b.updatedAt ≤ a.updatedAt

/-- `list_rooms`, without the filter on the proposal's state. -/
def listRooms (plan : QueryPlan) (db : Chambers) (participantId : Option Str) (limit : Int) :
    List (ChamberRow × Nat) :=
  ((byUpdatedAt plan (db.roomsOf participantId)).take (clampLimit limit)).map
    fun r => (r, db.lastSequence r.roomId)

/-- The messages of one room, oldest first. -/
def messagesIn (db : Chambers) (roomId : Str) : List SequencedMessage :=
  db.messages.filter fun m => m.roomId == roomId

/-- What the constraints of the tables keep. -/
structure Ordered (db : Chambers) : Prop where
  increasing : Cursor.Increasing SequencedMessage.id db.messages
  bounded : ∀ m ∈ db.messages, 0 < m.id ∧ m.id ≤ db.lastId
  keyed : (db.rooms.map fun r => r.roomId).Nodup
  named : ∀ r ∈ db.rooms, r.roomId ≠ []

section Operations
variable {db after : Chambers}

theorem createRoom_eq {uuid : Str} {proposalId : Option Str} {now : Nat}
    (h : db.createRoom uuid proposalId now = some after) :
    (∀ r ∈ db.rooms, r.roomId ≠ js "room-" ++ uuid) ∧
      after = { db with rooms := db.rooms ++ [⟨⟨js "room-" ++ uuid, proposalId⟩, now⟩] } := by
  unfold createRoom at h
  dsimp only at h
  split at h
  case isTrue => contradiction
  case isFalse hfree =>
    refine ⟨?_, (Option.some.inj h).symm⟩
    intro r hr heq
    apply hfree
    exact List.any_eq_true.mpr ⟨r, hr, by simp [heq]⟩

theorem storeRoomParticipant_eq {roomId participantId : Str}
    (h : db.storeRoomParticipant roomId participantId = some after) :
    ∃ joined, after = { db with participants := joined } := by
  unfold storeRoomParticipant at h
  split at h
  case isFalse => contradiction
  case isTrue =>
    split at h
    case isTrue => exact ⟨_, (Option.some.inj h).symm⟩
    case isFalse => exact ⟨_, (Option.some.inj h).symm⟩

theorem storeRoomMessage_eq {row : MessageRow} (h : db.storeRoomMessage row = some after) :
    after = { db with
      messages := db.messages ++ [⟨row, db.lastId + 1⟩], lastId := db.lastId + 1 } := by
  unfold storeRoomMessage at h
  split at h
  case isFalse => contradiction
  case isTrue =>
    split at h
    case isTrue => contradiction
    case isFalse => exact (Option.some.inj h).symm

theorem messagesIn_store {row : MessageRow} (h : db.storeRoomMessage row = some after)
    (roomId : Str) : after.messagesIn roomId =
      if row.roomId = roomId then db.messagesIn roomId ++ [⟨row, db.lastId + 1⟩]
      else db.messagesIn roomId := by
  obtain rfl := storeRoomMessage_eq h
  by_cases heq : row.roomId = roomId
  · simp [messagesIn, List.filter_append, heq]
  · simp [messagesIn, List.filter_append, heq]

theorem Ordered.createRoom {uuid : Str} {proposalId : Option Str} {now : Nat} (hdb : db.Ordered)
    (h : db.createRoom uuid proposalId now = some after) : after.Ordered := by
  obtain ⟨hfree, rfl⟩ := createRoom_eq h
  constructor
  · exact hdb.increasing
  · exact hdb.bounded
  · simp only [List.map_append, List.map_cons, List.map_nil]
    apply List.nodup_append.mpr
    refine ⟨hdb.keyed, List.nodup_singleton _, ?_⟩
    intro x hx y hy
    obtain ⟨r, hr, rfl⟩ := List.mem_map.mp hx
    rw [List.mem_singleton.mp hy]
    exact hfree r hr
  · intro r hr
    rcases List.mem_append.mp hr with hold | hnew
    · exact hdb.named r hold
    · rw [List.mem_singleton.mp hnew]
      simp [js, codeUnits]

theorem Ordered.storeRoomMessage {row : MessageRow} (hdb : db.Ordered)
    (h : db.storeRoomMessage row = some after) : after.Ordered := by
  obtain rfl := storeRoomMessage_eq h
  constructor
  · apply hdb.increasing.concat
    intro m hm
    have := (hdb.bounded m hm).2
    simp only
    omega
  · intro m hm
    rcases List.mem_append.mp hm with hold | hnew
    · have := hdb.bounded m hold
      simp only
      omega
    · rw [List.mem_singleton.mp hnew]
      simp
  · exact hdb.keyed
  · exact hdb.named

theorem Ordered.messagesIn (hdb : db.Ordered) (roomId : Str) :
    Cursor.Increasing SequencedMessage.id (db.messagesIn roomId) := hdb.increasing.filter _

/-- A page of `list_messages` begins the unread messages of its room. -/
theorem listMessages_eq (hdb : db.Ordered) (roomId : Str) (afterId : Nat) (limit : Int) :
    db.listMessages roomId afterId limit =
      (Cursor.unread SequencedMessage.id afterId (db.messagesIn roomId)).take (clampLimit limit) := by
  have hfilter : (db.messages.filter fun m => m.roomId == roomId && afterId < m.id) =
      Cursor.unread SequencedMessage.id afterId (db.messagesIn roomId) := by
    unfold Cursor.unread Chambers.messagesIn
    rw [List.filter_filter]
    congr 1
    funext m
    exact Bool.and_comm _ _
  unfold listMessages
  rw [hfilter, List.mergeSort_of_pairwise]
  apply ((hdb.messagesIn roomId).filter _).imp
  intro a b hab
  simpa using hab.le

end Operations

/-- The rooms that `ORDER BY` may place before `room`. -/
def rivals (rooms : List ChamberRow) (room : ChamberRow) : List ChamberRow :=
  rooms.filter fun r => r != room && room.updatedAt ≤ r.updatedAt

variable {rooms : List ChamberRow} {room : ChamberRow} {n : Nat}

theorem byUpdatedAt_perm (plan : QueryPlan) (rooms : List ChamberRow) :
    (byUpdatedAt plan rooms).Perm rooms :=
  (List.mergeSort_perm _ _).trans (plan.perm rooms)

theorem byUpdatedAt_sorted (plan : QueryPlan) (rooms : List ChamberRow) :
    (byUpdatedAt plan rooms).Pairwise fun a b => b.updatedAt ≤ a.updatedAt := by
  have h := @List.pairwise_mergeSort _ (fun a b : ChamberRow => decide (b.updatedAt ≤ a.updatedAt))
    (by intro a b c hab hbc; simp only [decide_eq_true_eq] at *; omega)
    (by intro a b; simp only [Bool.or_eq_true, decide_eq_true_eq]; omega) (plan.rows rooms)
  simpa [byUpdatedAt] using h

/-- Fewer rivals than the limit leave a room on the page, whatever the plan. -/
theorem mem_page_of_rivals (plan : QueryPlan) (hrooms : rooms.Nodup) (hroom : room ∈ rooms)
    (hn : (rivals rooms room).length < n) : room ∈ (byUpdatedAt plan rooms).take n := by
  have hperm := byUpdatedAt_perm plan rooms
  have hnodup := hperm.nodup_iff.mpr hrooms
  by_contra hout
  set sorted := byUpdatedAt plan rooms with hsorted
  have hin : room ∈ sorted.drop n := by
    have := hperm.mem_iff.mpr hroom
    rw [← List.take_append_drop n sorted, List.mem_append] at this
    exact this.resolve_left hout
  have hlong : n ≤ sorted.length := by
    by_contra hshort
    rw [List.drop_eq_nil_of_le (by omega)] at hin
    exact absurd hin List.not_mem_nil
  have hbefore : ∀ r ∈ sorted.take n, r ∈ rivals rooms room := by
    intro r hr
    have hpair := byUpdatedAt_sorted plan rooms
    rw [← hsorted, ← List.take_append_drop n sorted] at hpair
    have hle := (List.pairwise_append.mp hpair).2.2 r hr room hin
    have hne : r ≠ room := fun heq => hout (heq ▸ hr)
    have hmem : r ∈ rooms := hperm.mem_iff.mp (List.mem_of_mem_take hr)
    simp [rivals, hmem, hne, hle]
  have hcount : (sorted.take n).length ≤ (rivals rooms room).length :=
    (List.subperm_of_subset (hnodup.sublist (List.take_sublist _ _)) hbefore).length_le
  rw [List.length_take, Nat.min_eq_left hlong] at hcount
  omega

theorem rival_ne {r : ChamberRow} (hr : r ∈ rivals rooms room) : r ≠ room := by
  have h := (List.mem_filter.mp hr).2
  simp only [Bool.and_eq_true, bne_iff_ne] at h
  exact h.1

theorem mem_front {front tail : List ChamberRow} {r : ChamberRow}
    (h : [r, room].Sublist (front ++ room :: tail)) (hnodup : (front ++ room :: tail).Nodup)
    (hne : r ≠ room) : r ∈ front := by
  obtain ⟨l₁, l₂, heq, hfront, hrest⟩ := List.sublist_append_iff.mp h
  cases l₁ with
  | cons a l₁ =>
    obtain ⟨rfl, -⟩ := List.cons.inj heq
    exact hfront.subset List.mem_cons_self
  | nil =>
    -- both behind the front: `room` would occur twice
    rw [List.nil_append] at heq
    rw [← heq] at hrest
    have hlater : room ∉ tail := (List.nodup_cons.mp (List.nodup_append.mp hnodup).2.1).1
    rcases List.sublist_cons_iff.mp hrest with hin | ⟨rest, hcons, -⟩
    · exact absurd (hin.subset (by simp)) hlater
    · exact absurd (List.cons.inj hcons).1 hne

/-- The plan that meets `room` after all the others. -/
def lastPlan (room : ChamberRow) : QueryPlan where
  rows l := l.filter (fun r => r != room) ++ l.filter fun r => !(r != room)
  perm l := List.filter_append_perm _ l

theorem rival_before (hroom : room ∈ rooms) {r : ChamberRow} (hr : r ∈ rivals rooms room) :
    [r, room].Sublist (byUpdatedAt (lastPlan room) rooms) := by
  obtain ⟨hmem, hcond⟩ := List.mem_filter.mp hr
  simp only [Bool.and_eq_true, bne_iff_ne, decide_eq_true_eq] at hcond
  apply List.pair_sublist_mergeSort
  · intro a b c hab hbc
    simp only [decide_eq_true_eq] at *
    omega
  · intro a b
    simp only [Bool.or_eq_true, decide_eq_true_eq]
    omega
  · simpa using hcond.2
  · have hfirst : [r].Sublist (rooms.filter fun r => r != room) :=
      List.singleton_sublist.mpr (List.mem_filter.mpr ⟨hmem, by simpa using hcond.1⟩)
    have hsecond : [room].Sublist (rooms.filter fun r => !(r != room)) :=
      List.singleton_sublist.mpr (List.mem_filter.mpr ⟨hroom, by simp⟩)
    exact hfirst.append hsecond

/-- With as many rivals as the limit, there is a plan that keeps the room off the page. -/
theorem not_mem_page (hrooms : rooms.Nodup) (hroom : room ∈ rooms)
    (hn : n ≤ (rivals rooms room).length) :
    room ∉ (byUpdatedAt (lastPlan room) rooms).take n := by
  intro hin
  have hperm := byUpdatedAt_perm (lastPlan room) rooms
  have hnodup := hperm.nodup_iff.mpr hrooms
  obtain ⟨front, back, hsplit⟩ := List.append_of_mem hin
  set sorted := byUpdatedAt (lastPlan room) rooms with hsorted
  have hwhole : sorted = front ++ room :: (back ++ sorted.drop n) := by
    rw [← List.cons_append, ← List.append_assoc, ← hsplit, List.take_append_drop]
  have hshort : front.length < n := by
    have := congrArg List.length hsplit
    simp only [List.length_append, List.length_cons, List.length_take] at this
    omega
  have hbefore : ∀ r ∈ rivals rooms room, r ∈ front := by
    intro r hr
    have hpair := rival_before hroom hr
    rw [← hsorted, hwhole] at hpair
    exact mem_front hpair (hwhole ▸ hnodup) (rival_ne hr)
  have hcount := (List.subperm_of_subset (hrooms.sublist List.filter_sublist) hbefore).length_le
  unfold rivals at hn
  omega

end Chambers
end Concordia.Gateway
