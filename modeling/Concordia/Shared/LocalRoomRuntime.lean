import Concordia.Lib.Transition
import Concordia.Gateway.Chambers

/-! One agent process polling the Council Chambers while others write to them. A poll lists the
rooms, then fetches and handles one page a room; a handler that raises ends it there. -/
namespace Concordia.Shared.LocalRoomRuntime
open Concordia.Python Concordia.Lib Concordia.Lib.Transition Concordia.Gateway
open Concordia.Js hiding Value

/-- `agent_id` and `CONCORDIA_ROOM_POLL_LIMIT`. -/
structure Agent where
  agentId : Str
  roomPollLimit : Int

/-- A poll under way: the rooms still to fetch, and what is left of the current room's page. -/
structure Poll where
  rooms : List Str
  room : Str
  page : List SequencedMessage
  deriving DecidableEq

/-- `given` records what the preprocessor was called with, oldest first. -/
structure State where
  db : Chambers
  offsets : Str → Nat
  poll : Option Poll
  given : List SequencedMessage

def State.initial : State where
  db := .empty
  offsets _ := 0
  poll := none
  given := []

inductive Action where
  | createRoom (uuid : Str) (proposalId : Option Str) (now : Nat)
  | addParticipant (roomId participantId : Str)
  | postMessage (row : MessageRow)
  | listRooms (plan : Chambers.QueryPlan)
  | getMessages
  | processMessage (raised : Bool)
  | finish
  | requestFails

/-- What the agent does when every request is answered; handlers may still raise. -/
def Action.polls : Action → Bool
  | .listRooms _ | .getMessages | .processMessage _ | .finish => true
  | _ => false

def Action.starts : Action → Bool
  | .listRooms _ => true
  | _ => false

variable (agent : Agent)

/-- The rooms of the agent, as far as the room query knows them. -/
def Agent.rooms (db : Chambers) : List ChamberRow := db.roomsOf (some agent.agentId)

/-- `client.list_rooms`; `room.get("room_id") or room.get("id")` is the row's key. -/
def Agent.listed (plan : Chambers.QueryPlan) (db : Chambers) : List Str :=
  (Chambers.listRooms plan db (some agent.agentId) agent.roomPollLimit).map fun r => r.1.roomId

/-- The `finally` of `_poll_once`. -/
def advance (offsets : Str → Nat) (roomId : Str) (sequence : Nat) : Str → Nat :=
  if sequence ≠ 0 then Function.update offsets roomId (max (offsets roomId) sequence) else offsets

def step (s : State) : Action → Option State
  | .createRoom uuid proposalId now =>
    (s.db.createRoom uuid proposalId now).map fun db => { s with db }
  | .addParticipant roomId participantId =>
    (s.db.storeRoomParticipant roomId participantId).map fun db => { s with db }
  | .postMessage row => (s.db.storeRoomMessage row).map fun db => { s with db }
  | .listRooms plan =>
    match s.poll with
    | none => some { s with poll := some ⟨agent.listed plan s.db, [], []⟩ }
    | some _ => none
  | .getMessages =>
    match s.poll with
    | some ⟨roomId :: rooms, _, []⟩ =>
      if roomId = [] then some { s with poll := some ⟨rooms, [], []⟩ }
      else
        let messages := s.db.listMessages roomId (s.offsets roomId) 100
        some { s with poll := some ⟨rooms, roomId, messages⟩ }
    | _ => none
  | .processMessage raised =>
    match s.poll with
    | some ⟨rooms, room, message :: page⟩ => some { s with
        given := s.given ++ [message]
        offsets := advance s.offsets room message.id
        poll := if raised then none else some ⟨rooms, room, page⟩ }
    | _ => none
  | .finish =>
    match s.poll with
    | some ⟨[], _, []⟩ => some { s with poll := none }
    | _ => none
  | .requestFails =>
    match s.poll with
    | some ⟨_ :: _, _, []⟩ => some { s with poll := none }
    | _ => none

/-- Every message of every room of the agent has been given to it. -/
def Delivered (s : State) : Prop :=
  ∀ room ∈ agent.rooms s.db, ∀ m ∈ s.db.messagesIn room.roomId, m ∈ s.given

/-- From here on, polls alone will have given everything once there are enough of them. -/
def DeliversAll (s : State) : Prop :=
  ∃ enough : Nat, ∀ log u, (∀ a ∈ log, a.polls = true) → Accepts (step agent) s log u →
    enough ≤ log.countP Action.starts → Delivered agent u

/-- A room that holds a message not yet given has fewer rivals than a room list has places. -/
def Covered (s : State) : Prop :=
  ∀ room ∈ agent.rooms s.db, (∃ m ∈ s.db.messagesIn room.roomId, m ∉ s.given) →
    (Chambers.rivals (agent.rooms s.db) room).length < clampLimit agent.roomPollLimit

/-! What one action does. -/
section Moves

inductive Moves (s : State) : Action → State → Prop
  | createRoom {uuid proposalId now} {db : Chambers}
      (h : s.db.createRoom uuid proposalId now = some db) :
      Moves s (.createRoom uuid proposalId now) { s with db }
  | addParticipant {roomId participantId} {db : Chambers}
      (h : s.db.storeRoomParticipant roomId participantId = some db) :
      Moves s (.addParticipant roomId participantId) { s with db }
  | postMessage {row} {db : Chambers} (h : s.db.storeRoomMessage row = some db) :
      Moves s (.postMessage row) { s with db }
  | listRooms {plan} (h : s.poll = none) :
      Moves s (.listRooms plan) { s with poll := some ⟨agent.listed plan s.db, [], []⟩ }
  | skipRoom {rooms room} (h : s.poll = some ⟨[] :: rooms, room, []⟩) :
      Moves s .getMessages { s with poll := some ⟨rooms, [], []⟩ }
  | getMessages {roomId rooms room} (h : s.poll = some ⟨roomId :: rooms, room, []⟩)
      (hroom : roomId ≠ []) :
      Moves s .getMessages { s with
        poll := some ⟨rooms, roomId, s.db.listMessages roomId (s.offsets roomId) 100⟩ }
  | processMessage {raised rooms room message page}
      (h : s.poll = some ⟨rooms, room, message :: page⟩) :
      Moves s (.processMessage raised) { s with
        given := s.given ++ [message]
        offsets := advance s.offsets room message.id
        poll := if raised then none else some ⟨rooms, room, page⟩ }
  | finish {room} (h : s.poll = some ⟨[], room, []⟩) : Moves s .finish { s with poll := none }
  | requestFails {roomId rooms room} (h : s.poll = some ⟨roomId :: rooms, room, []⟩) :
      Moves s .requestFails { s with poll := none }

variable {agent} {s t u : State} {a : Action} {log : List Action}

theorem step_moves (h : step agent s a = some t) : Moves agent s a t := by
  cases a with
  | createRoom uuid proposalId now =>
    obtain ⟨db, hdb, rfl⟩ := Option.map_eq_some_iff.mp h
    exact .createRoom hdb
  | addParticipant roomId participantId =>
    obtain ⟨db, hdb, rfl⟩ := Option.map_eq_some_iff.mp h
    exact .addParticipant hdb
  | postMessage row =>
    obtain ⟨db, hdb, rfl⟩ := Option.map_eq_some_iff.mp h
    exact .postMessage hdb
  | listRooms plan =>
    simp only [step] at h
    split at h
    · next hpoll => exact Option.some.inj h ▸ .listRooms hpoll
    · contradiction
  | getMessages =>
    simp only [step] at h
    split at h
    · next roomId rooms room hpoll =>
      split at h
      · next hempty =>
        rw [hempty] at hpoll
        exact Option.some.inj h ▸ .skipRoom hpoll
      · next hroom => exact Option.some.inj h ▸ .getMessages hpoll hroom
    · contradiction
  | processMessage raised =>
    simp only [step] at h
    split at h
    · next hpoll => exact Option.some.inj h ▸ .processMessage hpoll
    · contradiction
  | finish =>
    simp only [step] at h
    split at h
    · next hpoll => exact Option.some.inj h ▸ .finish hpoll
    · contradiction
  | requestFails =>
    simp only [step] at h
    split at h
    · next hpoll => exact Option.some.inj h ▸ .requestFails hpoll
    · contradiction

end Moves

/-! What has been given is, room by room, what lies behind the cursor. -/
section Safety

structure Consistent (s : State) : Prop where
  db : s.db.Ordered
  cursor : ∀ room, s.offsets room ≤ s.db.lastId
  given : ∀ room, (s.given.filter fun m => m.roomId == room) =
    Cursor.read SequencedMessage.id (s.offsets room) (s.db.messagesIn room)
  page : ∀ p, s.poll = some p →
    p.page <+: Cursor.unread SequencedMessage.id (s.offsets p.room) (s.db.messagesIn p.room)

variable {agent} {s t u : State} {a : Action} {log : List Action}

theorem Consistent.initial : Consistent State.initial := by
  constructor
  · exact ⟨List.Pairwise.nil, by simp [State.initial, Chambers.empty], List.nodup_nil,
      by simp [State.initial, Chambers.empty]⟩
  · intro room
    exact le_refl _
  · intro room
    rfl
  · intro p hp
    cases hp

theorem Consistent.idle (h : Consistent s) : Consistent { s with poll := none } :=
  ⟨h.db, h.cursor, h.given, fun _ hp => nomatch hp⟩

theorem Consistent.poll (h : Consistent s) {p : Poll}
    (hp : p.page <+: Cursor.unread SequencedMessage.id (s.offsets p.room) (s.db.messagesIn p.room)) :
    Consistent { s with poll := some p } := by
  refine ⟨h.db, h.cursor, h.given, ?_⟩
  intro q hq
  obtain rfl := Option.some.inj hq
  exact hp

theorem Consistent.append (h : Consistent s) {row : MessageRow} {db : Chambers}
    (hdb : s.db.storeRoomMessage row = some db) : Consistent { s with db } := by
  have hnew : ∀ room, s.offsets room < (⟨row, s.db.lastId + 1⟩ : SequencedMessage).id :=
    fun room => Nat.lt_succ_of_le (h.cursor room)
  constructor
  · exact h.db.storeRoomMessage hdb
  · intro room
    obtain rfl := Chambers.storeRoomMessage_eq hdb
    exact (hnew room).le
  · intro room
    rw [Chambers.messagesIn_store hdb]
    split
    · rw [Cursor.read_concat (hnew room)]
      exact h.given room
    · exact h.given room
  · intro p hp
    rw [Chambers.messagesIn_store hdb]
    split
    · rw [Cursor.unread_concat (hnew p.room)]
      exact (h.page p hp).trans (List.prefix_append _ _)
    · exact h.page p hp

theorem Consistent.process (h : Consistent s) {rooms : List Str} {room : Str}
    {message : SequencedMessage} {page : List SequencedMessage} {raised : Bool}
    (hp : s.poll = some ⟨rooms, room, message :: page⟩) :
    Consistent { s with
      given := s.given ++ [message]
      offsets := advance s.offsets room message.id
      poll := if raised then none else some ⟨rooms, room, page⟩ } := by
  obtain ⟨later, hlater⟩ := h.page _ hp
  simp only [List.cons_append] at hlater
  have hunread : message ∈ Cursor.unread SequencedMessage.id (s.offsets room)
      (s.db.messagesIn room) := hlater ▸ List.mem_cons_self
  obtain ⟨hmem, hpast⟩ := Cursor.mem_unread.mp hunread
  obtain ⟨hstored, hsame⟩ := List.mem_filter.mp hmem
  have hroom : message.roomId = room := by simpa using hsame
  obtain ⟨hpos, hlast⟩ := h.db.bounded message hstored
  have hadvance : advance s.offsets room message.id =
      Function.update s.offsets room message.id := by
    simp [advance, Nat.max_eq_right hpast.le, Nat.pos_iff_ne_zero.mp hpos]
  obtain ⟨hread, hrest⟩ := Cursor.read_advance (h.db.messagesIn room) hlater.symm
  constructor
  · exact h.db
  · intro r
    simp only [hadvance, Function.update_apply]
    split
    · exact hlast
    · exact h.cursor r
  · intro r
    simp only [hadvance, Function.update_apply, List.filter_append]
    by_cases hr : r = room
    · subst hr
      rw [if_pos rfl, hread, h.given]
      simp [hroom]
    · rw [if_neg hr, h.given]
      simp [hroom, Ne.symm hr]
  · intro p hq
    cases raised with
    | true => cases hq
    | false =>
      obtain rfl := Option.some.inj hq
      simp only [hadvance, Function.update_self]
      rw [hrest]
      exact List.prefix_append _ _

/-- Every action keeps the cursors in step with what was given. -/
theorem Consistent.step (h : Consistent s) (hstep : step agent s a = some t) : Consistent t := by
  cases step_moves hstep with
  | createRoom hdb =>
    have hordered := h.db.createRoom hdb
    obtain ⟨-, rfl⟩ := Chambers.createRoom_eq hdb
    exact ⟨hordered, h.cursor, h.given, h.page⟩
  | addParticipant hdb =>
    obtain ⟨joined, rfl⟩ := Chambers.storeRoomParticipant_eq hdb
    exact ⟨⟨h.db.increasing, h.db.bounded, h.db.keyed, h.db.named⟩, h.cursor, h.given, h.page⟩
  | postMessage hdb => exact h.append hdb
  | listRooms => exact h.poll List.nil_prefix
  | skipRoom => exact h.poll List.nil_prefix
  | getMessages =>
    apply h.poll
    rw [Chambers.listMessages_eq h.db]
    exact List.take_prefix _ _
  | processMessage hp => exact h.process hp
  | finish => exact h.idle
  | requestFails => exact h.idle

theorem Consistent.run (h : Consistent s) (hrun : Accepts (LocalRoomRuntime.step agent) s log t) :
    Consistent t :=
  hrun.invariant h fun _ _ _ hv hstep => hv.step hstep

theorem Consistent.mem_given (h : Consistent s) {m : SequencedMessage} :
    m ∈ s.given ↔ m ∈ s.db.messages ∧ m.id ≤ s.offsets m.roomId := by
  have hfilter : m ∈ s.given ↔ m ∈ s.given.filter fun x => x.roomId == m.roomId := by
    simp [List.mem_filter]
  rw [hfilter, h.given m.roomId, Cursor.mem_read, Chambers.messagesIn, List.mem_filter]
  simp

/-- No message is given twice. -/
theorem Consistent.given_nodup (h : Consistent s) : (s.given.map SequencedMessage.id).Nodup := by
  have hinj : ∀ x ∈ s.given, ∀ y ∈ s.given, x.id = y.id → x = y := by
    intro x hx y hy
    exact List.inj_on_of_nodup_map h.db.increasing.nodup (h.mem_given.mp hx).1 (h.mem_given.mp hy).1
  apply List.Nodup.map_on hinj
  apply List.nodup_iff_count_le_one.mpr
  intro m
  have hcount : s.given.count m = (s.given.filter fun x => x.roomId == m.roomId).count m := by
    rw [List.count_filter]
    simp
  rw [hcount, h.given m.roomId]
  apply List.nodup_iff_count_le_one.mp
  exact (((h.db.messagesIn m.roomId).filter _).nodup).of_map _

theorem Consistent.given_length (h : Consistent s) : s.given.length ≤ s.db.messages.length :=
  (List.subperm_of_subset (h.given_nodup.of_map _) fun _ hm => (h.mem_given.mp hm).1).length_le

end Safety

/-! Each poll begun while a listed room holds something new gives at least one message. -/
section Progress

/-- A room of this key holds something new. -/
def Pending (s : State) (roomId : Str) : Prop :=
  roomId ≠ [] ∧ Cursor.unread SequencedMessage.id (s.offsets roomId) (s.db.messagesIn roomId) ≠ []

/-- The poll under way is bound to give a message. -/
def Poll.Promising (s : State) (p : Poll) : Prop := p.page ≠ [] ∨ ∃ r ∈ p.rooms, Pending s r

variable {agent} {s t u v : State} {a : Action} {log : List Action}

theorem polls_db (ha : a.polls = true) (h : step agent s a = some t) : t.db = s.db := by
  cases step_moves h with
  | createRoom | addParticipant | postMessage => simp [Action.polls] at ha
  | _ => rfl

theorem step_given (h : step agent s a = some t) : s.given <+: t.given := by
  cases step_moves h with
  | processMessage => exact List.prefix_append _ _
  | _ => exact List.prefix_rfl

theorem Consistent.new_iff (h : Consistent s) {roomId : Str} {m : SequencedMessage} :
    m ∈ s.db.messagesIn roomId ∧ m ∉ s.given ↔
      m ∈ Cursor.unread SequencedMessage.id (s.offsets roomId) (s.db.messagesIn roomId) := by
  rw [Cursor.mem_unread]
  apply and_congr_right
  intro hm
  obtain ⟨hstored, hsame⟩ := List.mem_filter.mp hm
  have hroom : m.roomId = roomId := by simpa using hsame
  simp [h.mem_given, hstored, hroom]

theorem Consistent.pending_iff (h : Consistent s) {roomId : Str} (hname : roomId ≠ []) :
    Pending s roomId ↔ ∃ m ∈ s.db.messagesIn roomId, m ∉ s.given := by
  unfold Pending
  rw [and_iff_right hname]
  constructor
  · intro hne
    obtain ⟨m, hm⟩ := List.exists_mem_of_ne_nil _ hne
    exact ⟨m, h.new_iff.mpr hm⟩
  · rintro ⟨m, hm⟩
    exact List.ne_nil_of_mem (h.new_iff.mp hm)

theorem Agent.rooms_subset {db : Chambers} {room : ChamberRow} (h : room ∈ agent.rooms db) :
    room ∈ db.rooms := by
  unfold Agent.rooms Chambers.roomsOf at h
  split at h
  · exact (List.mem_filter.mp h).1
  · exact h

theorem Agent.rooms_nodup {db : Chambers} (h : db.Ordered) : (agent.rooms db).Nodup := by
  have hall : db.rooms.Nodup := h.keyed.of_map _
  unfold Agent.rooms Chambers.roomsOf
  split
  · exact hall.filter _
  · exact hall

theorem Agent.mem_listed {plan : Chambers.QueryPlan} {db : Chambers} {roomId : Str} :
    roomId ∈ agent.listed plan db ↔ ∃ room ∈ (Chambers.byUpdatedAt plan (agent.rooms db)).take
      (clampLimit agent.roomPollLimit), room.roomId = roomId := by
  unfold Agent.listed Chambers.listRooms Agent.rooms
  rw [List.map_map]
  exact List.mem_map

/-- What is not delivered is pending in a listed room, as long as the rooms are covered. -/
theorem Consistent.pending_listed (h : Consistent s) (hcovered : Covered agent s)
    (hleft : ¬ Delivered agent s) (plan : Chambers.QueryPlan) :
    ∃ r ∈ agent.listed plan s.db, Pending s r := by
  unfold Delivered at hleft
  push Not at hleft
  obtain ⟨room, hroom, m, hm, hnew⟩ := hleft
  refine ⟨room.roomId, Agent.mem_listed.mpr ⟨room, ?_, rfl⟩, ?_⟩
  · exact Chambers.mem_page_of_rivals plan (Agent.rooms_nodup h.db) hroom
      (hcovered room hroom ⟨m, hm, hnew⟩)
  · exact (h.pending_iff (h.db.named room (Agent.rooms_subset hroom))).mpr ⟨m, hm, hnew⟩

theorem Covered.step (hcovered : Covered agent s) (ha : a.polls = true)
    (h : step agent s a = some t) : Covered agent t := by
  intro room hroom hnew
  rw [polls_db ha h] at hroom hnew ⊢
  obtain ⟨m, hm, hout⟩ := hnew
  exact hcovered room hroom ⟨m, hm, fun hin => hout ((step_given h).subset hin)⟩

/-- The account of a run of polls: every one of them but the last has given something. -/
def Progress (agent : Agent) (before : Nat) (log : List Action) (v : State) : Prop :=
  Delivered agent v ∨ before + log.countP Action.starts ≤ v.given.length ∨
    before + log.countP Action.starts ≤ v.given.length + 1 ∧
      ∃ p, v.poll = some p ∧ p.Promising v

theorem Delivered.step (hdone : Delivered agent s) (ha : a.polls = true)
    (h : step agent s a = some t) : Delivered agent t := by
  intro room hroom m hm
  rw [polls_db ha h] at hroom hm
  exact (step_given h).subset (hdone room hroom m hm)

theorem Progress.step {before : Nat} (hv : Consistent v) (hcovered : Covered agent v)
    (h : Progress agent before log v) (ha : a.polls = true)
    (hstep : LocalRoomRuntime.step agent v a = some t) : Progress agent before (log ++ [a]) t := by
  rcases h with hdone | h
  · exact .inl (hdone.step ha hstep)
  · unfold Progress
    rw [List.countP_append, List.countP_singleton]
    cases step_moves hstep with
    | createRoom | addParticipant | postMessage | requestFails => simp [Action.polls] at ha
    | @listRooms plan hidle =>
      have hbefore : before + log.countP Action.starts ≤ v.given.length := by
        rcases h with h | ⟨-, p, hp, -⟩
        · exact h
        · rw [hidle] at hp
          cases hp
      by_cases hdone : Delivered agent v
      · exact .inl hdone
      · refine .inr (.inr ⟨?_, _, rfl, .inr (hv.pending_listed hcovered hdone plan)⟩)
        simp only [Action.starts, if_true]
        omega
    | skipRoom hp =>
      refine .inr (h.imp (fun h => by simpa [Action.starts] using h) ?_)
      rintro ⟨hcount, p, hq, hpromise⟩
      refine ⟨by simpa [Action.starts] using hcount, _, rfl, ?_⟩
      obtain rfl := Option.some.inj (hp.symm.trans hq)
      obtain ⟨r, hr, hpending⟩ := hpromise.resolve_left fun h => h rfl
      rcases List.mem_cons.mp hr with rfl | hr
      · exact absurd rfl hpending.1
      · exact .inr ⟨r, hr, hpending⟩
    | @getMessages roomId rooms _ hp =>
      refine .inr (h.imp (fun h => by simpa [Action.starts] using h) ?_)
      rintro ⟨hcount, p, hq, hpromise⟩
      refine ⟨by simpa [Action.starts] using hcount, _, rfl, ?_⟩
      obtain rfl := Option.some.inj (hp.symm.trans hq)
      obtain ⟨r, hr, hpending⟩ := hpromise.resolve_left fun h => h rfl
      rcases List.mem_cons.mp hr with rfl | hr
      · -- the promised room is the one fetched now: its page cannot be empty
        left
        simp only [Chambers.listMessages_eq hv.db]
        intro hempty
        rcases List.take_eq_nil_iff.mp hempty with hzero | hnone
        · exact absurd hzero (clampLimit_pos 100).ne'
        · exact hpending.2 hnone
      · exact .inr ⟨r, hr, hpending⟩
    | processMessage =>
      right
      left
      simp only [Action.starts, List.length_append, List.length_singleton]
      rcases h with h | ⟨h, -⟩
      · simp
        omega
      · simpa using h
    | finish hp =>
      refine .inr (.inl ?_)
      rcases h with h | ⟨-, p, hq, hpromise⟩
      · simpa [Action.starts] using h
      · obtain rfl := Option.some.inj (hp.symm.trans hq)
        rcases hpromise with hpage | ⟨r, hr, -⟩
        · exact absurd rfl hpage
        · exact absurd hr List.not_mem_nil

/-- Under the condition, one poll more than there are messages gives them all. -/
theorem Consistent.delivers (hs : Consistent s) (hcovered : Covered agent s) :
    DeliversAll agent s := by
  refine ⟨s.db.messages.length + 2, ?_⟩
  intro log u hpolls hrun henough
  have hkeep : (∀ a ∈ log, a.polls = true) → u.db = s.db ∧ Consistent u ∧ Covered agent u ∧
      Progress agent s.given.length log u := by
    refine hrun.history (P := fun l v => (∀ a ∈ l, a.polls = true) → v.db = s.db ∧ Consistent v ∧
      Covered agent v ∧ Progress agent s.given.length l v) ?_ ?_
    · intro _
      exact ⟨rfl, hs, hcovered, .inr (.inl (by simp))⟩
    · intro l v a w ih hstep hl
      obtain ⟨hdb, hv, hc, hp⟩ := ih fun b hb => hl b (List.mem_append_left _ hb)
      have ha := hl a (List.mem_append_right _ List.mem_cons_self)
      exact ⟨(polls_db ha hstep).trans hdb, hv.step hstep, hc.step ha hstep, hp.step hv hc ha hstep⟩
  obtain ⟨hdb, hu, -, hprogress⟩ := hkeep hpolls
  have hbound := hu.given_length
  rw [hdb] at hbound
  rcases hprogress with hdone | h | ⟨h, -⟩
  · exact hdone
  · omega
  · omega

end Progress

/-! A poll whose requests are answered and whose handlers succeed comes to its end. -/
section Completion

variable {agent} {s t u v : State} {log : List Action}

/-- From `s`, answered polls alone reach `t`, beginning `n` polls on the way. -/
def Reaches (agent : Agent) (s t : State) (n : Nat) : Prop :=
  ∃ log, (∀ a ∈ log, a.polls = true) ∧ Accepts (step agent) s log t ∧
    log.countP Action.starts = n

theorem Reaches.refl (s : State) : Reaches agent s s 0 := ⟨[], by simp, .start, rfl⟩

theorem Reaches.single {a : Action} (ha : a.polls = true) (h : step agent s a = some t) :
    Reaches agent s t (if a.starts then 1 else 0) := by
  refine ⟨[a], ?_, ?_, ?_⟩
  · intro b hb
    rw [List.mem_singleton.mp hb]
    exact ha
  · exact Accepts.start.accept h
  · exact List.countP_singleton

theorem Reaches.trans {m n : Nat} (h : Reaches agent s t m) (k : Reaches agent t u n) :
    Reaches agent s u (m + n) := by
  obtain ⟨log, hlog, hrun, hcount⟩ := h
  obtain ⟨later, hlater, krun, kcount⟩ := k
  refine ⟨log ++ later, ?_, hrun.trans krun, ?_⟩
  · intro a ha
    exact (List.mem_append.mp ha).elim (hlog a) (hlater a)
  · rw [List.countP_append, hcount, kcount]

theorem Reaches.db {n : Nat} (h : Reaches agent s t n) : t.db = s.db := by
  obtain ⟨log, hlog, hrun, -⟩ := h
  clear * - hlog hrun
  induction hrun with
  | start => rfl
  | @accept log t u a _ hstep ih =>
    have ha := hlog a (List.mem_append_right _ List.mem_cons_self)
    exact (polls_db ha hstep).trans (ih fun b hb => hlog b (List.mem_append_left _ hb))

theorem Reaches.consistent {n : Nat} (h : Reaches agent s t n) (hs : Consistent s) :
    Consistent t := by
  obtain ⟨log, -, hrun, -⟩ := h
  exact hs.run hrun

theorem page_completes (rooms : List Str) (room : Str) (page : List SequencedMessage)
    (hp : s.poll = some ⟨rooms, room, page⟩) :
    ∃ t, Reaches agent s t 0 ∧ t.poll = some ⟨rooms, room, []⟩ ∧
      ∀ r ≠ room, t.offsets r = s.offsets r := by
  induction page generalizing s with
  | nil => exact ⟨s, .refl s, hp, fun _ _ => rfl⟩
  | cons message page ih =>
    have hstep : step agent s (.processMessage false) = some { s with
        given := s.given ++ [message]
        offsets := advance s.offsets room message.id
        poll := some ⟨rooms, room, page⟩ } := by
      simp [step, hp]
    obtain ⟨t, ht, hpoll, hoffsets⟩ := ih (s := { s with
      given := s.given ++ [message]
      offsets := advance s.offsets room message.id
      poll := some ⟨rooms, room, page⟩ }) rfl
    refine ⟨t, (Reaches.single rfl hstep).trans ht, hpoll, ?_⟩
    intro r hr
    rw [hoffsets r hr]
    unfold advance
    split
    · exact Function.update_of_ne hr _ _
    · rfl

theorem poll_completes (rooms : List Str) (room : Str)
    (hp : s.poll = some ⟨rooms, room, []⟩) :
    ∃ t, Reaches agent s t 0 ∧ t.poll = none ∧ ∀ r ∉ rooms, t.offsets r = s.offsets r := by
  induction rooms generalizing s room with
  | nil =>
    have hstep : step agent s .finish = some { s with poll := none } := by simp [step, hp]
    exact ⟨_, Reaches.single rfl hstep, rfl, fun _ _ => rfl⟩
  | cons roomId rooms ih =>
    by_cases hempty : roomId = []
    · have hstep : step agent s .getMessages = some { s with poll := some ⟨rooms, [], []⟩ } := by
        simp [step, hp, hempty]
      obtain ⟨t, ht, hidle, hoffsets⟩ := ih (s := { s with poll := some ⟨rooms, [], []⟩ }) [] rfl
      refine ⟨t, (Reaches.single rfl hstep).trans ht, hidle, ?_⟩
      intro r hr
      exact hoffsets r fun hin => hr (List.mem_cons_of_mem _ hin)
    · have hstep : step agent s .getMessages = some { s with
          poll := some ⟨rooms, roomId, s.db.listMessages roomId (s.offsets roomId) 100⟩ } := by
        simp [step, hp, hempty]
      obtain ⟨v, hv, hpage, hbefore⟩ := @page_completes agent { s with
        poll := some ⟨rooms, roomId, s.db.listMessages roomId (s.offsets roomId) 100⟩ } _ _ _ rfl
      obtain ⟨t, ht, hidle, hoffsets⟩ := ih roomId hpage
      refine ⟨t, ((Reaches.single rfl hstep).trans hv).trans ht, hidle, ?_⟩
      intro r hr
      rw [hoffsets r fun hin => hr (List.mem_cons_of_mem _ hin)]
      exact hbefore r fun heq => hr (heq ▸ List.mem_cons_self)

/-- Any number of polls can pass a room by that the plan keeps off the list. -/
theorem polls_pass_by (plan : Chambers.QueryPlan) {roomId : Str} (hidle : s.poll = none)
    (hunlisted : roomId ∉ agent.listed plan s.db) (n : Nat) :
    ∃ t, Reaches agent s t n ∧ t.poll = none ∧ t.offsets roomId = s.offsets roomId := by
  induction n with
  | zero => exact ⟨s, .refl s, hidle, rfl⟩
  | succ n ih =>
    obtain ⟨v, hv, hvidle, hvoffset⟩ := ih
    have hstep : step agent v (.listRooms plan) =
        some { v with poll := some ⟨agent.listed plan v.db, [], []⟩ } := by
      simp [step, hvidle]
    obtain ⟨t, ht, htidle, htoffset⟩ := @poll_completes agent
      { v with poll := some ⟨agent.listed plan v.db, [], []⟩ } _ _ rfl
    refine ⟨t, hv.trans ((Reaches.single rfl hstep).trans ht), htidle, ?_⟩
    rw [htoffset roomId (by rw [hv.db]; exact hunlisted)]
    exact hvoffset

theorem Consistent.covered (hs : Consistent s) (hidle : s.poll = none)
    (hdelivers : DeliversAll agent s) : Covered agent s := by
  intro room hroom hnew
  by_contra hmany
  obtain ⟨m, hm, hout⟩ := hnew
  have hunlisted : room.roomId ∉ agent.listed (Chambers.lastPlan room) s.db := by
    intro hin
    obtain ⟨r, hr, hkey⟩ := Agent.mem_listed.mp hin
    have hrooms : r ∈ agent.rooms s.db :=
      (Chambers.byUpdatedAt_perm _ _).mem_iff.mp (List.mem_of_mem_take hr)
    have hsame : r = room := List.inj_on_of_nodup_map hs.db.keyed (Agent.rooms_subset hrooms)
      (Agent.rooms_subset hroom) hkey
    rw [hsame] at hr
    exact Chambers.not_mem_page (Agent.rooms_nodup hs.db) hroom (Nat.not_lt.mp hmany) hr
  obtain ⟨enough, hall⟩ := hdelivers
  obtain ⟨t, hreach, -, hoffset⟩ := polls_pass_by (Chambers.lastPlan room) hidle hunlisted enough
  have ht := hreach.consistent hs
  have hdb := hreach.db
  obtain ⟨log, hlog, hrun, hcount⟩ := hreach
  have hdone := hall log t hlog hrun hcount.ge
  rw [← hdb] at hroom hm
  obtain ⟨hstored, hsame⟩ := List.mem_filter.mp hm
  have hkey : m.roomId = room.roomId := by simpa using hsame
  have hread := (ht.mem_given.mp (hdone room hroom m hm)).2
  rw [hkey, hoffset, ← hkey] at hread
  exact hout (hs.mem_given.mpr ⟨hdb ▸ hstored, hread⟩)

end Completion

/-- As many rooms as the list has places are always covered. -/
theorem covered_of_few_rooms {agent : Agent} {s : State}
    (h : (agent.rooms s.db).length ≤ clampLimit agent.roomPollLimit) : Covered agent s := by
  intro room hroom _
  have hfewer : (Chambers.rivals (agent.rooms s.db) room).length < (agent.rooms s.db).length := by
    apply List.length_filter_lt_length_iff_exists.mpr
    exact ⟨room, hroom, by simp⟩
  omega

/-- In every run, no message is given twice and each room's messages are given in order without
a gap. Between two polls, polling alone goes on to give everything exactly when each room that
holds something new has fewer rivals, by `updated_at`, than a room list has places. -/
theorem polling_law (agent : Agent) {log : List Action} {t : State}
    (h : Accepts (step agent) State.initial log t) :
    (t.given.map SequencedMessage.id).Nodup ∧
      (∀ room, (t.given.filter fun m => m.roomId == room) <+: t.db.messagesIn room ∧
        Cursor.Increasing SequencedMessage.id (t.db.messagesIn room)) ∧
      (t.poll = none → (DeliversAll agent t ↔ Covered agent t)) := by
  have ht := Consistent.initial.run h
  refine ⟨ht.given_nodup, ?_, ?_⟩
  · intro room
    rw [ht.given room]
    exact ⟨Cursor.read_prefix (ht.db.messagesIn room), ht.db.messagesIn room⟩
  · intro hidle
    exact ⟨ht.covered hidle, ht.delivers⟩

def chamberKey (i : Nat) : Str := js "room-" ++ [i.toUInt16]

/-- A recruit joins `n` rooms, opened one after the other; then the oldest receives a message. -/
def crowd (recruit : Str) (n : Nat) : List Action :=
  ((List.range n).flatMap fun i =>
    [.createRoom [i.toUInt16] none i, .addParticipant (chamberKey i) recruit]) ++
  [.postMessage ⟨js "msg-1", chamberKey 0, js "rowan", js "hello", js "\x7b\x7d"⟩]

/-- Two places in the room list, and three rooms. -/
def crowded : State :=
  (Transition.run (step ⟨js "verity", 2⟩) .initial (crowd (js "verity") 3)).1

theorem crowded_facts : crowded.poll = none ∧ crowded.given = [] ∧
    ∃ room ∈ Agent.rooms ⟨js "verity", 2⟩ crowded.db, crowded.db.messagesIn room.roomId ≠ [] ∧
      clampLimit 2 ≤ (Chambers.rivals (Agent.rooms ⟨js "verity", 2⟩ crowded.db) room).length := by
  decide +kernel

theorem polling_law_crowded : (crowded.given.map SequencedMessage.id).Nodup ∧
    (∀ room, (crowded.given.filter fun m => m.roomId == room) <+: crowded.db.messagesIn room ∧
      Cursor.Increasing SequencedMessage.id (crowded.db.messagesIn room)) ∧
    (DeliversAll ⟨js "verity", 2⟩ crowded ↔ Covered ⟨js "verity", 2⟩ crowded) := by
  have hrun : Accepts (step ⟨js "verity", 2⟩) State.initial _ crowded := run_accepts _ _ _
  obtain ⟨htwice, horder, hdelivers⟩ := polling_law ⟨js "verity", 2⟩ hrun
  exact ⟨htwice, horder, hdelivers crowded_facts.1⟩

/-- With one room more than the list has places, a message can stay unseen for ever. -/
theorem crowded_room_starves :
    ¬ ∀ (agent : Agent) (log : List Action) (t : State),
      Accepts (step agent) State.initial log t → t.poll = none → DeliversAll agent t := by
  intro hall
  obtain ⟨hidle, hgiven, room, hroom, hmessages, hrivals⟩ := crowded_facts
  have hrun := run_accepts (step ⟨js "verity", 2⟩) .initial (crowd (js "verity") 3)
  have hcovered : Covered ⟨js "verity", 2⟩ crowded :=
    (Consistent.initial.run hrun).covered hidle (hall _ _ crowded hrun hidle)
  obtain ⟨m, hm⟩ := List.exists_mem_of_ne_nil _ hmessages
  have hfew := hcovered room hroom ⟨m, hm, by rw [hgiven]; exact List.not_mem_nil⟩
  exact absurd hrivals (Nat.not_le.mpr hfew)

end Concordia.Shared.LocalRoomRuntime
