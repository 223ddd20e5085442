import Concordia.Gateway.Approval

/-! Council Chambers: rooms and their messages. -/
namespace Concordia.Gateway
open Concordia.Python Concordia.Lib.Transactions Concordia.Lib.Transactions.Program
open Concordia.Js hiding Value

variable (env : Env)

def roomNotFound : PyException := .http 404 (js "room_not_found")

/-- `store_room_participant`; nothing here reads the participants. -/
def storeRoomParticipant (roomId : Str) : Sql Unit := do
  match ← select fun db => db.rooms.find? fun r => r.roomId == roomId with
  | some _ => return ()
  | none => raise roomNotFound

/-- `INSERT INTO proposal_room_messages`, under its unique constraint. -/
def insertMessage (row : MessageRow) (db : Db) : Option Db :=
  if db.messages.any fun r => r.messageId == row.messageId then none
  else some { db with messages := db.messages ++ [row] }

/-- `store_room_message`, with the `uuid4` it draws; the result is the message id. -/
def storeRoomMessage (roomId content senderRole : Str) (metadata : Dict) (uuid : Str) : Sql Str := do
  match ← select fun db => db.rooms.find? fun r => r.roomId == roomId with
  | none => raise roomNotFound
  | some _ =>
    let messageId := js "msg-" ++ uuid
    execute (insertMessage ⟨messageId, roomId, senderRole, content, dumpsSorted (.dict metadata)⟩)
    return messageId

/-- The metadata of what the gateway itself posts. -/
def publisherMetadata (cardHash : Str) : Dict :=
  [(js "publisher", .str (js "gateway")), (js "card_hash", .str cardHash)]

/-- `create_room`: the answer is the room's identifier. -/
def createRoom (xAgentKey : Str) (proposalId : Option Str) (uuid : Str) : Sql Str := do
  if (env.roomKeys xAgentKey).isNone then raise (.http 401 (js "invalid_agent_key"))
  else
    let existing ← select fun db => (truthy proposalId).bind fun p =>
      db.rooms.find? fun r => r.proposalId == some p
    match existing with
    | some room => return room.roomId
    | none =>
      let roomId := js "room-" ++ uuid
      attempt (do
        begin
        execute fun db =>
          let clashes := db.rooms.any fun r =>
            r.roomId == roomId || (r.proposalId.isSome && r.proposalId == proposalId)
          let orphan := proposalId.any fun p => (db.proposal p).isNone
          if clashes || orphan then none else some { db with rooms := db.rooms ++ [⟨roomId, proposalId⟩] }
        match truthy proposalId with
        | some p =>
          let _ ← update (updateProposals (fun r => r.proposalId == p) fun r =>
            { r with roomId := some roomId, legacyRoomId := r.legacyRoomId.orElse fun _ => some roomId })
          commit
        | none => commit
        return roomId)
        fun e => do
          -- `Connection.rollback` does nothing when no transaction is open
          if ← inTransaction then rollback
          raise e

/-- `post_message`. -/
def postMessage (xAgentKey roomId content : Str) (senderRole : Option Str) (metadata : Dict)
    (uuid : Str) : Sql Str := do
  match env.roomKeys xAgentKey with
  | none => raise (.http 401 (js "invalid_agent_key"))
  | some role => storeRoomMessage roomId content ((truthy senderRole).getD role) metadata uuid

end Concordia.Gateway
