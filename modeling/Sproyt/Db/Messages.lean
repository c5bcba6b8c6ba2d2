import Sproyt.Db.Channels
import Sproyt.Db.Notifications
import Sproyt.Domain.Words

/-!
# Messages

Sending, editing, deleting and reacting. Every operation here is one transaction.
-/

namespace Sproyt

open Txn

/-! ### What a body refers to -/

def mentionHandle (host : Host) (value : List Char) : List Char :=
  (value.filter fun c => host.isAlphanumeric c || c == '_' || c == '-' || c == '.').flatMap
    host.toLowercase

def mentionHandles (host : Host) (body : String) : List (List Char) :=
  ((splitWhitespace body.toList).filterMap fun word =>
    match word with
    | '@' :: rest => some (mentionHandle host rest)
    | _ => none).filter (· ≠ [])

def mediaMarker : List Char := "[[media:".toList

def afterMarker : List Char → Option (List Char)
  | [] => none
  | c :: cs =>
    if mediaMarker.isPrefixOf (c :: cs) then some ((c :: cs).drop mediaMarker.length)
    else afterMarker cs

/-- `MediaId::new`. -/
def parseMediaId (host : Host) (value : List Char) : Except TextValidationError MediaId :=
  let value := trim (String.ofList value)
  if value = "" then .error (.empty "media id")
  else match host.parseUuid value with
    | some uuid => .ok ⟨uuid⟩
    | none => .error (.invalidUuid "media id")

/-- The loop of `media_ids_from_body`. Each turn takes more than a marker off the text, so
the length of the text is enough fuel. -/
def mediaIdsLoop (host : Host) :
    Nat → List Char → List MediaId → Except RepositoryError (List MediaId)
  | 0, _, ids => .ok ids
  | fuel + 1, rest, ids =>
    match afterMarker rest with
    | none => .ok ids
    | some rest =>
      if rest.all (· ≠ '|') then .error .conflict
      else do
        let id ← storageText (parseMediaId host (rest.takeWhile (· ≠ '|')))
        if id ∈ ids then .error .conflict
        else mediaIdsLoop host fuel ((rest.dropWhile (· ≠ '|')).drop 1) (ids ++ [id])

def mediaIdsFromBody (host : Host) (body : MessageBody) :
    Except RepositoryError (List MediaId) := do
  let ids ← mediaIdsLoop host body.text.toList.length body.text.toList []
  if 10 < ids.length then .error .conflict else .ok ids

/-! ### Rows that hang on a message -/

def Db.mentioned (db : Db) (host : Host) (m : ChatMessage) : List UserRow :=
  db.users.filter fun u => u.kind = .human ∧ db.inChannel m.channelId u.id ∧
    u.handle.any fun h => mentionHandle host h.toList ∈ mentionHandles host m.body.text

/-- `persist_mentions_sqlite`. -/
def persistMentions (host : Host) (m : ChatMessage) : Sql Unit :=
  write fun db =>
    { db with messageMentions := db.messageMentions ++
        ((db.mentioned host m).filter fun u => !db.messageMentions.any fun r =>
          r.messageId = m.id ∧ r.mentionedUserId = u.id).map fun u => ⟨m.id, u.id⟩ }

/-- Attach one object: the sender's own, in the same channel, not attached yet. -/
def attachMedia (m : ChatMessage) (entry : MediaId × Nat) : Sql Unit := do
  let free ← read fun db =>
    (db.mediaObjects.any fun r =>
      r.id = entry.1 ∧ r.ownerId = m.senderId ∧ r.channelId = m.channelId) &&
    !db.messageAttachments.any fun r => r.mediaId = entry.1
  ensure (free = true) .permissionDenied
  Sql.insert
    (fun db => db.messageAttachments.any fun r => r.messageId = m.id ∧ r.position = entry.2)
    (fun _ => true)
    fun db =>
      { db with messageAttachments := db.messageAttachments ++ [⟨m.id, entry.1, entry.2⟩] }

/-- `persist_attachments_sqlite`. -/
def persistAttachments (host : Host) (m : ChatMessage) : Sql Unit := do
  let ids ← ofExcept (mediaIdsFromBody host m.body)
  forEach (attachMedia m) ids.zipIdx

/-! ### append_message -/

/-- The errors of the agent subsystem's hooks. They do not answer that a row is missing. -/
inductive HookError
  | quota
  | conflict
  | permissionDenied
  | storage (text : String)

def HookError.toRepositoryError : HookError → RepositoryError
  | .quota => .quota
  | .conflict => .conflict
  | .permissionDenied => .permissionDenied
  | .storage text => .storage text

/-- A hook: it writes tables of the agent subsystem only. -/
def runHook (answer : Except HookError Unit) : Sql Unit :=
  ofExcept (answer.mapError HookError.toRepositoryError)

/-- What a call draws from its surroundings: the generated id, the clock, and the answers
of the agent subsystem. -/
structure SendEnv where
  id : MessageId
  now : Time
  markMessage : Except HookError Unit
  enqueueAgents : Except HookError Unit
  authorizeAgent : Except RepositoryError Unit
  finalizeImage : Except RepositoryError Unit

def SendEnv.quiet (id : Nat) (now : Time) : SendEnv :=
  ⟨⟨BitVec.ofNat 128 id⟩, now, .ok (), .ok (), .ok (), .ok ()⟩

/-- `validate_thread_parent_sqlite`: replies go to live top-level messages of the channel. -/
def validateThreadParent (c : ChannelId) : Option MessageId → Sql Unit
  | none => pure ()
  | some parent => do
    let row ← read fun db => db.messages.find? fun r => r.id = parent ∧ r.channelId = c
    let row ← demand row .notFound
    ensure (row.parentMessageId = none ∧ row.deletedAt = none) .conflict

def requireSender (c : ChannelId) (actor : UserId) : Sql Unit := do
  let role ← read fun db => db.channelRole? c actor
  ensure (Policy.canSendToChannel role) .permissionDenied

/-- `select display_name from users where id = ?`, with `fetch_one`. -/
def senderName (actor : UserId) : Sql DisplayName := do
  let row ← read fun db => db.user? actor
  let row ← Sql.fetchOne row
  pure row.displayName

/-- Insert a message and the rows that go with it, from the mentions to the agents' queue. -/
def storeMessage (host : Host) (message : ChatMessage) (env : SendEnv) : Sql ChatMessage := do
  Sql.insertMessage message
  persistMentions host message
  runHook env.markMessage
  persistAttachments host message
  enqueueMessage message
  runHook env.enqueueAgents
  pure message

/-- The part that `append_message` and `append_message_idempotent` share. -/
def appendChecked (host : Host) (command : SendMessage) (env : SendEnv) : Sql ChatMessage := do
  validateThreadParent command.channelId command.parentMessageId
  let sequence ← Sql.bumpSequence command.channelId
  let sequence ← demand sequence .notFound
  let name ← senderName command.actor
  storeMessage host
    ⟨env.id, command.channelId, command.parentMessageId, command.actor, name, command.body,
      sequence, env.now, none, none⟩ env

def appendMessage (host : Host) (command : SendMessage) (env : SendEnv) : Sql ChatMessage := do
  requireSender command.channelId command.actor
  appendChecked host command env

/-! ### append_message_idempotent -/

/-- Requests that the agent subsystem authorizes in place of the channel role. -/
def isAgentRequest (requestId : String) : Bool :=
  ["circle-agent-image:", "circle-place-roll:", "circle-chat-agent:"].any fun p =>
    p.toList.isPrefixOf requestId.toList

def isImageRequest (requestId : String) : Bool :=
  "circle-agent-image:".toList.isPrefixOf requestId.toList

def authorizeSend (command : SendMessage) (requestId : String) (env : SendEnv) : Sql Unit :=
  if isAgentRequest requestId then ofExcept env.authorizeAgent
  else requireSender command.channelId command.actor

def Db.receipt? (db : Db) (principal : UserId) (requestId : String) : Option CommandReceiptRow :=
  db.commandReceipts.find? fun r => r.principalId = principal ∧ r.requestId = requestId

def Db.reserved (db : Db) (principal : UserId) (requestId : String) : Db :=
  { db with commandReceipts := db.commandReceipts ++ [⟨principal, requestId, none⟩] }

def Db.settled (db : Db) (principal : UserId) (requestId : String) (m : MessageId) : Db :=
  { db with commandReceipts := db.commandReceipts.map fun r =>
      if r.principalId = principal ∧ r.requestId = requestId then
        { r with messageId := some m }
      else r }

/-- `insert into command_receipts … on conflict(principal_id, request_id) do nothing`. -/
def reserveReceipt (principal : UserId) (requestId : String) : Sql Bool := do
  ensure (1 ≤ requestId.length ∧ requestId.length ≤ 128)
    (Sql.checkViolation "length(request_id) between 1 and 128")
  Sql.insertOrIgnore (fun db => (db.receipt? principal requestId).isSome) (fun _ => false)
    (fun db => db.hasUser principal) fun db => db.reserved principal requestId

def Db.receiptMessage? (db : Db) (principal : UserId) (requestId : String) :
    Option ChatMessage :=
  ((db.receipt? principal requestId).bind (·.messageId)).bind db.message?

/-- Is the stored message the one the command asks for? The body compared is the current
one, after edits and deletion. -/
def payloadMatches (message : ChatMessage) (command : SendMessage) : Bool :=
  message.channelId = command.channelId ∧ message.parentMessageId = command.parentMessageId ∧
    message.body = command.body

/-- The answer to a request id that was used before. The statement does not select the
edit and deletion times, so they come back empty. -/
def replayReceipt (command : SendMessage) (requestId : String) : Sql ChatMessage := do
  let row ← read fun db => db.receiptMessage? command.actor requestId
  let message ← demand row (.storage "idempotency receipt has no message")
  ensure (payloadMatches message command = true) .conflict
  pure { message with editedAt := none, deletedAt := none }

def settleReceipt (principal : UserId) (requestId : String) (m : MessageId) : Sql Unit :=
  write fun db => db.settled principal requestId m

/-- `agent_images::finalize_sqlite`, for image requests only. -/
def finalizeRequest (requestId : String) (env : SendEnv) : Sql Unit :=
  if isImageRequest requestId then ofExcept env.finalizeImage else pure ()

def sendReserved (host : Host) (command : SendMessage) (requestId : String) (env : SendEnv) :
    Sql ChatMessage := do
  authorizeSend command requestId env
  let message ← appendChecked host command env
  settleReceipt message.senderId requestId message.id
  finalizeRequest requestId env
  pure message

def appendMessageIdempotent (host : Host) (command : SendMessage) (requestId : String)
    (env : SendEnv) : Sql ChatMessage := do
  if ← reserveReceipt command.actor requestId then
    sendReserved host command requestId env
  else
    replayReceipt command requestId

/-! ### edit_message and delete_message -/

def refuseMessage {α : Type} (id : MessageId) : Sql α := do
  let present ← read fun db => db.hasMessage id
  fail (if present then .permissionDenied else .notFound)

def replaceMessage (message : ChatMessage) : Sql Unit :=
  write fun db =>
    { db with messages := db.messages.map fun r => if r.id = message.id then message else r }

def deleteMentions (id : MessageId) : Sql Unit :=
  write fun db =>
    { db with messageMentions := db.messageMentions.filter fun r => r.messageId ≠ id }

def storeEdit (host : Host) (message : ChatMessage) : Sql ChatMessage := do
  replaceMessage message
  deleteMentions message.id
  persistMentions host message
  enqueueMessage message
  pure message

def editMessage (host : Host) (command : EditMessage) (now : Time) : Sql ChatMessage := do
  match ← read fun db => db.messages.find? fun r =>
      r.id = command.messageId ∧ r.senderId = command.actor ∧ r.deletedAt = none with
  | none => refuseMessage command.messageId
  | some row => storeEdit host { row with body := command.body, editedAt := some now }

def tombstone : MessageBody := ⟨"Meldinga er sletta.", by decide, by decide⟩

/-- May the actor delete this message? Its sender may, those who moderate its channel may,
and in open channels of a circle those who moderate the circle. -/
def Db.mayDelete (db : Db) (actor : UserId) (m : ChatMessage) : Bool :=
  m.senderId = actor ∨ db.channels.any fun c => c.id = m.channelId ∧
    db.channelMemberships.any fun r => r.channelId = c.id ∧ r.userId = actor ∧
      (r.role = .owner ∨ r.role = .moderator ∨
        (c.kind ≠ .privateChannel ∧ r.role = .member ∧ c.circleId.any fun k =>
          db.circleMemberships.any fun x => x.circleId = k ∧ x.userId = actor ∧
            (x.role = .owner ∨ x.role = .moderator)))

def storeDeletion (message : ChatMessage) : Sql ChatMessage := do
  replaceMessage message
  deleteMentions message.id
  write fun db =>
    { db with messageReactions := db.messageReactions.filter fun r => r.messageId ≠ message.id }
  write fun db =>
    { db with notificationOutbox :=
        db.notificationOutbox.filter fun r => r.messageId ≠ message.id }
  pure message

def deleteMessage (command : DeleteMessage) (now : Time) : Sql ChatMessage := do
  match ← read fun db => db.messages.find? fun r =>
      r.id = command.messageId ∧ db.mayDelete command.actor r with
  | none => refuseMessage command.messageId
  | some row =>
    storeDeletion
      { row with body := tombstone, editedAt := none, deletedAt := some (row.deletedAt.getD now) }

/-! ### toggle_message_reaction -/

structure MessageReactionChange where
  messageId : MessageId
  channelId : ChannelId
  userId : UserId
  emoji : String
  added : Bool
  count : Nat

/-- `insert into message_reactions … on conflict do nothing`. -/
def Sql.insertReaction (m : MessageId) (actor : UserId) (emoji : String) : Sql Bool :=
  Sql.insertOrIgnore
    (fun db => db.messageReactions.any fun r =>
      r.messageId = m ∧ r.userId = actor ∧ r.emoji = emoji)
    (fun _ => false) (fun db => db.hasMessage m && db.hasUser actor)
    fun db => { db with messageReactions := db.messageReactions ++ [⟨m, actor, emoji⟩] }

def removeUnless (inserted : Bool) (m : MessageId) (actor : UserId) (emoji : String) : Sql Unit :=
  if inserted then pure ()
  else write fun db =>
    { db with messageReactions := db.messageReactions.filter fun r =>
        !(r.messageId = m ∧ r.userId = actor ∧ r.emoji = emoji) }

def toggleMessageReaction (actor : UserId) (m : MessageId) (emoji : String) :
    Sql MessageReactionChange := do
  let row ← read fun db => db.messages.find? fun r =>
    r.id = m ∧ r.deletedAt = none ∧ db.inChannel r.channelId actor
  let message ← demand row .permissionDenied
  let added ← Sql.insertReaction m actor emoji
  removeUnless added m actor emoji
  let count ← read fun db =>
    (db.messageReactions.filter fun r => r.messageId = m ∧ r.emoji = emoji).length
  pure ⟨m, message.channelId, actor, emoji, added, count⟩

end Sproyt
