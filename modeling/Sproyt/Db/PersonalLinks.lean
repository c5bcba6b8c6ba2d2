import Sproyt.Db.Posting

/-!
# Saved messages

A saved message becomes a link in the log of its owner's personal space.
-/

namespace Sproyt

structure LinkEnv where
  channelId : ChannelId
  messageId : MessageId
  linkId : Uuid
  now : Time

/-- `personal_link_body`, before it is validated. -/
def personalLinkText (source : ChatMessage) : String :=
  let link := "/?channel=" ++ source.channelId.uuid.hyphenated ++
    "&message=" ++ source.id.uuid.hyphenated ++ "&sequence=" ++ toString source.sequence
  let thread := match source.parentMessageId with
    | some parent => "&thread=" ++ parent.uuid.hyphenated
    | none => ""
  "[[[Lagra melding](" ++ link ++ thread ++ ")]]"

def Db.saveable? (db : Db) (owner : UserId) (source : MessageId) : Option ChatMessage :=
  db.messages.find? fun r => r.id = source ∧ r.deletedAt = none ∧ db.inChannel r.channelId owner

def Db.hasLiveLink (db : Db) (owner : UserId) (source : MessageId) : Bool :=
  db.personalSavedLinks.any fun r => r.ownerId = owner ∧ r.sourceMessageId = source ∧
    r.logMessageId.any fun m => db.messages.any fun x => x.id = m ∧ x.deletedAt = none

/-- `insert into personal_saved_links … on conflict(owner_id, source_message_id) do update`. -/
def upsertLink (row : PersonalSavedLinkRow) (db : Db) : Db :=
  if db.personalSavedLinks.any fun r =>
      r.ownerId = row.ownerId ∧ r.sourceMessageId = row.sourceMessageId then
    { db with personalSavedLinks := db.personalSavedLinks.map fun r =>
        if r.ownerId = row.ownerId ∧ r.sourceMessageId = row.sourceMessageId then
          { r with logMessageId := row.logMessageId, savedAt := row.savedAt }
        else r }
  else
    { db with personalSavedLinks := db.personalSavedLinks ++ [row] }

/-- Write the log entry. The text of a link passes validation, and a panic in `expect` would
end the transaction like any other failure. -/
def logLink (owner : UserId) (channel : ChannelId) (source : ChatMessage) (env : LinkEnv) :
    Sql (Option MessageId) := do
  let body ← Txn.ofExcept (storageText (MessageBody.new (personalLinkText source)))
  let sequence ← Sql.bumpSequence channel
  let sequence ← Sql.fetchOne sequence
  let name ← senderName owner
  Sql.insertMessage
    ⟨env.messageId, channel, none, owner, name, body, sequence, env.now, none, none⟩
  Txn.write (upsertLink
    ⟨env.linkId, owner, source.channelId, source.id, some env.messageId, env.now⟩)
  pure (some env.messageId)

def savePersonalLink (owner : UserId) (sourceId : MessageId) (env : LinkEnv) :
    Sql (Option MessageId) := do
  let channel ← openPersonalSpace owner env.channelId
  let source ← Txn.read fun db => db.saveable? owner sourceId
  let source ← Txn.demand source .notFound
  if ← Txn.read fun db => db.hasLiveLink owner sourceId then
    pure none
  else
    logLink owner channel.id source env

end Sproyt
