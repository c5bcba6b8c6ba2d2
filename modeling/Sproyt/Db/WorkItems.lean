import Sproyt.Db.Posting

/-!
# Work item tasks

`WorkItems::project` copies a task that Heart reports into the chat: the first time it posts
a message to the task's channel, later it only records how the task went.
-/

namespace Sproyt

open Txn

/-- The status Heart reports. Texts the table does not admit are kept apart. -/
inductive HeartStatus
  | known (status : TaskStatus)
  | other (text : String)
deriving DecidableEq, Repr

structure HeartTask where
  id : Uuid
  nodeId : TaskNode
  assigneeId : UserId
  status : HeartStatus

/-- What a projection draws from its surroundings. `resultMatches` says whether the result
Heart sent along equals `completion_result` of the stored decision. -/
structure ProjectEnv where
  messageId : MessageId
  now : Time
  resultMatches : Bool

def asStorage (context : String) : RepositoryError → RepositoryError
  | .storage text => .storage (context ++ text)
  | .conflict => .storage (context ++ "UNIQUE constraint failed")
  | .permissionDenied => .storage (context ++ "FOREIGN KEY constraint failed")
  | .quota => .storage (context ++ "SPROYT_MEDIA_QUOTA")
  | .notFound => .storage (context ++ "not found")

def Db.holdsTaskLease (db : Db) (item token : Uuid) (channel : ChannelId) (task : HeartTask) :
    Bool :=
  match task.nodeId with
  | .publishGithub =>
    db.workItemExportProcesses.any fun r => r.workItemId = item ∧ r.leaseToken = some token ∧
      r.channelId = channel ∧ r.assigneeId = task.assigneeId ∧ r.waiting
  | .provideInformation =>
    db.workItems.any fun r => r.id = item ∧ r.syncLeaseToken = some token ∧
      r.sourceChannelId = channel ∧ r.requestedBy = task.assigneeId ∧
      r.definitionVersion = .v110
  | .review | .followupReview =>
    db.workItems.any fun r => r.id = item ∧ r.syncLeaseToken = some token ∧
      r.taskChannelId = channel ∧ r.reviewerId = task.assigneeId ∧
      (task.nodeId = .review ∨ r.definitionVersion = .v110)
  | .other _ => false

def Db.workItem? (db : Db) (item : Uuid) : Option WorkItemRow :=
  db.workItems.find? fun r => r.id = item

def checksCompletion (version : DefinitionVersion) (task : HeartTask) : Bool :=
  version = .v110 ∨ task.nodeId = .publishGithub

def storedStatus : HeartStatus → Except RepositoryError TaskStatus
  | .known status => .ok status
  | .other _ => .error (Sql.checkViolation "status in ('pending','completed','cancelled')")

def settleWorkItem (item : Uuid) (task : HeartTask) (decision : TaskDecision)
    (r : WorkItemRow) : WorkItemRow :=
  if r.id = item ∧ task.status = .known .completed then
    match decision.category, decision.priority, decision.status with
    | some category, some priority, some status =>
      { r with category := some category, priority := some priority, status := status }
    | _, _, _ => if task.nodeId = .provideInformation then { r with status := "reviewing" } else r
  else r

def updateTask (item : Uuid) (task : HeartTask) (version : DefinitionVersion)
    (row : WorkItemTaskRow) (env : ProjectEnv) : Sql (Option MessageId) := do
  ensure (row.status = .pending ∨ task.status = .known row.status) .conflict
  ensure (task.status = .known .completed ∧ checksCompletion version task →
    row.decision.requestId.isSome ∧ env.resultMatches) .conflict
  let status ← ofExcept (storedStatus task.status)
  write fun db =>
    { db with workItemTasks := db.workItemTasks.map fun r =>
        if r.id = task.id ∧ r.workItemId = item then
          { r with
            status := status
            deliveryReady := r.deliveryReady || decide (status = .completed) }
        else r }
  write fun db =>
    { db with workItems := db.workItems.map (settleWorkItem item task row.decision) }
  pure none

def predecessor : TaskNode → Option TaskNode
  | .provideInformation => some .review
  | .followupReview => some .provideInformation
  | _ => none

def Db.predecessorDone (db : Db) (item : Uuid) (node : TaskNode) : Bool :=
  (predecessor node).all fun previous => db.workItemTasks.any fun r => r.workItemId = item ∧
    r.nodeId = previous ∧ r.status = .completed ∧
    (previous ≠ .review ∨ r.decision.status = some "needs_information")

def heartName : DisplayName := ⟨"Heart", by decide⟩

def heartBot (host : Host) (item : Uuid) : UserId :=
  ⟨host.nameUuid ("sproyt-work-item:" ++ item.hyphenated)⟩

def insertHeartUser (bot : UserId) : Sql Bool :=
  mapError (asStorage "insert Heart user: ")
    (Sql.insertOrIgnore (fun db => db.hasUser bot) (fun _ => false) (fun _ => true)
      fun db => { db with users := db.users ++ [⟨bot, .agent, heartName, none⟩] })

/-- `insert into agent_profiles … select … from work_items … on conflict(agent_id) do nothing`. -/
def insertHeartProfile (bot : UserId) (item : WorkItemRow) : Sql Bool :=
  let identity := "work-item-review:" ++ item.id.hyphenated
  mapError (asStorage "insert Heart profile: ")
    (Sql.insertOrIgnore (fun db => db.agentProfiles.any fun p => p.agentId = bot)
      (fun db => db.agentProfiles.any fun p =>
        p.provider = "heart-work-items" ∧ p.serviceIdentity = identity)
      (fun db => db.hasUser bot && db.hasUser item.requestedBy)
      fun db =>
        { db with agentProfiles := db.agentProfiles ++
            [⟨bot, item.requestedBy, "heart-work-items", identity, none, none⟩] })

def insertTask (row : WorkItemTaskRow) : Sql Unit :=
  mapError (asStorage "insert task receipt: ")
    (Sql.insert
      (fun db => db.workItemTasks.any fun r => r.id = row.id ∨ r.messageId = row.messageId ∨
        (r.workItemId = row.workItemId ∧ r.nodeId = row.nodeId))
      (fun db => db.workItems.any (fun r => r.id = row.workItemId) && db.hasMessage row.messageId &&
        db.hasChannel row.channelId && db.hasUser row.assigneeId)
      fun db => { db with workItemTasks := db.workItemTasks ++ [row] })

def storeTask (item : Uuid) (task : HeartTask) (message : ChatMessage) :
    Sql (Option MessageId) := do
  mapError (asStorage "insert task message: ") (Sql.insertMessage message)
  enqueueMessage message
  let status ← ofExcept (storedStatus task.status)
  insertTask ⟨task.id, item, message.id, message.channelId, task.assigneeId, task.nodeId, status,
    true, .undecided⟩
  pure (some message.id)

/-- A task that the chat has not seen: post it. -/
def postTask (host : Host) (item : WorkItemRow) (channel : ChannelId) (task : HeartTask)
    (env : ProjectEnv) : Sql (Option MessageId) := do
  ensure (¬ (checksCompletion item.definitionVersion task ∧
    task.status = .known .completed)) .conflict
  let follows ← read fun db => db.predecessorDone item.id task.nodeId
  ensure (follows = true) .conflict
  let sequence ← Sql.bumpSequence channel
  let sequence ← Sql.fetchOne sequence
  let bot := heartBot host item.id
  let _ ← insertHeartUser bot
  let _ ← insertHeartProfile bot item
  let body ← ofExcept
    (storageText (MessageBody.new ("[[work-item-task:" ++ task.id.hyphenated ++ "]]")))
  storeTask item.id task
    ⟨env.messageId, channel, none, bot, heartName, body, sequence, env.now, none, none⟩

def projectTask (host : Host) (item token : Uuid) (channel : ChannelId) (task : HeartTask)
    (env : ProjectEnv) : Sql (Option MessageId) := do
  let leased ← read fun db => db.holdsTaskLease item token channel task
  ensure (leased = true) .conflict
  let row ← read fun db => db.workItem? item
  let workItem ← Sql.fetchOne row
  match ← read fun db =>
      db.workItemTasks.find? fun r => r.id = task.id ∧ r.workItemId = item with
  | some row => updateTask item task workItem.definitionVersion row env
  | none => postTask host workItem channel task env

end Sproyt
