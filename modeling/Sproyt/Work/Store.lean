import Sproyt.Db.WorkItems
import Sproyt.Domain.Json

/-!
# Work items

A work item is a case that was registered from a message. Heart runs its review; the tasks of
the review are shown in the chat and decided there, the requester adds to the case while the
review is open, a planned case can be exported to GitHub, and once the review is over its
status is changed by hand.
-/

namespace Sproyt

/-! ### Tables -/

structure SupplementRow where
  id : Uuid
  workItemId : Uuid
  actorId : UserId
  requestId : Uuid
  expectedRevision : Int
  body : String
deriving DecidableEq

structure Destination where
  installation : Int
  repositoryId : Int
  repository : String
  botLogin : String
deriving DecidableEq

structure Issue where
  id : Int
  number : Int
  url : String
deriving DecidableEq

inductive Disposition
  | publish
  | skip
deriving DecidableEq, Repr

inductive ExportStatus
  | pending
  | sending
  | uncertain
  | sent
  | skipped
  | blocked
deriving DecidableEq, Repr

/-- The columns of the destination are written together, with the revision of the binding they
are taken from; so are those of the issue. -/
structure ExportRow where
  workItemId : Uuid
  taskId : Uuid
  actorId : UserId
  requestId : Uuid
  expectedRevision : Int
  disposition : Disposition
  title : String
  body : String
  target : Option (Destination × Int)
  marker : String
  status : ExportStatus
  createdAt : Int
  issue : Option Issue := none
  leaseUntil : Int := 0
  leaseToken : Option Uuid := none
  attemptedAt : Option Int := none
deriving DecidableEq

inductive ChangeStatus
  | pending
  | waiting
  | completed
  | cancelled
  | failed
deriving DecidableEq, Repr

/-- What `change_status` stores with a status change, all at once. -/
structure StatusRecord where
  requestId : Uuid
  revision : Int
  status : String
  internalNote : String
  publicFeedback : String
  noChange : Bool
  result : Json
deriving DecidableEq

structure StatusChangeRow where
  id : Uuid
  workItemId : Uuid
  actorId : UserId
  channelId : ChannelId
  routeId : Uuid
  sourceTaskId : Uuid
  sourceMessageId : MessageId
  requestId : Uuid
  startRevision : Int
  createdAt : Int
  heartInstanceId : Option Uuid := none
  taskId : Option Uuid := none
  messageId : Option MessageId := none
  status : ChangeStatus := .pending
  leaseUntil : Int := 0
  leaseToken : Option Uuid := none
  decision : Option StatusRecord := none
deriving DecidableEq

structure StatusHistoryRow where
  id : Uuid
  changeId : Uuid
  workItemId : Uuid
  revision : Int
  actorId : UserId
  fromStatus : String
  toStatus : String
  internalNote : String
  publicFeedback : String
  createdAt : Int
deriving DecidableEq

structure PublicationRow where
  workItemId : Uuid
  messageId : MessageId
  channelId : ChannelId
deriving DecidableEq

/-! ### Configuration -/

structure ApplicationRow where
  id : Uuid
  enabled : Bool

structure BindingRow where
  id : Uuid
  enabled : Bool

structure ProcessorRow where
  applicationId : Uuid
  userId : UserId
  canReview : Bool
  canExport : Bool

structure ProcessRoleRow where
  applicationId : Uuid
  userId : UserId
  processRole : String

structure TaskRouteRow where
  id : Uuid
  bindingId : Uuid
  channelId : ChannelId
  taskKey : String
  processRole : String
  enabled : Bool

structure GithubBindingRow where
  applicationId : Uuid
  target : Destination
  enabled : Bool
  exportTasksEnabled : Bool
  revision : Int

/-- The tables that say which applications, processes and people are admitted. -/
structure WorkConfig where
  applications : List ApplicationRow
  bindings : List BindingRow
  bindingApplications : List (Uuid × Uuid)
  processors : List ProcessorRow
  processRoles : List ProcessRoleRow
  taskRoutes : List TaskRouteRow
  githubBindings : List GithubBindingRow

structure WorkDb where
  chat : Db
  config : WorkConfig
  supplements : List SupplementRow
  githubExports : List ExportRow
  statusChanges : List StatusChangeRow
  statusHistory : List StatusHistoryRow
  publications : List PublicationRow

abbrev WorkSql := Txn WorkDb RepositoryError

def onChat {α : Type} (t : Sql α) : WorkSql α :=
  Txn.onPart WorkDb.chat (fun chat db => { db with chat }) t

@[simp] theorem onChat_ok {α : Type} {t : Sql α} {db db' : WorkDb} {a : α} :
    (onChat t).run db = .ok (a, db') ↔
      ∃ chat, t.run db.chat = .ok (a, chat) ∧ { db with chat } = db' :=
  Txn.onPart_ok

namespace WorkDb

variable (db : WorkDb)

def items : List WorkItemRow := db.chat.workItems

def tasks : List WorkItemTaskRow := db.chat.workItemTasks

def item? (id : Uuid) : Option WorkItemRow := db.chat.workItem? id

/-- `update work_items set …`. -/
def mapItems (f : WorkItemRow → WorkItemRow) : WorkDb :=
  { db with chat := { db.chat with workItems := db.items.map f } }

/-- `update work_item_tasks set …`. -/
def mapTasks (f : WorkItemTaskRow → WorkItemTaskRow) : WorkDb :=
  { db with chat := { db.chat with workItemTasks := db.tasks.map f } }

def mapExports (f : ExportRow → ExportRow) : WorkDb :=
  { db with githubExports := db.githubExports.map f }

def mapChanges (f : StatusChangeRow → StatusChangeRow) : WorkDb :=
  { db with statusChanges := db.statusChanges.map f }

/-! ### Access -/

def isActive (channel : ChannelId) (user : UserId) : Bool :=
  db.chat.channelMemberships.any fun r =>
    r.channelId = channel ∧ r.userId = user ∧ r.role ≠ .observer

def applicationEnabled (application : Uuid) : Bool :=
  db.config.applications.any fun r => r.id = application ∧ r.enabled

def mayReview (application : Uuid) (user : UserId) : Bool :=
  (db.config.processors.any fun r =>
    r.applicationId = application ∧ r.userId = user ∧ r.canReview) &&
  db.config.processRoles.any fun r =>
    r.applicationId = application ∧ r.userId = user ∧ r.processRole = "product-handler"

/-- The condition of `decide`'s query on the task and its work item. -/
def mayDecide (actor : UserId) (task : WorkItemTaskRow) (item : WorkItemRow) : Bool :=
  task.assigneeId = actor && db.isActive task.channelId actor &&
  match task.nodeId with
  | .provideInformation =>
    task.assigneeId = item.requestedBy && task.channelId = item.sourceChannelId
  | .review | .followupReview | .publishGithub =>
    task.assigneeId = item.reviewerId && task.channelId = item.taskChannelId &&
      db.mayReview item.applicationId task.assigneeId
  | .other _ => false

def taskRights (actor : UserId) (id : Uuid) (message : MessageId) :
    Option (WorkItemTaskRow × WorkItemRow) :=
  (db.tasks.find? fun t => t.id = id ∧ t.messageId = message).bind fun task =>
    (db.item? task.workItemId).bind fun item =>
      if db.mayDecide actor task item then some (task, item) else none

/-- The requester, as long as the requester is active where the case comes from. -/
def supplementRights (actor : UserId) (id : Uuid) (message : MessageId) : Option WorkItemRow :=
  (db.item? id).bind fun item =>
    if item.sourceMessageId = message ∧ item.requestedBy = actor ∧
        db.isActive item.sourceChannelId item.requestedBy then some item
    else none

/-- The export process of the task, and whether the actor may send. -/
def exportRights (actor : UserId) (id : Uuid) (message : MessageId) :
    Option (WorkItemTaskRow × WorkItemRow × ExportProcessRow × Bool) :=
  (db.tasks.find? fun t => t.id = id ∧ t.messageId = message ∧ t.nodeId = .publishGithub).bind
    fun task =>
      (db.item? task.workItemId).bind fun item =>
        (db.chat.workItemExportProcesses.find? fun x => x.workItemId = item.id ∧
          x.assigneeId = task.assigneeId ∧ x.channelId = task.channelId).bind fun process =>
          (db.config.processors.find? fun p => p.applicationId = item.applicationId ∧
            p.userId = actor ∧ p.canReview).bind fun processor =>
            if task.assigneeId = actor ∧ db.isActive task.channelId actor ∧
                db.mayReview item.applicationId actor then
              some (task, item, process, processor.canExport)
            else none

/-- The route of a kind of task, where the process of the item asks for its product handler. -/
def taskRoute (item : WorkItemRow) (taskKey : String) : Option TaskRouteRow :=
  db.config.taskRoutes.find? fun r => r.bindingId = item.bindingId ∧ r.taskKey = taskKey ∧
    r.processRole = "product-handler" ∧ r.enabled

def exportRouted (item : WorkItemRow) : Bool :=
  (db.taskRoute item "publish-github").any fun r => r.channelId = item.taskChannelId

def manualStatuses : List String := ["planned", "in_development", "resolved", "rejected"]

/-- `ROUTE`: where the actor changes the status of the item, once its review is over. -/
def route (actor : UserId) (id : Uuid) : Option TaskRouteRow :=
  (db.item? id).bind fun item =>
    (db.taskRoute item "change-status").bind fun r =>
      if item.processStatus = .completed ∧ item.status ∈ manualStatuses ∧
          db.applicationEnabled item.applicationId ∧
          (db.config.bindings.any fun b => b.id = item.bindingId ∧ b.enabled) ∧
          (item.bindingId, item.applicationId) ∈ db.config.bindingApplications ∧
          db.chat.hasChannel r.channelId ∧ db.isActive r.channelId actor ∧
          db.mayReview item.applicationId actor then some r
      else none

/-! ### Reads -/

/-- The supplement given last, by the revision it was given for. -/
def latestSupplement (id : Uuid) : Option Uuid :=
  ((db.supplements.filter (·.workItemId = id)).foldl
    (fun best s => if best.all fun b =>
      b.expectedRevision < s.expectedRevision then some s else best)
    none).map (·.id)

/-- `OPEN_REVIEW`. -/
def openReview (item : WorkItemRow) : Bool :=
  item.processStatus = .waiting && (item.status = "new" || item.status = "reviewing") &&
  (db.tasks.any fun t => t.workItemId = item.id ∧
    (t.nodeId = .review ∨ t.nodeId = .followupReview) ∧
    t.status = .pending ∧ t.deliveryReady ∧ t.decision.requestId = none) &&
  db.supplements.countP (·.workItemId = item.id) < 100

def exportTarget (item : WorkItemRow) : Option GithubBindingRow :=
  (db.config.githubBindings.find? fun b => b.applicationId = item.applicationId ∧ b.enabled ∧
    b.exportTasksEnabled).bind fun b =>
      if db.applicationEnabled item.applicationId ∧ db.exportRouted item then some b else none

end WorkDb

end Sproyt
