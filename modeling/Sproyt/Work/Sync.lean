import Sproyt.Lib.Run
import Sproyt.Work.Commands

/-!
# Work items and Heart

Replicas follow the processes in Heart. A pass leases a work item (or a status change) under a
token of its own, reads what it needs, asks Heart, and writes what it has learned one
transaction at a time. The lease can run out at any point, and another pass can take over.
-/

namespace Sproyt

open Txn

structure ReportedTask extends HeartTask where
  instanceId : Uuid
  resultMetadata : Option Json

/-- What the calls to Heart for an instance came to: the instance and its tasks. -/
structure HeartReply where
  view : Json
  tasks : List ReportedTask

def Json.ofOption : Option String → Json
  | some text => .string text
  | none => .null

/-- What a decision is reported as. The note of an export is a JSON text itself. -/
def completionResult (decode : String → Option Json) (node : TaskNode) (d : TaskDecision) : Json :=
  match node with
  | .publishGithub => (d.note.bind decode).getD .null
  | .provideInformation => .object [("information", .string (d.note.getD ""))]
  | _ => .object [("category", .ofOption d.category), ("priority", .ofOption d.priority),
      ("question", .string (d.note.getD "")), ("status", .ofOption d.status)]

/-! ### The review of a work item -/

def heartState (view : Json) : Option ProcessStatus :=
  match (view.get "status").asStr with
  | some "running" => some .waiting
  | some "waiting" => some .waiting
  | some "completed" => some .completed
  | some "cancelled" => some .cancelled
  | some "failed" => some .failed
  | _ => none

def knownStatus : HeartStatus → Bool
  | .known _ => true
  | .other _ => false

/-- `details!` of `reconcile`. -/
structure ReviewDetails where
  item : Uuid
  instanceId : Uuid
  reviewer : UserId
  application : Uuid
  channel : ChannelId
  requester : UserId
  sourceChannel : ChannelId
  version : DefinitionVersion

namespace ReviewDetails

variable (d : ReviewDetails)

def owns (view : Json) : Prop :=
  view.get "id" = .uuid d.instanceId ∧ view.get "namespace" = .string "sproyt" ∧
  view.get "runtime" = .string "v2" ∧
  (view.get "input_metadata").get "work_item_id" = .uuid d.item ∧
  (view.get "input_metadata").get "reviewer_id" = .uuid d.reviewer.uuid ∧
  (view.get "input_metadata").get "application_id" = .uuid d.application ∧
  (d.version = .v110 → (view.get "input_metadata").get "requester_id" = .uuid d.requester.uuid)

instance (view : Json) : Decidable (d.owns view) := inferInstanceAs (Decidable (_ ∧ _))

def assigned (task : ReportedTask) : Bool :=
  task.instanceId = d.instanceId &&
  match task.nodeId with
  | .review => task.assigneeId = d.reviewer
  | .provideInformation => d.version = .v110 && task.assigneeId = d.requester
  | .followupReview => d.version = .v110 && task.assigneeId = d.reviewer
  | _ => false

def consistent (state : ProcessStatus) (tasks : List ReportedTask) : Bool :=
  tasks.length ≤ (if d.version = .v110 then 3 else 1) &&
  (state ≠ .completed || (!tasks.isEmpty && tasks.all fun t => t.status = .known .completed)) &&
  tasks.countP (fun t => t.status = .known .pending) ≤ 1 &&
  decide (tasks.map (·.nodeId)).Nodup &&
  tasks.all fun t => d.assigned t && knownStatus t.status

/-- A completed review has asked for information, or it has not. -/
def rounded (state : ProcessStatus) (tasks : List ReportedTask) : Bool :=
  d.version ≠ .v110 || state ≠ .completed ||
  (tasks.find? fun t => t.nodeId = .review).any fun review =>
    tasks.length =
      if review.resultMetadata.any fun v => v.get "status" = .string "needs_information" then 3
      else 1

def rank (task : ReportedTask) : Nat :=
  match task.nodeId with
  | .review => 0
  | .provideInformation => 1
  | _ => 2

/-- The checks of `reconcile`: how far the process is, and the tasks in the order in which they
are projected. -/
def accepts (reply : HeartReply) : Except RepositoryError (ProcessStatus × List ReportedTask) :=
  if d.owns reply.view then
    match heartState reply.view with
    | none => .error .conflict
    | some state =>
      if d.consistent state reply.tasks && d.rounded state reply.tasks then
        .ok (state, reply.tasks.mergeSort fun a b => rank a ≤ rank b)
      else .error .conflict
  else .error .conflict

def target (task : ReportedTask) : ChannelId :=
  if task.nodeId = .provideInformation then d.sourceChannel else d.channel

end ReviewDetails

namespace WorkItems

/-- `update work_items set sync_lease_until = ?, sync_lease_token = ? …`, answering whether the
row was there to be leased. -/
def claimSync (id token : Uuid) (now : Int) : WorkSql Bool := do
  let free := fun w : WorkItemRow => w.id = id ∧ w.syncLeaseUntil.getD 0 < now ∧
    w.startStatus = .started ∧ (w.processStatus = .starting ∨ w.processStatus = .waiting)
  let claimed ← read fun (db : WorkDb) => db.items.any fun w => free w
  write fun db => db.mapItems fun w =>
    if free w then { w with syncLeaseUntil := some (now + 90), syncLeaseToken := some token }
    else w
  pure claimed

def reviewDetails (id token : Uuid) : WorkSql ReviewDetails := do
  let row ← read fun (db : WorkDb) =>
    db.items.find? fun w => w.id = id ∧ w.syncLeaseToken = some token
  let w ← demand row .conflict
  let instanceId ← demand w.heartInstanceId
    (storageError "unexpected null; try decoding as an Option")
  pure ⟨id, instanceId, w.reviewerId, w.applicationId, w.taskChannelId, w.requestedBy,
    w.sourceChannelId, w.definitionVersion⟩

/-- `project`, with the result Heart sent along compared with the stored decision. -/
def project (host : Host) (decode : String → Option Json) (item token : Uuid) (channel : ChannelId)
    (task : ReportedTask) (messageId : MessageId) (now : Time) : WorkSql (Option MessageId) :=
  onChat do
    let row ← read fun db =>
      db.workItemTasks.find? fun r => r.id = task.id ∧ r.workItemId = item
    projectTask host item token channel task.toHeartTask
      ⟨messageId, now, row.all fun r =>
        task.resultMetadata = some (completionResult decode task.nodeId r.decision)⟩

def settleProcess (id token : Uuid) (state : ProcessStatus) : WorkSql Unit :=
  write fun db => db.mapItems fun w =>
    if w.id = id ∧ w.syncLeaseToken = some token then { w with processStatus := state } else w

/-- Decisions that a failed or cancelled process will not take are not delivered. Nothing here
asks for the lease. -/
def failDeliveries (id : Uuid) : WorkSql Unit :=
  write fun db => db.mapTasks fun t =>
    if t.workItemId = id ∧ t.status = .pending ∧ t.decision.requestId.isSome then
      { t with deliveryReady := false }
    else t

def releaseSync (id token : Uuid) (next : Int) : WorkSql Unit :=
  write fun db => db.mapItems fun w =>
    if w.id = id ∧ w.syncLeaseToken = some token then
      { w with syncLeaseUntil := some next, syncLeaseToken := none }
    else w

end WorkItems

namespace WorkItems

/-- The lease of `start_one`, which is told apart from others by its end. -/
def claimStart (id : Uuid) (now : Int) : WorkSql Unit :=
  write fun db => db.mapItems fun w =>
    if w.id = id ∧ (w.startStatus = .pending ∨
      (w.startStatus = .leased ∧ w.leaseUntil.any (· < now))) ∧
        w.availableAt ≤ now then
      { w with startStatus := .leased, leaseUntil := some (now + 90) }
    else w

/-- The instance that was started, or none when Heart failed. -/
def settleStart (id : Uuid) (lease : Int) (started : Option Uuid) (next : Int) : WorkSql Unit := do
  let taken ← read fun (db : WorkDb) =>
    db.items.any fun w => w.id ≠ id ∧ started.isSome ∧ w.heartInstanceId = started
  ensure (taken = false) (storageError "UNIQUE constraint failed: work_items.heart_instance_id")
  write fun db => db.mapItems fun w =>
    if w.id = id ∧ w.startStatus = .leased ∧ w.leaseUntil = some lease then
      { w with
        startStatus := if started.isSome then .started else .pending
        heartInstanceId := started
        availableAt := next
        leaseUntil := none }
    else w

end WorkItems

/-! ### A status change in Heart -/

namespace StatusChangeRow

variable (x : StatusChangeRow)

def owns (instanceId : Uuid) (view : Json) : Prop :=
  view.get "id" = .uuid instanceId ∧ view.get "namespace" = .string "sproyt" ∧
  view.get "runtime" = .string "v2" ∧
  (view.get "input_metadata").get "status_change_id" = .uuid x.id ∧
  (view.get "input_metadata").get "work_item_id" = .uuid x.workItemId ∧
  (view.get "input_metadata").get "handler_id" = .uuid x.actorId.uuid ∧
  (view.get "input_metadata").get "task_channel_id" = .uuid x.channelId.uuid

instance (instanceId : Uuid) (view : Json) : Decidable (x.owns instanceId view) :=
  inferInstanceAs (Decidable (_ ∧ _))

def settled (state : ProcessStatus) (task : ReportedTask) : ChangeStatus :=
  if task.status = .known .completed ∧ state = .completed then .completed
  else if task.status = .known .cancelled then .cancelled
  else .waiting

/-- What the change is set to once its task is shown; none while Heart is still to take the
decision. -/
def outcome (state : ProcessStatus) (task : ReportedTask) :
    Except RepositoryError (Option ChangeStatus) :=
  match x.decision with
  | some record =>
    if task.status = .known .completed then
      if task.resultMetadata = some record.result then .ok (some (settled state task))
      else .error .conflict
    else if task.status = .known .pending then .ok none
    else .ok (some (settled state task))
  | none =>
    if task.status = .known .completed then .error .conflict
    else .ok (some (settled state task))

/-- What a reply asks for: the instance is over, or its task is shown first. -/
inductive Verdict
  | terminal (status : ChangeStatus)
  | shown (task : ReportedTask) (next : Except RepositoryError (Option ChangeStatus))

def verdict (instanceId : Uuid) (reply : HeartReply) : Except RepositoryError Verdict :=
  if x.owns instanceId reply.view then
    match heartState reply.view with
    | none => .error .conflict
    | some .failed => .ok (.terminal .failed)
    | some .cancelled => .ok (.terminal .cancelled)
    | some state =>
      match reply.tasks with
      | [task] =>
        if (state = .completed → task.status = .known .completed) ∧
            task.nodeId = .other "change-status" ∧ task.instanceId = instanceId ∧
            task.assigneeId = x.actorId ∧ knownStatus task.status then
          .ok (.shown task (x.outcome state task))
        else .error .conflict
      | _ => .error .conflict
  else .error .conflict

end StatusChangeRow

/-- The unique columns of `work_item_status_changes` and its partial index. -/
def uniqueChanges (rows : List StatusChangeRow) : Prop :=
  (rows.filterMap (·.taskId)).Nodup ∧ (rows.filterMap (·.messageId)).Nodup ∧
  (rows.filterMap (·.heartInstanceId)).Nodup ∧
  ((rows.filter (·.active)).map (·.workItemId)).Nodup

instance (rows : List StatusChangeRow) : Decidable (uniqueChanges rows) :=
  inferInstanceAs (Decidable (_ ∧ _))

namespace WorkItems

def claimChange (id token : Uuid) (now : Int) : WorkSql Bool := do
  let free := fun x : StatusChangeRow => x.id = id ∧ x.leaseUntil < now ∧ x.active
  let claimed ← read fun (db : WorkDb) => db.statusChanges.any fun x => free x
  write fun db => db.mapChanges fun x =>
    if free x then { x with leaseUntil := now + 180, leaseToken := some token } else x
  pure claimed

def leasedChange (id token : Uuid) : WorkSql StatusChangeRow := do
  let row ← read fun (db : WorkDb) =>
    db.statusChanges.find? fun x => x.id = id ∧ x.leaseToken = some token
  demand row Sql.rowNotFound

def updateChange (id token : Uuid) (f : StatusChangeRow → StatusChangeRow) : WorkSql Unit := do
  let rows ← read fun (db : WorkDb) => db.statusChanges.map fun x =>
    if x.id = id ∧ x.leaseToken = some token then f x else x
  ensure (uniqueChanges rows)
    (storageError "UNIQUE constraint failed: work_item_status_changes")
  write fun db => { db with statusChanges := rows }

def saveInstance (id token instanceId : Uuid) : WorkSql Unit := do
  let open_ ← read fun (db : WorkDb) => db.statusChanges.countP fun x =>
    x.id = id ∧ x.leaseToken = some token ∧ x.heartInstanceId = none
  ensure (open_ = 1) .conflict
  updateChange id token fun x => { x with heartInstanceId := some instanceId }

def settleChange (id token : Uuid) (status : ChangeStatus) : WorkSql Unit :=
  updateChange id token fun x => { x with status }

def releaseChange (id token : Uuid) (next : Int) : WorkSql Unit :=
  write fun db => db.mapChanges fun x =>
    if x.id = id ∧ x.leaseToken = some token then { x with leaseUntil := next, leaseToken := none }
    else x

def showInChat (host : Host) (item : WorkItemRow) (channel : ChannelId) (text : String)
    (messageId : MessageId) (now : Time) : Sql ChatMessage := do
  let sequence ← Sql.bumpSequence channel
  let sequence ← Sql.fetchOne sequence
  let bot := heartBot host item.id
  let _ ← insertHeartUser bot
  let _ ← insertHeartProfile bot item
  let body ← ofExcept (storageText (MessageBody.new text))
  let message := ⟨messageId, channel, none, bot, heartName, body, sequence, now, none, none⟩
  mapError (asStorage "") (Sql.insertMessage message)
  pure message

/-- The row of `project_status_message`, while the lease lasts. -/
def heldChange (id token : Uuid) (clock : Int) : WorkSql (StatusChangeRow × WorkItemRow) := do
  let row ← read fun (db : WorkDb) =>
    (db.statusChanges.find? fun x => x.id = id ∧ x.leaseToken = some token ∧
      clock < x.leaseUntil).bind
      fun x => (db.item? x.workItemId).map fun w => (x, w)
  demand row Sql.rowNotFound

/-- `project_status_message` without a task: the marker in the channel the case comes from. -/
def publishStatus (host : Host) (id token : Uuid) (messageId : MessageId) (now : Time)
    (clock : Int) : WorkSql (Option MessageId) := do
  let (x, w) ← heldChange id token clock
  let published ← read fun (db : WorkDb) => db.publications.any (·.workItemId = w.id)
  if x.decision.any (·.noChange) || published then pure none
  else
    let _ ← onChat (showInChat host w w.sourceChannelId
      ("[[work-item-status:" ++ w.id.hyphenated ++ "]]") messageId now)
    let taken ← read fun (db : WorkDb) => db.publications.any fun p =>
      p.workItemId = w.id ∨ p.messageId = messageId
    ensure (taken = false) .conflict
    write fun db =>
      { db with publications := db.publications ++ [⟨w.id, messageId, w.sourceChannelId⟩] }
    pure (some messageId)

def postChange (host : Host) (x : StatusChangeRow) (w : WorkItemRow) (token : Uuid)
    (task : ReportedTask) (messageId : MessageId) (now : Time) : WorkSql (Option MessageId) := do
  ensure (task.status = .known .pending) .conflict
  let message ← onChat (showInChat host w x.channelId
    ("[[work-item-task:" ++ task.id.hyphenated ++ "]]") messageId now)
  updateChange x.id token fun y =>
    { y with taskId := some task.id, messageId := some messageId, status := .waiting }
  onChat (enqueueMessage message)
  pure (some messageId)

/-- `project_status_message` with the task that Heart reports. -/
def showChange (host : Host) (id token : Uuid) (task : ReportedTask) (messageId : MessageId)
    (now : Time) (clock : Int) : WorkSql (Option MessageId) := do
  let (x, w) ← heldChange id token clock
  match x.taskId with
  | some old =>
    ensure (old = task.id) .conflict
    pure none
  | none => postChange host x w token task messageId now

end WorkItems

/-! ### Interleaved commands and passes -/

inductive WorkCommand
  | decide (actor : UserId) (task : Uuid) (d : Decision)
  | addSupplement (actor : UserId) (item : Uuid) (c : SupplementCommand) (id : Uuid)
  | exportGithub (actor : UserId) (task : Uuid) (c : ExportCommand) (now : Int)
  | changeStatus (actor : UserId) (task : Uuid) (c : StatusDecision) (id : Uuid) (now : Int)

def WorkCommand.exec (service : WorkItems) : WorkCommand → WorkSql Acceptance
  | decide actor task d => WorkItems.decide actor task d
  | addSupplement actor item c id => service.addSupplement actor item c id
  | exportGithub actor task c now => service.exportGithub actor task c now
  | changeStatus actor task c id now => WorkItems.changeStatus actor task c id now

/-- Where a pass of `sync_tasks` is. -/
inductive TaskPhase
  | claimed
  | detailed (d : ReviewDetails)
  | projecting (d : ReviewDetails) (state : ProcessStatus) (rest : List ReportedTask)
  | settled (state : ProcessStatus)
  | ending

structure TaskPass where
  item : Uuid
  token : Uuid
  phase : TaskPhase

/-- Where a pass of `sync_status_changes` is. -/
inductive StatusPhase
  | claimed
  | read (x : StatusChangeRow)
  | published (x : StatusChangeRow)
  | located (x : StatusChangeRow) (instanceId : Uuid)
  | showing (task : ReportedTask) (next : Except RepositoryError (Option ChangeStatus))
  | settling (status : ChangeStatus)
  | ending

structure StatusPass where
  change : Uuid
  token : Uuid
  phase : StatusPhase

/-- What is told of a step: a command with its answer, the transactions of a pass of `sync_tasks`
with the token they were made under, or nothing. A projection is told with the message it
posted. -/
inductive WorkLabel
  | command (c : WorkCommand) (answer : Except RepositoryError Acceptance)
  | claimed (item token : Uuid)
  | projected (item token : Uuid) (channel : ChannelId) (task : ReportedTask)
      (posted : Option MessageId)
  | settled (item token : Uuid) (state : ProcessStatus)
  | released (item token : Uuid)
  | silent

structure WorkWorld where
  db : WorkDb
  taskPasses : List TaskPass
  statusPasses : List StatusPass
  issued : List Uuid

variable (service : WorkItems) (host : Host) (decode : String → Option Json)

open WorkItems in
/-- A pass of `sync_tasks` goes on. What Heart replies is arbitrary. -/
inductive TaskMove (item token : Uuid) : WorkDb → TaskPhase → WorkLabel → WorkDb → TaskPhase → Prop
  | details {db : WorkDb} {d : ReviewDetails}
      (h : (reviewDetails item token).run db = .ok (d, db)) :
      TaskMove item token db .claimed .silent db (.detailed d)
  | answered {db : WorkDb} {d : ReviewDetails} {reply : HeartReply} {state : ProcessStatus}
      {tasks : List ReportedTask} (h : d.accepts reply = .ok (state, tasks)) :
      TaskMove item token db (.detailed d) .silent db (.projecting d state tasks)
  | projected {db db' : WorkDb} {d : ReviewDetails} {state : ProcessStatus} {task : ReportedTask}
      {rest : List ReportedTask} {messageId : MessageId} {now : Time} {posted : Option MessageId}
      (h : (project host decode item token (d.target task) task messageId now).run db =
        .ok (posted, db')) :
      TaskMove item token db (.projecting d state (task :: rest))
        (.projected item token (d.target task) task posted) db' (.projecting d state rest)
  | settled {db : WorkDb} {d : ReviewDetails} {state : ProcessStatus} :
      TaskMove item token db (.projecting d state []) (.settled item token state)
        ((settleProcess item token state).commit db).2 (.settled state)
  | undelivered {db : WorkDb} {state : ProcessStatus} (h : state = .failed ∨ state = .cancelled) :
      TaskMove item token db (.settled state) .silent ((failDeliveries item).commit db).2 .ending
  -- the end of a pass, early or not: nothing is written
  | ended {db : WorkDb} {phase : TaskPhase} : TaskMove item token db phase .silent db .ending

open WorkItems in
/-- A pass of `sync_status_changes` goes on. -/
inductive StatusMove (id token : Uuid) : WorkDb → StatusPhase → WorkDb → StatusPhase → Prop
  | read {db : WorkDb} {x : StatusChangeRow} (h : (leasedChange id token).run db = .ok (x, db)) :
      StatusMove id token db .claimed db (.read x)
  | undecided {db : WorkDb} {x : StatusChangeRow} (h : x.decision = none) :
      StatusMove id token db (.read x) db (.published x)
  | published {db db' : WorkDb} {x : StatusChangeRow} {messageId : MessageId} {now : Time}
      {clock : Int} {posted : Option MessageId} (hdecided : x.decision ≠ none)
      (h : (publishStatus host id token messageId now clock).run db = .ok (posted, db')) :
      StatusMove id token db (.read x) db' (.published x)
  | known {db : WorkDb} {x : StatusChangeRow} {instanceId : Uuid}
      (h : x.heartInstanceId = some instanceId) :
      StatusMove id token db (.published x) db (.located x instanceId)
  | started {db db' : WorkDb} {x : StatusChangeRow} {instanceId : Uuid} {r : Unit}
      (hnew : x.heartInstanceId = none)
      (h : (saveInstance id token instanceId).run db = .ok (r, db')) :
      StatusMove id token db (.published x) db' (.located x instanceId)
  | terminal {db : WorkDb} {x : StatusChangeRow} {instanceId : Uuid} {reply : HeartReply}
      {status : ChangeStatus} (h : x.verdict instanceId reply = .ok (.terminal status)) :
      StatusMove id token db (.located x instanceId) db (.settling status)
  | answered {db : WorkDb} {x : StatusChangeRow} {instanceId : Uuid} {reply : HeartReply}
      {task : ReportedTask} {next : Except RepositoryError (Option ChangeStatus)}
      (h : x.verdict instanceId reply = .ok (.shown task next)) :
      StatusMove id token db (.located x instanceId) db (.showing task next)
  | shown {db db' : WorkDb} {task : ReportedTask} {status : ChangeStatus} {messageId : MessageId}
      {now : Time} {clock : Int} {posted : Option MessageId}
      (h : (showChange host id token task messageId now clock).run db = .ok (posted, db')) :
      StatusMove id token db (.showing task (.ok (some status))) db' (.settling status)
  | shownOnly {db db' : WorkDb} {task : ReportedTask}
      {next : Except RepositoryError (Option ChangeStatus)} {messageId : MessageId} {now : Time}
      {clock : Int} {posted : Option MessageId}
      (h : (showChange host id token task messageId now clock).run db = .ok (posted, db')) :
      StatusMove id token db (.showing task next) db' .ending
  | settled {db : WorkDb} {status : ChangeStatus} :
      StatusMove id token db (.settling status) ((settleChange id token status).commit db).2 .ending
  | ended {db : WorkDb} {phase : StatusPhase} : StatusMove id token db phase db .ending

open WorkItems in
/-- Commands, task and status passes of any number of replicas, and changes of the chat and the
configuration. Lease tokens are new; the clock is arbitrary. The insert of a new work item and the
passes of `sync_exports` are not steps. -/
inductive WorkStep : WorkWorld → WorkLabel → WorkWorld → Prop
  | command {w : WorkWorld} (c : WorkCommand) :
      WorkStep w (.command c ((c.exec service).commit w.db).1)
        { w with db := ((c.exec service).commit w.db).2 }
  | startStatus {w : WorkWorld} (actor : UserId) (item : Uuid) (c : StatusStart) (id : Uuid)
      (now : Int) :
      WorkStep w .silent { w with db := ((service.startStatus actor item c id now).commit w.db).2 }
  | claimStart {w : WorkWorld} (id : Uuid) (now : Int) :
      WorkStep w .silent { w with db := ((claimStart id now).commit w.db).2 }
  | settleStart {w : WorkWorld} (id : Uuid) (lease : Int) (started : Option Uuid) (next : Int) :
      WorkStep w .silent { w with db := ((settleStart id lease started next).commit w.db).2 }
  | claimSync {w : WorkWorld} {id token : Uuid} {now : Int} {db' : WorkDb}
      (hnew : token ∉ w.issued) (h : (claimSync id token now).run w.db = .ok (true, db')) :
      WorkStep w (.claimed id token)
        ⟨db', ⟨id, token, .claimed⟩ :: w.taskPasses, w.statusPasses, token :: w.issued⟩
  | taskMove {db db' : WorkDb} {before after : List TaskPass} {p : TaskPass} {phase : TaskPhase}
      {passes : List StatusPass} {issued : List Uuid} {l : WorkLabel}
      (h : TaskMove host decode p.item p.token db p.phase l db' phase) :
      WorkStep ⟨db, before ++ p :: after, passes, issued⟩ l
        ⟨db', before ++ { p with phase } :: after, passes, issued⟩
  | releaseSync {db : WorkDb} {before after : List TaskPass} {p : TaskPass}
      {passes : List StatusPass} {issued : List Uuid} (next : Int) (h : p.phase = .ending) :
      WorkStep ⟨db, before ++ p :: after, passes, issued⟩ (.released p.item p.token)
        ⟨((releaseSync p.item p.token next).commit db).2, before ++ after, passes, issued⟩
  | taskCrash {db : WorkDb} {before after : List TaskPass} {p : TaskPass}
      {passes : List StatusPass} {issued : List Uuid} :
      WorkStep ⟨db, before ++ p :: after, passes, issued⟩ .silent
        ⟨db, before ++ after, passes, issued⟩
  | claimChange {w : WorkWorld} {id token : Uuid} {now : Int} {db' : WorkDb}
      (hnew : token ∉ w.issued) (h : (claimChange id token now).run w.db = .ok (true, db')) :
      WorkStep w .silent
        ⟨db', w.taskPasses, ⟨id, token, .claimed⟩ :: w.statusPasses, token :: w.issued⟩
  | statusMove {db db' : WorkDb} {before after : List StatusPass} {p : StatusPass}
      {phase : StatusPhase} {passes : List TaskPass} {issued : List Uuid}
      (h : StatusMove host p.change p.token db p.phase db' phase) :
      WorkStep ⟨db, passes, before ++ p :: after, issued⟩ .silent
        ⟨db', passes, before ++ { p with phase } :: after, issued⟩
  | releaseChange {db : WorkDb} {before after : List StatusPass} {p : StatusPass}
      {passes : List TaskPass} {issued : List Uuid} (next : Int) (h : p.phase = .ending) :
      WorkStep ⟨db, passes, before ++ p :: after, issued⟩ .silent
        ⟨((releaseChange p.change p.token next).commit db).2, passes, before ++ after, issued⟩
  | statusCrash {db : WorkDb} {before after : List StatusPass} {p : StatusPass}
      {passes : List TaskPass} {issued : List Uuid} :
      WorkStep ⟨db, passes, before ++ p :: after, issued⟩ .silent
        ⟨db, passes, before ++ after, issued⟩
  | outside {w : WorkWorld} (chat : Db) (config : WorkConfig)
      (hitems : chat.workItems = w.db.chat.workItems)
      (htasks : chat.workItemTasks = w.db.chat.workItemTasks) :
      WorkStep w .silent { w with db := { w.db with chat, config } }

/-! ### A small store -/

namespace Sample

def workItems : WorkItems := ⟨true, true, true⟩

def noText : String → Option Json := fun _ => none

/-- A case from the room, whose review Heart has started. -/
def workItem : WorkItemRow :=
  { id := 40
    sourceChannelId := room
    taskChannelId := room
    requestedBy := alice
    reviewerId := alice
    definitionVersion := .v110
    syncLeaseToken := none
    category := none
    priority := none
    status := "new"
    sourceMessageId := ⟨41⟩
    applicationId := 42
    bindingId := 43
    processStatus := .waiting
    startStatus := .started
    heartInstanceId := some 44 }

/-- Alice handles the cases of the application. -/
def workDb : WorkDb :=
  { chat := { chat with workItems := [workItem] }
    config :=
      { applications := [⟨42, true⟩]
        bindings := [⟨43, true⟩]
        bindingApplications := [(43, 42)]
        processors := [⟨42, alice, true, true⟩]
        processRoles := [⟨42, alice, "product-handler"⟩]
        taskRoutes := []
        githubBindings := [] }
    supplements := []
    githubExports := []
    statusChanges := []
    statusHistory := []
    publications := [] }

end Sample

end Sproyt
