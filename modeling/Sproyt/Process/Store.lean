import Mathlib.Data.List.MinMax
import Sproyt.Db.Schema
import Sproyt.Domain.Json

/-!
# Processes and their outbox

A process link ties a process that Heart runs to a channel. What is asked of Heart is first
written to `process_outbox`; workers lease its rows, call Heart and settle what came of it.
-/

namespace Sproyt

open Txn

structure ProcessLinkId where
  uuid : Uuid
deriving DecidableEq

structure OutboxId where
  uuid : Uuid
deriving DecidableEq

namespace Policy

def canReadChannel (role : Option MembershipRole) : Bool := role.isSome

def canCompleteProcessWork (role : Option MembershipRole) : Bool := canSendToChannel role

def canStartProcess (role : Option MembershipRole) : Bool := canCompleteProcessWork role

end Policy

/-! ### Commands and jobs -/

structure EnqueueProcessStart where
  channelId : ChannelId
  actor : UserId
  requestId : String
  nameSpace : String
  definitionName : String
  definitionVersion : Option String
  metadata : Json

structure EnqueueCorrelation where
  processLinkId : ProcessLinkId
  actor : UserId
  requestId : String
  payload : Json

structure EnqueueInspection where
  processLinkId : ProcessLinkId
  actor : UserId
  requestId : String

structure StartProcess where
  nameSpace : String
  definitionName : String
  version : Option String
  metadata : Json

structure CorrelateMessage where
  nameSpace : String
  correlationKey : String
  correlationValue : String
  payload : Json

inductive OutboxOperation
  | start (command : StartProcess)
  | correlate (command : CorrelateMessage)
  | inspect (instanceId : Uuid)

structure OutboxJob where
  id : OutboxId
  processLinkId : ProcessLinkId
  operation : OutboxOperation
  attempts : Nat

/-! ### Tables -/

inductive LinkStatus
  | starting
  | active
  | failed
deriving DecidableEq, Repr

structure ProcessLink where
  id : ProcessLinkId
  channelId : ChannelId
  heartInstanceId : Option Uuid
  nameSpace : String
  definitionName : String
  definitionVersion : Option String
  initiatedBy : UserId
  status : LinkStatus

structure ProcessLinkRow extends ProcessLink where
  requestId : String

inductive OutboxStatus
  | pending
  | leased
  | completed
  | failed
deriving DecidableEq, Repr

/-- The columns `operation` and `payload` are one field: the payload names its operation. -/
structure ProcessOutboxRow where
  id : OutboxId
  processLinkId : ProcessLinkId
  operation : OutboxOperation
  availableAt : Time
  createdAt : Time
  status : OutboxStatus := .pending
  attempts : Nat := 0
  leaseUntil : Option Time := none
  lastError : Option String := none
  completedAt : Option Time := none

structure ProcessEventRow where
  id : Uuid
  processLinkId : ProcessLinkId
  eventKey : String
  eventType : String
  payload : Json
  actorId : Option UserId
  occurredAt : Time

inductive CommandType
  | correlate
  | inspect
deriving DecidableEq, Repr

structure CommandReceipt where
  actorId : UserId
  requestId : String
  processLinkId : ProcessLinkId
  outboxId : OutboxId
  commandType : CommandType

structure CircleFeatureRow where
  circleId : CircleId
  feature : String
  enabled : Bool

structure ProcessBindingRow where
  channelId : ChannelId
  nameSpace : String
  definitionName : String
  definitionVersion : String
  enabled : Bool

structure ProcessDb where
  chat : Db
  circleFeatures : List CircleFeatureRow
  bindings : List ProcessBindingRow
  links : List ProcessLinkRow
  outbox : List ProcessOutboxRow
  events : List ProcessEventRow
  receipts : List CommandReceipt

abbrev ProcessSql (α : Type) := Txn ProcessDb RepositoryError α

namespace ProcessDb

variable (db : ProcessDb)

def eventPlanning (channel : ChannelId) : Bool :=
  db.chat.channels.any fun c => c.id = channel ∧
    db.circleFeatures.any fun f => c.circleId = some f.circleId ∧
      f.feature = "heart.event-planning" ∧ f.enabled

def plannerRole? (channel : ChannelId) (actor : UserId) : Option MembershipRole :=
  if db.eventPlanning channel then db.chat.channelRole? channel actor else none

def link? (link : ProcessLinkId) : Option ProcessLinkRow :=
  db.links.find? fun l => l.id = link

def linkAccess? (link : ProcessLinkId) (actor : UserId) :
    Option (ProcessLinkRow × MembershipRole) := do
  let row ← db.link? link
  let role ← db.plannerRole? row.channelId actor
  pure (row, role)

def startedBy? (actor : UserId) (requestId : String) : Option ProcessLinkRow :=
  db.links.find? fun l => l.initiatedBy = actor ∧ l.requestId = requestId

def receipt? (actor : UserId) (requestId : String) : Option CommandReceipt :=
  db.receipts.find? fun r => r.actorId = actor ∧ r.requestId = requestId

def bound (command : EnqueueProcessStart) : Bool :=
  db.bindings.any fun b => b.channelId = command.channelId ∧ b.nameSpace = command.nameSpace ∧
    b.definitionName = command.definitionName ∧
    b.definitionVersion = command.definitionVersion.getD "" ∧ b.enabled

def eventActor? (job : OutboxJob) : Option UserId :=
  ((db.receipts.find? fun r => r.outboxId = job.id).map (·.actorId)).or
    ((db.link? job.processLinkId).map (·.initiatedBy))

end ProcessDb

namespace Process

/-! ### Statements -/

/-- Insert a row, with the errors `sql_error` makes of violated constraints. -/
def insert (taken resolves : ProcessDb → Bool) (put : ProcessDb → ProcessDb) :
    ProcessSql Unit := do
  let db ← read id
  ensure (taken db = false) .conflict
  ensure (resolves db = true) .permissionDenied
  write put

@[simp] theorem insert_ok {taken resolves : ProcessDb → Bool} {put : ProcessDb → ProcessDb}
    {db db' : ProcessDb} {u : Unit} : (insert taken resolves put).run db = .ok (u, db') ↔
      taken db = false ∧ resolves db = true ∧ put db = db' := by
  simp [insert]

def insertLink (row : ProcessLinkRow) : ProcessSql Unit :=
  insert (fun db => db.links.any fun l => l.id = row.id ∨
      (l.initiatedBy = row.initiatedBy ∧ l.requestId = row.requestId))
    (fun db => db.chat.hasChannel row.channelId && db.chat.hasUser row.initiatedBy)
    fun db => { db with links := db.links ++ [row] }

def insertOutbox (row : ProcessOutboxRow) : ProcessSql Unit :=
  insert (fun db => db.outbox.any fun r => r.id = row.id)
    (fun db => db.links.any fun l => l.id = row.processLinkId)
    fun db => { db with outbox := db.outbox ++ [row] }

def insertReceipt (row : CommandReceipt) : ProcessSql Unit :=
  insert (fun db => db.receipts.any fun r =>
      r.actorId = row.actorId ∧ r.requestId = row.requestId)
    (fun db => db.chat.hasUser row.actorId && db.links.any (fun l => l.id = row.processLinkId) &&
      db.outbox.any fun r => r.id = row.outboxId)
    fun db => { db with receipts := db.receipts ++ [row] }

/-- `insert into process_events … on conflict(process_link_id, event_key) do nothing`. -/
def insertEvent (row : ProcessEventRow) : ProcessSql Unit := do
  if ← read fun db => db.events.any fun e =>
      e.processLinkId = row.processLinkId ∧ e.eventKey = row.eventKey then
    pure ()
  else
    insert (fun db => db.events.any fun e => e.id = row.id)
      (fun db => db.links.any (fun l => l.id = row.processLinkId) &&
        row.actorId.all db.chat.hasUser)
      fun db => { db with events := db.events ++ [row] }

def updateOutbox (id : OutboxId) (f : ProcessOutboxRow → ProcessOutboxRow) : ProcessSql Unit :=
  write fun db => { db with outbox := db.outbox.map fun r => if r.id = id then f r else r }

def updateLink (id : ProcessLinkId) (f : ProcessLinkRow → ProcessLinkRow) : ProcessSql Unit :=
  write fun db => { db with links := db.links.map fun l => if l.id = id then f l else l }

/-! ### What clients ask -/

structure Generated where
  linkId : ProcessLinkId
  outboxId : OutboxId
  now : Time

def newLink (command : EnqueueProcessStart) (gen : Generated) : ProcessLinkRow :=
  ⟨⟨gen.linkId, command.channelId, none, command.nameSpace, command.definitionName,
    command.definitionVersion, command.actor, .starting⟩, command.requestId⟩

def startOperation (command : EnqueueProcessStart) : OutboxOperation :=
  .start ⟨command.nameSpace, command.definitionName, command.definitionVersion, command.metadata⟩

def newJob (gen : Generated) (link : ProcessLinkId) (operation : OutboxOperation) :
    ProcessOutboxRow :=
  { id := gen.outboxId, processLinkId := link, operation := operation
    availableAt := gen.now, createdAt := gen.now }

def enqueueStart (command : EnqueueProcessStart) (gen : Generated) : ProcessSql ProcessLink := do
  let role ← read fun db => db.plannerRole? command.channelId command.actor
  ensure (Policy.canStartProcess role) .permissionDenied
  match ← read fun db => db.startedBy? command.actor command.requestId with
  | some row =>
    ensure (row.channelId = command.channelId) .conflict
    pure { row.toProcessLink with channelId := command.channelId, initiatedBy := command.actor }
  | none =>
    let bound ← read fun db => db.bound command
    ensure (bound = true) .permissionDenied
    insertLink (newLink command gen)
    insertOutbox (newJob gen gen.linkId (startOperation command))
    pure (newLink command gen).toProcessLink

/-- A command about a link that exists. A request id that has a receipt is answered from it,
before anything else is looked at; otherwise `admission` decides on the operation. -/
def enqueueCommand (kind : CommandType) (link : ProcessLinkId) (actor : UserId)
    (requestId : String) (admission : ProcessDb → Except RepositoryError OutboxOperation)
    (gen : Generated) : ProcessSql OutboxId := do
  match ← read fun db => db.receipt? actor requestId with
  | some receipt => pure receipt.outboxId
  | none =>
    let admitted ← read admission
    let operation ← ofExcept admitted
    insertOutbox (newJob gen link operation)
    insertReceipt ⟨actor, requestId, link, gen.outboxId, kind⟩
    pure gen.outboxId

def correlateOperation (command : EnqueueCorrelation) (nameSpace : String) : OutboxOperation :=
  .correlate ⟨nameSpace, "process_link_id", command.processLinkId.uuid.hyphenated, command.payload⟩

def admitCorrelation (command : EnqueueCorrelation) (db : ProcessDb) :
    Except RepositoryError OutboxOperation :=
  match db.linkAccess? command.processLinkId command.actor with
  | none => .error .permissionDenied
  | some (row, role) =>
    if Policy.canCompleteProcessWork (some role) then
      .ok (correlateOperation command row.nameSpace)
    else .error .permissionDenied

def enqueueCorrelation (command : EnqueueCorrelation) : Generated → ProcessSql OutboxId :=
  enqueueCommand .correlate command.processLinkId command.actor command.requestId
    (admitCorrelation command)

/-- A link whose process has no instance yet: SQLite's null is decoded as the empty text, which is
no UUID. -/
def noInstance : RepositoryError := .storage "invalid length: found 0"

def admitInspection (command : EnqueueInspection) (db : ProcessDb) :
    Except RepositoryError OutboxOperation :=
  match db.linkAccess? command.processLinkId command.actor with
  | none => .error .permissionDenied
  | some (row, role) =>
    if Policy.canReadChannel (some role) then
      match row.heartInstanceId with
      | none => .error noInstance
      | some instanceId => .ok (.inspect instanceId)
    else .error .permissionDenied

def enqueueInspection (command : EnqueueInspection) : Generated → ProcessSql OutboxId :=
  enqueueCommand .inspect command.processLinkId command.actor command.requestId
    (admitInspection command)

/-! ### What workers do -/

def lapsed (now : Time) (r : ProcessOutboxRow) : Bool := r.leaseUntil.any (· < now)

def ready (now : Time) (r : ProcessOutboxRow) : Bool :=
  (r.status = .pending || (r.status = .leased && lapsed now r)) && r.availableAt ≤ now

/-- `order by created_at limit 1`. -/
def nextRow (now : Time) (db : ProcessDb) : Option ProcessOutboxRow :=
  -- the order is named because the library has one on the integers that does not compute
  @List.argmin _ Time Int.instLinearOrder.toPreorder _ (·.createdAt) (db.outbox.filter (ready now))

def lease (leaseFor : Int) (now : Time) (r : ProcessOutboxRow) : ProcessOutboxRow :=
  if r.status = .pending || lapsed now r then
    { r with status := .leased, leaseUntil := some (now + leaseFor), attempts := r.attempts + 1 }
  else r

def leaseNext (leaseFor : Int) (now : Time) : ProcessSql (Option OutboxJob) := do
  match ← read (nextRow now) with
  | none => pure none
  | some row =>
    let updated ← read fun db => db.outbox.any fun r =>
      r.id = row.id && (r.status = .pending || lapsed now r)
    updateOutbox row.id (lease leaseFor now)
    pure (if updated then some ⟨row.id, row.processLinkId, row.operation, row.attempts + 1⟩
      else none)

structure StartedProcess where
  instanceId : Uuid

structure SettleEnv where
  eventId : Uuid
  now : Time

def completed (now : Time) (r : ProcessOutboxRow) : ProcessOutboxRow :=
  { r with status := .completed, completedAt := some now, leaseUntil := none }

def takesInstance (instanceId : Uuid) (l : ProcessLinkRow) : Bool :=
  l.heartInstanceId.all (· = instanceId)

def completeStart (job : OutboxJob) (result : StartedProcess) (env : SettleEnv) :
    ProcessSql Unit := do
  let clash ← read fun db =>
    db.links.any (fun l => l.id = job.processLinkId && takesInstance result.instanceId l) &&
    db.links.any fun l => l.id ≠ job.processLinkId ∧ l.heartInstanceId = some result.instanceId
  ensure (clash = false) .conflict
  updateLink job.processLinkId fun l =>
    if takesInstance result.instanceId l then
      { l with heartInstanceId := some result.instanceId, status := .active }
    else l
  let actor ← read fun db => (db.link? job.processLinkId).map (·.initiatedBy)
  insertEvent ⟨env.eventId, job.processLinkId, "started", "process.started",
    .object [("instance_id", .uuid result.instanceId)], actor, env.now⟩
  updateOutbox job.id (completed env.now)

def completeOperation (job : OutboxJob) (eventType : String) (payload : Json) (env : SettleEnv) :
    ProcessSql Unit := do
  let actor ← read fun db => db.eventActor? job
  insertEvent ⟨env.eventId, job.processLinkId, job.id.uuid.hyphenated, eventType, payload, actor,
    env.now⟩
  updateOutbox job.id (completed env.now)

inductive ErrorKind
  | invalidRequest
  | unauthorized
  | notFound
  | conflict
  | rateLimited
  | unavailable
  | timeout
  | invalidResponse
deriving DecidableEq, Repr

def ErrorKind.asStr : ErrorKind → String
  | .invalidRequest => "invalid_request"
  | .unauthorized => "unauthorized"
  | .notFound => "not_found"
  | .conflict => "conflict"
  | .rateLimited => "rate_limited"
  | .unavailable => "unavailable"
  | .timeout => "timeout"
  | .invalidResponse => "invalid_response"

def ErrorKind.debug : ErrorKind → String
  | .invalidRequest => "InvalidRequest"
  | .unauthorized => "Unauthorized"
  | .notFound => "NotFound"
  | .conflict => "Conflict"
  | .rateLimited => "RateLimited"
  | .unavailable => "Unavailable"
  | .timeout => "Timeout"
  | .invalidResponse => "InvalidResponse"

structure ProcessError where
  kind : ErrorKind
  message : String
  retryable : Bool

def ProcessError.text (error : ProcessError) : String :=
  "Heart " ++ error.kind.debug ++ ": " ++ error.message

def terminal (job : OutboxJob) (error : ProcessError) : Bool :=
  !error.retryable || 8 ≤ job.attempts

def rescheduled (terminal : Bool) (available : Time) (error : ProcessError)
    (r : ProcessOutboxRow) : ProcessOutboxRow :=
  { r with
    status := if terminal then .failed else .pending
    availableAt := available
    leaseUntil := none
    lastError := some error.text }

def reschedule (job : OutboxJob) (error : ProcessError) (delay : Int) (env : SettleEnv) :
    ProcessSql Unit := do
  updateOutbox job.id (rescheduled (terminal job error) (env.now + delay) error)
  if terminal job error then
    updateLink job.processLinkId fun l => { l with status := .failed }
    let actor ← read fun db => db.eventActor? job
    insertEvent ⟨env.eventId, job.processLinkId, "failed:" ++ job.id.uuid.hyphenated,
      "process.failed",
      .object [("attempts", .nat job.attempts), ("kind", .string error.kind.asStr),
        ("message", .string error.message), ("retryable", .bool error.retryable)],
      actor, env.now⟩
  else pure ()

def backoff (attempt : Nat) : Int := 100000000 * 2 ^ min attempt 4

/-- How a call of Heart can end: with the result its operation has, or with an error. -/
inductive Outcome : OutboxOperation → Type
  | started {command : StartProcess} (result : StartedProcess) : Outcome (.start command)
  | correlated {command : CorrelateMessage} (matchedInstances : Nat) (instanceIds : List Uuid) :
      Outcome (.correlate command)
  | inspected {instanceId : Uuid} (id : Uuid) (status : String) (currentNode : Option String) :
      Outcome (.inspect instanceId)
  | failed {operation : OutboxOperation} (error : ProcessError) : Outcome operation

/-- The second half of a round of `run_outbox`. -/
def settle (job : OutboxJob) {operation : OutboxOperation} :
    Outcome operation → SettleEnv → ProcessSql Unit
  | .started result, env => completeStart job result env
  | .correlated matchedInstances instanceIds, env =>
    completeOperation job "process.correlated"
      (.object [("instance_ids", .array (instanceIds.map .uuid)),
        ("matched_instances", .nat matchedInstances)]) env
  | .inspected id status currentNode, env =>
    completeOperation job "process.inspected"
      (.object [("current_node", (currentNode.map Json.string).getD .null),
        ("instance_id", .uuid id), ("status", .string status)]) env
  | .failed error, env => reschedule job error (backoff job.attempts) env

end Process

end Sproyt
