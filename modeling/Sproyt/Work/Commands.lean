import Mathlib.Data.List.Infix
import Sproyt.Work.Store

/-!
# Work item commands

Each command is one write transaction: it looks up what it is about together with the actor's
rights, answers a repetition from what is stored, and otherwise writes its decision under the
revision it was given. The views that are read for the answer afterwards are left out; what
is answered here is whether the command was new.
-/

namespace Sproyt

open Txn

structure WorkItems where
  heart : Bool
  github : Bool
  supplementsEnabled : Bool

inductive Acceptance
  | accepted
  | repeated
deriving DecidableEq, Repr

def storageError (text : String) : RepositoryError := .storage text

/-- The compare-and-set on the revision of a work item, with what else is asked and written. -/
def advanceItem (id : Uuid) (expected : Int) (also : WorkDb → WorkItemRow → Bool)
    (f : WorkItemRow → WorkItemRow) : WorkSql Unit :=
  updateOne
    (fun db => db.items.countP fun w => w.id = id ∧ w.revision = expected ∧ also db w)
    (fun db => db.mapItems fun w =>
      if w.id = id ∧ w.revision = expected ∧ also db w then
        { f w with revision := w.revision + 1 }
      else w)
    .conflict

/-- `… where id = ? and decision_request_id is null and status = 'pending'`. -/
def WorkItemTaskRow.undecided (id : Uuid) (t : WorkItemTaskRow) : Bool :=
  t.id = id ∧ t.decision.requestId = none ∧ t.status = .pending

def decideTask (id : Uuid) (decision : TaskDecision) : WorkSql Unit :=
  updateOne (fun db => db.tasks.countP (·.undecided id))
    (fun db => db.mapTasks fun t =>
      if t.undecided id then { t with decision, deliveryReady := false } else t)
    .conflict

/-! ### Deciding a task -/

structure Decision where
  messageId : MessageId
  requestId : Uuid
  expectedRevision : Int
  expectedSupplementId : Option Uuid
  category : String
  priority : String
  status : String
  note : String
deriving DecidableEq

namespace Decision

variable (d : Decision)

/-- What a task of the node can be decided with. -/
def validFor (node : TaskNode) (version : DefinitionVersion) : Bool :=
  if node = .provideInformation then
    d.category = "" ∧ d.priority = "" ∧ d.status = "" ∧ trim d.note ≠ ""
  else
    d.category ∈ ["bug", "change", "question"] ∧
    d.priority ∈ ["untriaged", "low", "normal", "high", "critical"] ∧
    (d.status ∈ ["planned", "resolved", "rejected"] ∨
      (node = .review ∧ version = .v110 ∧ d.status = "needs_information" ∧ trim d.note ≠ ""))

def sameAs (stored : TaskDecision) : Prop :=
  stored.requestId = some d.requestId ∧ stored.category.getD "" = d.category ∧
  stored.priority.getD "" = d.priority ∧ stored.status.getD "" = d.status ∧
  stored.note.getD "" = d.note ∧ stored.supplementId = d.expectedSupplementId ∧
  ∀ r ∈ stored.revision, r = d.expectedRevision

instance (stored : TaskDecision) : Decidable (d.sameAs stored) :=
  inferInstanceAs (Decidable (_ ∧ _))

/-- Information has no category, priority or status. -/
def stored (node : TaskNode) : TaskDecision :=
  let judged := fun text : String => if node = .provideInformation then none else some text
  ⟨some d.requestId, judged d.category, judged d.priority, judged d.status, some d.note,
    some d.expectedRevision, d.expectedSupplementId⟩

end Decision

namespace WorkItems

def acceptDecision (id : Uuid) (d : Decision) (task : WorkItemTaskRow) (item : WorkItemRow) :
    WorkSql Acceptance := do
  ensure (task.status = .pending ∧ item.processStatus = .waiting ∧
    item.revision = d.expectedRevision) .conflict
  let seen ← read fun db => db.latestSupplement item.id
  ensure (seen = d.expectedSupplementId) .conflict
  decideTask id (d.stored task.nodeId)
  advanceItem item.id d.expectedRevision (fun _ _ => true) (fun w => w)
  pure .accepted

def decide (actor : UserId) (id : Uuid) (d : Decision) : WorkSql Acceptance := do
  ensure (1 ≤ d.expectedRevision ∧ d.note.utf8ByteSize ≤ 8000) .conflict
  let rights ← read fun db => db.taskRights actor id d.messageId
  let (task, item) ← demand rights .permissionDenied
  ensure (task.nodeId ≠ .publishGithub) .conflict
  ensure (d.validFor task.nodeId item.definitionVersion) .conflict
  if task.decision.requestId.isSome then
    ensure (d.sameAs task.decision) .conflict
    pure .repeated
  else acceptDecision id d task item

end WorkItems

/-! ### Supplements -/

structure SupplementCommand where
  sourceMessageId : MessageId
  requestId : Uuid
  expectedRevision : Int
  body : String
deriving DecidableEq

namespace WorkItems

variable (service : WorkItems)

def insertSupplement (row : SupplementRow) : WorkSql Unit := do
  let taken ← read fun (db : WorkDb) => db.supplements.any fun s => s.id = row.id ∨
    (s.actorId = row.actorId ∧ s.requestId = row.requestId) ∨
    (s.workItemId = row.workItemId ∧ s.expectedRevision = row.expectedRevision)
  ensure (taken = false) (storageError "UNIQUE constraint failed: work_item_supplements")
  write fun db => { db with supplements := db.supplements ++ [row] }

/-- The same compare-and-set as `decide`: only an addition or the decision can win. -/
def acceptSupplement (actor : UserId) (item : Uuid) (c : SupplementCommand) (id : Uuid) :
    WorkSql Acceptance := do
  ensure (service.supplementsEnabled = true) .conflict
  advanceItem item c.expectedRevision (fun db w => db.openReview w) (fun w => w)
  insertSupplement ⟨id, item, actor, c.requestId, c.expectedRevision, c.body⟩
  pure .accepted

/-- `id` is the generated id of the new row. -/
def addSupplement (actor : UserId) (item : Uuid) (c : SupplementCommand) (id : Uuid) :
    WorkSql Acceptance := do
  ensure (1 ≤ c.expectedRevision ∧ trim c.body ≠ "" ∧ c.body.utf8ByteSize ≤ 8000) .conflict
  let rights ← read fun db => db.supplementRights actor item c.sourceMessageId
  let _ ← demand rights .permissionDenied
  let existing ← read fun (db : WorkDb) => db.supplements.find? fun s =>
    s.actorId = actor ∧ s.requestId = c.requestId
  match existing with
  | some s =>
    ensure (s.workItemId = item ∧ s.expectedRevision = c.expectedRevision ∧ s.body = c.body)
      .conflict
    pure .repeated
  | none => service.acceptSupplement actor item c id

end WorkItems

/-! ### Exports -/

structure ExportCommand where
  messageId : MessageId
  requestId : Uuid
  expectedRevision : Int
  title : String
  body : String
  send : Bool
  expectedRepositoryId : Option Int
  expectedBindingRevision : Option Int
deriving DecidableEq

def exportMarker : String := "<!-- sproyt-work-item-export:"

namespace ExportCommand

variable (c : ExportCommand)

def disposition : Disposition := if c.send then .publish else .skip

def valid (github : Bool) : Prop :=
  1 ≤ c.expectedRevision ∧ c.title.length ≤ 160 ∧ c.body.utf8ByteSize ≤ 8000 ∧
  (c.send = true → trim c.title ≠ "" ∧ trim c.body ≠ "" ∧ github = true) ∧
  (c.send = true → c.expectedRepositoryId ≠ none ∧ c.expectedBindingRevision ≠ none) ∧
  (c.send = false → c.title = "" ∧ c.body = "" ∧ c.expectedRepositoryId = none ∧
    c.expectedBindingRevision = none) ∧
  ¬ exportMarker.toList <:+: c.body.toList

instance (github : Bool) : Decidable (c.valid github) := inferInstanceAs (Decidable (_ ∧ _))

def sameAs (saved : ExportRow) : Prop :=
  saved.requestId = c.requestId ∧ saved.expectedRevision = c.expectedRevision ∧
  saved.disposition = c.disposition ∧ saved.title = c.title ∧ saved.body = c.body ∧
  (c.send = true → saved.target.map (·.1.repositoryId) = c.expectedRepositoryId ∧
    saved.target.map (·.2) = c.expectedBindingRevision)

instance (saved : ExportRow) : Decidable (c.sameAs saved) := inferInstanceAs (Decidable (_ ∧ _))

def skipped : String := "\x7b\"github_export\":\"skipped\"\x7d"

def stored : TaskDecision :=
  ⟨some c.requestId, none, none, none, if c.send then none else some skipped,
    some c.expectedRevision, none⟩

def row (item task : Uuid) (actor : UserId) (target : Option GithubBindingRow) (now : Int) :
    ExportRow :=
  { workItemId := item
    taskId := task
    actorId := actor
    requestId := c.requestId
    expectedRevision := c.expectedRevision
    disposition := c.disposition
    title := c.title
    body := c.body
    target := target.map fun b => (b.target, b.revision)
    marker := exportMarker ++ c.requestId.hyphenated ++ " -->"
    status := if c.send then .pending else .skipped
    createdAt := now }

end ExportCommand

namespace WorkItems

variable (service : WorkItems)

def insertExport (row : ExportRow) : WorkSql Unit := do
  let taken ← read fun (db : WorkDb) => db.githubExports.any fun e =>
    e.workItemId = row.workItemId ∨ e.taskId = row.taskId ∨ e.marker = row.marker ∨
    (e.actorId = row.actorId ∧ e.requestId = row.requestId)
  ensure (taken = false) (storageError "UNIQUE constraint failed: work_item_github_exports")
  write fun db => { db with githubExports := db.githubExports ++ [row] }

def acceptExport (actor : UserId) (id : Uuid) (c : ExportCommand) (task : WorkItemTaskRow)
    (item : WorkItemRow) (process : ExportProcessRow) (now : Int) : WorkSql Acceptance := do
  ensure (task.status = .pending ∧ process.waiting = true ∧ item.status = "planned" ∧
    item.revision = c.expectedRevision) .conflict
  let target ← read fun db => db.exportTarget item
  ensure (c.send = true → target.isSome) .permissionDenied
  ensure (c.send = true → target.map (·.target.repositoryId) = c.expectedRepositoryId ∧
    target.map (·.revision) = c.expectedBindingRevision) .conflict
  insertExport (c.row item.id id actor target now)
  advanceItem item.id c.expectedRevision (fun _ _ => true) (fun w => w)
  decideTask id c.stored
  pure .accepted

def exportGithub (actor : UserId) (id : Uuid) (c : ExportCommand) (now : Int) :
    WorkSql Acceptance := do
  ensure (c.valid service.github) .conflict
  let rights ← read fun db => db.exportRights actor id c.messageId
  let (task, item, process, canExport) ← demand rights .permissionDenied
  ensure (c.send = true → canExport = true) .permissionDenied
  let existing ← read fun (db : WorkDb) =>
    db.githubExports.find? fun e => e.workItemId = item.id
  match existing with
  | some saved =>
    ensure (c.sameAs saved) .conflict
    pure .repeated
  | none => acceptExport actor id c task item process now

end WorkItems

/-! ### Changing the status by hand -/

def transitions (status : String) : List String :=
  if status = "planned" then ["in_development", "resolved", "rejected"]
  else if status = "in_development" then ["planned", "resolved", "rejected"]
  else if status = "resolved" ∨ status = "rejected" then ["planned"]
  else []

/-- The rows that the partial index `work_item_status_one_active` is about. -/
def StatusChangeRow.active (x : StatusChangeRow) : Bool :=
  x.status = .pending ∨ x.status = .waiting

structure StatusStart where
  sourceTaskId : Uuid
  sourceMessageId : MessageId
  requestId : Uuid
  expectedRevision : Int
deriving DecidableEq

structure StatusDecision where
  messageId : MessageId
  requestId : Uuid
  expectedRevision : Int
  status : String
  internalNote : String
  publicFeedback : String
  noChange : Bool
deriving DecidableEq

def StatusStart.sameAs (c : StatusStart) (item : Uuid) (r : TaskRouteRow) (old : StatusChangeRow) :
    Prop :=
  old.workItemId = item ∧ old.sourceTaskId = c.sourceTaskId ∧
  old.sourceMessageId = c.sourceMessageId ∧ old.startRevision = c.expectedRevision ∧
  old.routeId = r.id ∧ old.channelId = r.channelId

instance (c : StatusStart) (item : Uuid) (r : TaskRouteRow) (old : StatusChangeRow) :
    Decidable (c.sameAs item r old) := inferInstanceAs (Decidable (_ ∧ _))

namespace WorkItems

variable (service : WorkItems)

/-- `insert … on conflict do nothing`, which has to insert its row. -/
def insertChange (row : StatusChangeRow) : WorkSql Unit := do
  let taken ← read fun (db : WorkDb) => db.statusChanges.any fun x => x.id = row.id ∨
    (x.actorId = row.actorId ∧ x.requestId = row.requestId) ∨
    (x.workItemId = row.workItemId ∧ x.active ∧ row.active)
  ensure (taken = false) .conflict
  write fun db => { db with statusChanges := db.statusChanges ++ [row] }

def openChange (actor : UserId) (item : Uuid) (c : StatusStart) (r : TaskRouteRow) (id : Uuid)
    (now : Int) : WorkSql (Uuid × Acceptance) := do
  let row ← read fun db => db.item? item
  let w ← demand row Sql.rowNotFound
  ensure (w.revision = c.expectedRevision) .conflict
  insertChange
    { id, workItemId := item, actorId := actor, channelId := r.channelId, routeId := r.id
      sourceTaskId := c.sourceTaskId, sourceMessageId := c.sourceMessageId
      requestId := c.requestId, startRevision := c.expectedRevision, createdAt := now }
  pure (id, .accepted)

/-- The transaction of `start_status`. The source task is read before, in statements of its
own, so nothing is known of it here. -/
def startStatus (actor : UserId) (item : Uuid) (c : StatusStart) (id : Uuid) (now : Int) :
    WorkSql (Uuid × Acceptance) := do
  ensure (service.heart = true) (storageError "Heart unavailable")
  let found ← read fun db => db.route actor item
  let r ← demand found .permissionDenied
  let old ← read fun (db : WorkDb) => db.statusChanges.find? fun x =>
    x.actorId = actor ∧ x.requestId = c.requestId
  match old with
  | some x =>
    ensure (c.sameAs item r x) .conflict
    pure (x.id, .repeated)
  | none => openChange actor item c r id now

end WorkItems

namespace StatusDecision

variable (c : StatusDecision)

def valid : Prop :=
  c.internalNote.length ≤ 2000 ∧ c.publicFeedback.length ≤ 2000 ∧
  (c.noChange = true → c.status = "" ∧ c.internalNote = "" ∧ c.publicFeedback = "")

instance : Decidable c.valid := inferInstanceAs (Decidable (_ ∧ _))

def sameAs (old : StatusRecord) : Prop :=
  old.requestId = c.requestId ∧ old.revision = c.expectedRevision ∧ old.status = c.status ∧
  old.internalNote = c.internalNote ∧ old.publicFeedback = c.publicFeedback ∧
  old.noChange = c.noChange

instance (old : StatusRecord) : Decidable (c.sameAs old) := inferInstanceAs (Decidable (_ ∧ _))

def revision : Int := c.expectedRevision + if c.noChange then 0 else 1

def result (change : Uuid) (before : String) : Json :=
  .object [("case_revision", .number (toString c.revision)), ("change_id", .uuid change),
    ("from_status", .string before), ("no_change", .bool c.noChange),
    ("status", .string (if c.noChange then before else c.status))]

def stored (change : Uuid) (before : String) : StatusRecord :=
  ⟨c.requestId, c.expectedRevision, c.status, c.internalNote, c.publicFeedback, c.noChange,
    c.result change before⟩

end StatusDecision

/-- The status change whose task and message these are, with its work item. -/
def WorkDb.changeRights (db : WorkDb) (actor : UserId) (task : Uuid) (message : MessageId) :
    Option (StatusChangeRow × WorkItemRow) :=
  (db.statusChanges.find? fun x =>
    x.taskId = some task ∧ x.messageId = some message ∧ x.actorId = actor).bind fun x =>
      (db.item? x.workItemId).map fun w => (x, w)

namespace WorkItems

def recordStatus (id : Uuid) (record : StatusRecord) : WorkSql Unit :=
  updateOne
    (fun db => db.statusChanges.countP fun x =>
      x.id = id ∧ x.decision = none ∧ x.status = .waiting)
    (fun db => db.mapChanges fun x =>
      if x.id = id ∧ x.decision = none ∧ x.status = .waiting then
        { x with decision := some record }
      else x)
    .conflict

def insertHistory (row : StatusHistoryRow) : WorkSql Unit := do
  let taken ← read fun (db : WorkDb) => db.statusHistory.any fun h => h.id = row.id ∨
    h.changeId = row.changeId ∨ (h.workItemId = row.workItemId ∧ h.revision = row.revision)
  ensure (taken = false) (storageError "UNIQUE constraint failed: work_item_status_history")
  write fun db => { db with statusHistory := db.statusHistory ++ [row] }

def moveStatus (actor : UserId) (c : StatusDecision) (x : StatusChangeRow) (w : WorkItemRow)
    (id : Uuid) (now : Int) : WorkSql Unit := do
  advanceItem w.id c.expectedRevision (fun _ _ => true) fun w => { w with status := c.status }
  insertHistory ⟨id, x.id, w.id, c.revision, actor, w.status, c.status, c.internalNote,
    c.publicFeedback, now⟩

def acceptStatus (actor : UserId) (c : StatusDecision) (x : StatusChangeRow) (w : WorkItemRow)
    (id : Uuid) (now : Int) : WorkSql Acceptance := do
  ensure (x.status = .waiting ∧ w.revision = c.expectedRevision ∧
    (c.noChange = false → c.status ∈ transitions w.status)) .conflict
  recordStatus x.id (c.stored x.id w.status)
  if c.noChange = false then moveStatus actor c x w id now else pure ()
  pure .accepted

/-- `id` is the generated id of the history entry. -/
def changeStatus (actor : UserId) (task : Uuid) (c : StatusDecision) (id : Uuid) (now : Int) :
    WorkSql Acceptance := do
  ensure c.valid .conflict
  let rights ← read fun db => db.changeRights actor task c.messageId
  let (x, w) ← demand rights .permissionDenied
  let found ← read fun db => db.route actor w.id
  let r ← demand found .permissionDenied
  ensure (r.id = x.routeId ∧ r.channelId = x.channelId) .permissionDenied
  match x.decision with
  | some old =>
    ensure (c.sameAs old) .conflict
    pure .repeated
  | none => acceptStatus actor c x w id now

end WorkItems

end Sproyt
