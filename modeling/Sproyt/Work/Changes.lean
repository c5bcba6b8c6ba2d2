import Sproyt.Lib.Moves
import Sproyt.Work.Sync

/-!
# What is done to the work items

Every statement of the commands and the passes updates one row, found by its key, or adds a row
under a new key. The lemmas here say so for one transaction after the other.
-/

namespace Sproyt

open List Txn WorkDb Table Option

structure WorkTables where
  items : List WorkItemRow
  tasks : List WorkItemTaskRow
  supplements : List SupplementRow
  exports : List ExportRow
  changes : List StatusChangeRow
  history : List StatusHistoryRow

namespace WorkDb

variable (db : WorkDb)

def tables : WorkTables :=
  ⟨db.items, db.tasks, db.supplements, db.githubExports, db.statusChanges, db.statusHistory⟩

def setItem (w : WorkItemRow) : WorkDb :=
  { db with chat := { db.chat with workItems := Table.set (·.id) w db.items } }

def setTask (r : WorkItemTaskRow) : WorkDb :=
  { db with chat := { db.chat with workItemTasks := Table.set (·.id) r db.tasks } }

def setChange (x : StatusChangeRow) : WorkDb :=
  { db with statusChanges := Table.set (·.id) x db.statusChanges }

end WorkDb

namespace WorkTables

variable (t : WorkTables)

def setItem (w : WorkItemRow) : WorkTables := { t with items := Table.set (·.id) w t.items }

def setTask (r : WorkItemTaskRow) : WorkTables := { t with tasks := Table.set (·.id) r t.tasks }

def setChange (x : StatusChangeRow) : WorkTables :=
  { t with changes := Table.set (·.id) x t.changes }

structure Keyed : Prop where
  items : (t.items.map (·.id)).Nodup
  tasks : (t.tasks.map (·.id)).Nodup
  nodes : (t.tasks.map fun r => (r.workItemId, r.nodeId)).Nodup
  supplements : (t.supplements.map fun s => (s.actorId, s.requestId)).Nodup
  exports : (t.exports.map (·.workItemId)).Nodup
  changes : (t.changes.map (·.id)).Nodup
  columns : uniqueChanges t.changes

end WorkTables

/-! ### Rows under a key -/

variable {f : WorkItemRow → WorkItemRow} {r : WorkItemTaskRow} {x : StatusChangeRow} {u : Unit}

theorem advanceItem_ok {w : WorkItemRow} {expected : Int} {also : WorkDb → WorkItemRow → Bool}
    {db db' : WorkDb} (h : (advanceItem w.id expected also f).run db = .ok (u, db'))
    (hkeys : (db.items.map (·.id)).Nodup) (hw : w ∈ db.items) (hf : ∀ w, (f w).id = w.id) :
    w.revision = expected ∧ db' = db.setItem { f w with revision := w.revision + 1 } := by
  obtain ⟨hone, rfl⟩ := updateOne_ok.1 h
  obtain ⟨⟨-, hrevision, -⟩, heq⟩ := map_ite_of_row
    (f := fun w => { f w with revision := w.revision + 1 }) hkeys (fun w hw => hw.1) hf hw hone
  refine ⟨hrevision, ?_⟩
  simp only [mapItems, setItem, heq]

theorem decideTask_ok {decision : TaskDecision} {db db' : WorkDb}
    (h : (decideTask r.id decision).run db = .ok (u, db')) (hkeys : (db.tasks.map (·.id)).Nodup)
    (hr : r ∈ db.tasks) : r.decision.requestId = none ∧ r.status = .pending ∧
      db' = db.setTask { r with decision, deliveryReady := false } := by
  obtain ⟨hone, rfl⟩ := updateOne_ok.1 h
  obtain ⟨hopen, heq⟩ := map_ite_of_row
    (p := fun x : WorkItemTaskRow => x.undecided r.id = true)
    (f := fun r => { r with decision, deliveryReady := false }) hkeys
    (fun r hr => (of_decide_eq_true hr).1) (fun _ => rfl) hr (by simpa using hone)
  obtain ⟨-, hrequest, hstatus⟩ := of_decide_eq_true hopen
  refine ⟨hrequest, hstatus, ?_⟩
  simp only [mapTasks, setTask, heq]

theorem recordStatus_ok {record : StatusRecord} {db db' : WorkDb}
    (h : (WorkItems.recordStatus x.id record).run db = .ok (u, db'))
    (hkeys : (db.statusChanges.map (·.id)).Nodup) (hx : x ∈ db.statusChanges) :
    db' = db.setChange { x with decision := some record } := by
  obtain ⟨hone, rfl⟩ := updateOne_ok.1 h
  have heq := (map_ite_of_row
    (f := fun x : StatusChangeRow => { x with decision := some record }) hkeys
    (fun x hx => hx.1) (fun _ => rfl) hx hone).2
  simp only [mapChanges, setChange, heq]

/-! ### Whom the access checks find -/

variable {db db' : WorkDb} {actor : UserId} {id : Uuid} {message : MessageId} {w : WorkItemRow}

theorem item?_some (h : db.item? id = some w) : w ∈ db.items ∧ w.id = id := by
  have hid : w.id = id := by simpa using find?_some h
  exact ⟨mem_of_find?_eq_some h, hid⟩

theorem taskRights_some (h : db.taskRights actor id message = some (r, w)) :
    r ∈ db.tasks ∧ w ∈ db.items ∧ r.id = id ∧ r.messageId = message ∧ w.id = r.workItemId := by
  obtain ⟨r', hfind, h⟩ := bind_eq_some_iff.1 h
  obtain ⟨w', hitem, h⟩ := bind_eq_some_iff.1 h
  by_cases hmay : db.mayDecide actor r' w' = true
  · rw [if_pos hmay] at h
    cases h
    obtain ⟨hw, hid⟩ := item?_some hitem
    have hrow : r.id = id ∧ r.messageId = message := by simpa using find?_some hfind
    exact ⟨mem_of_find?_eq_some hfind, hw, hrow.1, hrow.2, hid⟩
  · rw [if_neg hmay] at h
    cases h

theorem supplementRights_some (h : db.supplementRights actor id message = some w) :
    w ∈ db.items ∧ w.id = id ∧ w.sourceMessageId = message ∧ w.requestedBy = actor := by
  obtain ⟨w', hitem, h⟩ := bind_eq_some_iff.1 h
  obtain ⟨hw, hid⟩ := item?_some hitem
  split at h
  · next hrow =>
    cases h
    exact ⟨hw, hid, hrow.1, hrow.2.1⟩
  · cases h

theorem exportRights_some {x : ExportProcessRow} {canExport : Bool}
    (h : db.exportRights actor id message = some (r, w, x, canExport)) :
    r ∈ db.tasks ∧ w ∈ db.items ∧ r.id = id ∧ r.messageId = message ∧
      r.nodeId = .publishGithub ∧ w.id = r.workItemId := by
  obtain ⟨r', hfind, h⟩ := bind_eq_some_iff.1 h
  obtain ⟨w', hitem, h⟩ := bind_eq_some_iff.1 h
  obtain ⟨x', -, h⟩ := bind_eq_some_iff.1 h
  obtain ⟨p, -, h⟩ := bind_eq_some_iff.1 h
  obtain ⟨hw, hid⟩ := item?_some hitem
  split at h
  · cases h
    have hrow : r.id = id ∧ r.messageId = message ∧ r.nodeId = .publishGithub := by
      simpa using find?_some hfind
    exact ⟨mem_of_find?_eq_some hfind, hw, hrow.1, hrow.2.1, hrow.2.2, hid⟩
  · cases h

theorem changeRights_some (h : db.changeRights actor id message = some (x, w)) :
    x ∈ db.statusChanges ∧ w ∈ db.items ∧ x.taskId = some id ∧ x.messageId = some message ∧
      x.actorId = actor ∧ w.id = x.workItemId := by
  obtain ⟨x', hfind, h⟩ := bind_eq_some_iff.1 h
  obtain ⟨w', hitem, heq⟩ := map_eq_some_iff.1 h
  cases heq
  obtain ⟨hw, hid⟩ := item?_some hitem
  have hrow : x.taskId = some id ∧ x.messageId = some message ∧ x.actorId = actor := by
    simpa using find?_some hfind
  exact ⟨mem_of_find?_eq_some hfind, hw, hrow.1, hrow.2.1, hrow.2.2, hid⟩

theorem route_some {r : TaskRouteRow} (h : db.route actor id = some r) :
    ∃ w ∈ db.items, w.id = id ∧ w.processStatus = .completed := by
  obtain ⟨w, hitem, h⟩ := bind_eq_some_iff.1 h
  obtain ⟨r', -, h⟩ := bind_eq_some_iff.1 h
  obtain ⟨hw, hid⟩ := item?_some hitem
  split at h
  · next hroute => exact ⟨w, hw, hid, hroute.1⟩
  · cases h

/-! ### Accepted commands -/

/-- What an accepted command has found, and what it has made of it. -/
inductive Accepts (service : WorkItems) : WorkCommand → WorkTables → WorkTables → Prop
  | decide {t : WorkTables} {actor : UserId} {d : Decision} {r : WorkItemTaskRow} {w : WorkItemRow}
      (hr : r ∈ t.tasks) (hw : w ∈ t.items) (hitem : w.id = r.workItemId)
      (hmessage : r.messageId = d.messageId) (hnode : r.nodeId ≠ .publishGithub)
      (hbounds : 1 ≤ d.expectedRevision ∧ d.note.utf8ByteSize ≤ 8000)
      (hvalid : d.validFor r.nodeId w.definitionVersion = true)
      (hopen : r.decision.requestId = none) (hpending : r.status = .pending)
      (hrevision : w.revision = d.expectedRevision) :
      Accepts service (.decide actor r.id d) t
        ((t.setTask { r with decision := d.stored r.nodeId, deliveryReady := false }).setItem
          { w with revision := w.revision + 1 })
  | addSupplement {t : WorkTables} {actor : UserId} {c : SupplementCommand} {id : Uuid}
      {w : WorkItemRow} (hw : w ∈ t.items) (hmessage : w.sourceMessageId = c.sourceMessageId)
      (hbounds : 1 ≤ c.expectedRevision ∧ trim c.body ≠ "" ∧ c.body.utf8ByteSize ≤ 8000)
      (hnew : ∀ s ∈ t.supplements, (s.actorId, s.requestId) ≠ (actor, c.requestId))
      (hrevision : w.revision = c.expectedRevision) :
      Accepts service (.addSupplement actor w.id c id) t
        { t.setItem { w with revision := w.revision + 1 } with
          supplements := t.supplements ++
            [⟨id, w.id, actor, c.requestId, c.expectedRevision, c.body⟩] }
  | exportGithub {t : WorkTables} {actor : UserId} {c : ExportCommand} {now : Int}
      {r : WorkItemTaskRow} {w : WorkItemRow} {target : Option GithubBindingRow}
      (hr : r ∈ t.tasks) (hw : w ∈ t.items) (hitem : w.id = r.workItemId)
      (hmessage : r.messageId = c.messageId) (hnode : r.nodeId = .publishGithub)
      (hvalid : c.valid service.github)
      (htarget : c.send = true → target.map (·.target.repositoryId) = c.expectedRepositoryId ∧
        target.map (·.revision) = c.expectedBindingRevision)
      (hnew : ∀ e ∈ t.exports, e.workItemId ≠ w.id)
      (hopen : r.decision.requestId = none) (hpending : r.status = .pending)
      (hrevision : w.revision = c.expectedRevision) :
      Accepts service (.exportGithub actor r.id c now) t
        { (t.setTask { r with decision := c.stored, deliveryReady := false }).setItem
            { w with revision := w.revision + 1 } with
          exports := t.exports ++ [c.row w.id r.id actor target now] }
  | noChange {t : WorkTables} {actor : UserId} {task : Uuid} {c : StatusDecision} {id : Uuid}
      {now : Int} {x : StatusChangeRow} {w : WorkItemRow}
      (hx : x ∈ t.changes) (hw : w ∈ t.items) (hitem : w.id = x.workItemId)
      (htask : x.taskId = some task) (hmessage : x.messageId = some c.messageId)
      (hactor : x.actorId = actor) (hvalid : c.valid)
      (hopen : x.decision = none) (hwaiting : x.status = .waiting)
      (hrevision : w.revision = c.expectedRevision) (hsame : c.noChange = true) :
      Accepts service (.changeStatus actor task c id now) t
        (t.setChange { x with decision := some (c.stored x.id w.status) })
  | changeStatus {t : WorkTables} {actor : UserId} {task : Uuid} {c : StatusDecision} {id : Uuid}
      {now : Int} {x : StatusChangeRow} {w : WorkItemRow}
      (hx : x ∈ t.changes) (hw : w ∈ t.items) (hitem : w.id = x.workItemId)
      (htask : x.taskId = some task) (hmessage : x.messageId = some c.messageId)
      (hactor : x.actorId = actor) (hvalid : c.valid)
      (hopen : x.decision = none) (hwaiting : x.status = .waiting)
      (hrevision : w.revision = c.expectedRevision) (hmove : c.noChange = false)
      (hallowed : c.status ∈ transitions w.status) :
      Accepts service (.changeStatus actor task c id now) t
        { (t.setChange { x with decision := some (c.stored x.id w.status) }).setItem
            { w with status := c.status, revision := w.revision + 1 } with
          history := t.history ++ [⟨id, x.id, w.id, c.revision, actor, w.status, c.status,
            c.internalNote, c.publicFeedback, now⟩] }

namespace WorkItems

variable (service : WorkItems) {a : Acceptance} {item : Uuid} {now : Int}

theorem decide_ok {d : Decision} (hkeys : db.tables.Keyed)
    (h : (WorkItems.decide actor id d).run db = .ok (a, db')) :
    (a = .repeated ∧ db' = db ∧ ∃ r w, db.taskRights actor id d.messageId = some (r, w) ∧
        r.nodeId ≠ .publishGithub ∧ d.sameAs r.decision) ∨
      (a = .accepted ∧ Accepts service (.decide actor id d) db.tables db'.tables) := by
  simp only [WorkItems.decide, answers] at h
  obtain ⟨hbounds, ⟨r, w⟩, hrights, hnode, hvalid, h⟩ := h
  by_cases hdecided : r.decision.requestId.isSome = true
  · rw [if_pos hdecided] at h
    simp only [answers] at h
    obtain ⟨hsame, rfl, rfl⟩ := h
    exact .inl ⟨rfl, rfl, r, w, hrights, hnode, hsame⟩
  · rw [if_neg hdecided] at h
    simp only [acceptDecision, answers] at h
    obtain ⟨⟨-, -, hrevision⟩, -, _, _, htask, _, _, hadvance, rfl, rfl⟩ := h
    obtain ⟨hr, hw, rfl, hmessage, hitem⟩ := taskRights_some hrights
    obtain ⟨hopen, hpending, rfl⟩ := decideTask_ok htask hkeys.tasks hr
    obtain ⟨-, rfl⟩ := advanceItem_ok hadvance hkeys.items hw fun _ => rfl
    exact .inr ⟨rfl, .decide hr hw hitem hmessage hnode hbounds hvalid hopen hpending hrevision⟩

theorem insertSupplement_ok {row : SupplementRow}
    (h : (insertSupplement row).run db = .ok (u, db')) :
    (∀ s ∈ db.supplements, (s.actorId, s.requestId) ≠ (row.actorId, row.requestId)) ∧
      db' = { db with supplements := db.supplements ++ [row] } := by
  simp only [insertSupplement, answers] at h
  obtain ⟨hfree, rfl⟩ := h
  refine ⟨fun s hs heq => ?_, rfl⟩
  have hnot := any_eq_false.1 hfree s hs
  obtain ⟨hactor, hrequest⟩ := Prod.mk.inj heq
  simp [hactor, hrequest] at hnot

theorem addSupplement_ok {c : SupplementCommand} (hkeys : db.tables.Keyed)
    (h : (service.addSupplement actor item c id).run db = .ok (a, db')) :
    (a = .repeated ∧ db' = db ∧ ∃ w s, db.supplementRights actor item c.sourceMessageId = some w ∧
        s ∈ db.supplements ∧ s.actorId = actor ∧ s.requestId = c.requestId ∧
        s.workItemId = item ∧ s.expectedRevision = c.expectedRevision ∧ s.body = c.body) ∨
      (a = .accepted ∧ Accepts service (.addSupplement actor item c id) db.tables db'.tables) := by
  simp only [addSupplement, answers] at h
  obtain ⟨hbounds, w, hrights, h⟩ := h
  split at h
  · next s hexisting =>
    simp only [answers] at h
    obtain ⟨hsame, rfl, rfl⟩ := h
    have hkey : s.actorId = actor ∧ s.requestId = c.requestId := by
      simpa using find?_some hexisting
    exact .inl ⟨rfl, rfl, w, s, hrights, mem_of_find?_eq_some hexisting, hkey.1, hkey.2, hsame⟩
  · simp only [acceptSupplement, answers] at h
    obtain ⟨-, _, _, hadvance, _, _, hinsert, rfl, rfl⟩ := h
    obtain ⟨hw, rfl, hmessage, -⟩ := supplementRights_some hrights
    obtain ⟨hrevision, rfl⟩ := advanceItem_ok hadvance hkeys.items hw fun _ => rfl
    obtain ⟨hnew, rfl⟩ := insertSupplement_ok hinsert
    exact .inr ⟨rfl, .addSupplement hw hmessage hbounds hnew hrevision⟩

theorem insertExport_ok {row : ExportRow} (h : (insertExport row).run db = .ok (u, db')) :
    (∀ e ∈ db.githubExports, e.workItemId ≠ row.workItemId) ∧
      db' = { db with githubExports := db.githubExports ++ [row] } := by
  simp only [insertExport, answers] at h
  obtain ⟨hfree, rfl⟩ := h
  refine ⟨fun e he heq => ?_, rfl⟩
  have hnot := any_eq_false.1 hfree e he
  simp [heq] at hnot

theorem exportGithub_ok {c : ExportCommand} (hkeys : db.tables.Keyed)
    (h : (service.exportGithub actor id c now).run db = .ok (a, db')) :
    (a = .repeated ∧ db' = db ∧ c.valid service.github ∧ ∃ r w x canExport e,
        db.exportRights actor id c.messageId = some (r, w, x, canExport) ∧
        e ∈ db.githubExports ∧ e.workItemId = w.id ∧ c.sameAs e) ∨
      (a = .accepted ∧ Accepts service (.exportGithub actor id c now) db.tables db'.tables) := by
  simp only [exportGithub, answers] at h
  obtain ⟨hvalid, ⟨r, w, x, canExport⟩, hrights, -, h⟩ := h
  split at h
  · next e hexisting =>
    simp only [answers] at h
    obtain ⟨hsame, rfl, rfl⟩ := h
    have hkey : e.workItemId = w.id := by simpa using find?_some hexisting
    exact .inl ⟨rfl, rfl, hvalid, r, w, x, canExport, e, hrights,
      mem_of_find?_eq_some hexisting, hkey, hsame⟩
  · simp only [acceptExport, answers] at h
    obtain ⟨⟨-, -, -, hrevision⟩, -, htarget, _, _, hinsert, _, _, hadvance, _, _, htask, rfl,
      rfl⟩ := h
    obtain ⟨hr, hw, rfl, hmessage, hnode, hitem⟩ := exportRights_some hrights
    obtain ⟨hnew, rfl⟩ := insertExport_ok hinsert
    obtain ⟨-, rfl⟩ := advanceItem_ok hadvance hkeys.items hw fun _ => rfl
    obtain ⟨hopen, hpending, rfl⟩ := decideTask_ok htask hkeys.tasks hr
    exact .inr ⟨rfl, .exportGithub hr hw hitem hmessage hnode hvalid htarget hnew hopen hpending
      hrevision⟩

theorem insertHistory_ok {row : StatusHistoryRow} (h : (insertHistory row).run db = .ok (u, db')) :
    db' = { db with statusHistory := db.statusHistory ++ [row] } := by
  simp only [insertHistory, answers] at h
  obtain ⟨-, rfl⟩ := h
  rfl

theorem changeStatus_ok {task id : Uuid} {c : StatusDecision} (hkeys : db.tables.Keyed)
    (h : (changeStatus actor task c id now).run db = .ok (a, db')) :
    (a = .repeated ∧ db' = db ∧ ∃ x w old, db.changeRights actor task c.messageId = some (x, w) ∧
        x.decision = some old ∧ c.sameAs old) ∨
      (a = .accepted ∧
        Accepts service (.changeStatus actor task c id now) db.tables db'.tables) := by
  simp only [changeStatus, answers] at h
  obtain ⟨hvalid, ⟨x, w⟩, hrights, r, -, -, h⟩ := h
  cases hdecision : x.decision with
  | some old =>
    simp only [hdecision, answers] at h
    obtain ⟨hsame, rfl, rfl⟩ := h
    exact .inl ⟨rfl, rfl, x, w, old, hrights, hdecision, hsame⟩
  | none =>
    simp only [hdecision, acceptStatus, answers] at h
    obtain ⟨⟨hwaiting, hrevision, hallowed⟩, _, _, hrecord, h⟩ := h
    obtain ⟨hx, hw, htask, hmessage, hactor, hitem⟩ := changeRights_some hrights
    obtain rfl := recordStatus_ok hrecord hkeys.changes hx
    by_cases hmove : c.noChange = false
    · rw [if_pos hmove] at h
      simp only [moveStatus, answers] at h
      obtain ⟨_, _, hadvance, _, _, hhistory, rfl, rfl⟩ := h
      obtain ⟨-, rfl⟩ := advanceItem_ok hadvance hkeys.items hw fun _ => rfl
      rw [insertHistory_ok hhistory]
      exact .inr ⟨rfl, .changeStatus hx hw hitem htask hmessage hactor hvalid hdecision hwaiting
        hrevision hmove (hallowed hmove)⟩
    · rw [if_neg hmove] at h
      obtain ⟨rfl, rfl⟩ := pure_ok.1 h
      exact .inr ⟨rfl, .noChange hx hw hitem htask hmessage hactor hvalid hdecision hwaiting
        hrevision (by simpa using hmove)⟩

end WorkItems

/-! ### What a step can do -/

def TaskNode.ofReview : TaskNode → Bool
  | .review | .provideInformation | .followupReview => true
  | _ => false

def WorkItemRow.settledBy (w : WorkItemRow) (node : TaskNode) (d : TaskDecision) : WorkItemRow :=
  match d.category, d.priority, d.status with
  | some category, some priority, some status =>
    { w with category := some category, priority := some priority, status := status }
  | _, _, _ => if node = .provideInformation then { w with status := "reviewing" } else w

def WorkItemTaskRow.progressed (r : WorkItemTaskRow) (status : TaskStatus) : WorkItemTaskRow :=
  { r with status, deliveryReady := r.deliveryReady || decide (status = .completed) }

/-- A task of the work item, of whose decision nothing is heard any more. -/
def WorkItemTaskRow.undelivered (item : Uuid) (r : WorkItemTaskRow) : WorkItemTaskRow :=
  if r.workItemId = item ∧ r.status = .pending ∧ r.decision.requestId.isSome then
    { r with deliveryReady := false }
  else r

theorem undelivered_eq (item : Uuid) (r : WorkItemTaskRow) :
    r.undelivered item = { r with deliveryReady := (r.undelivered item).deliveryReady } := by
  unfold WorkItemTaskRow.undelivered
  split <;> rfl

/-- A task of the node can be shown: the one before it in the review is completed. -/
def WorkTables.FollowsOn (t : WorkTables) (item : Uuid) (node : TaskNode) : Prop :=
  ∀ previous ∈ predecessor node, ∃ r ∈ t.tasks, r.workItemId = item ∧ r.nodeId = previous ∧
    r.status = .completed

inductive WorkChange (service : WorkItems) (decode : String → Option Json) :
    WorkLabel → WorkTables → WorkTables → Prop
  | refused {t : WorkTables} {c : WorkCommand} {answer : Except RepositoryError Acceptance}
      (h : answer ≠ .ok .accepted) : WorkChange service decode (.command c answer) t t
  | accepted {t t' : WorkTables} {c : WorkCommand} (h : Accepts service c t t') :
      WorkChange service decode (.command c (.ok .accepted)) t t'
  | claimed {t : WorkTables} {w : WorkItemRow} {token : Uuid} {till : Int} (hw : w ∈ t.items)
      (hopen : w.processStatus = .starting ∨ w.processStatus = .waiting) :
      WorkChange service decode (.claimed w.id token) t
        (t.setItem { w with syncLeaseUntil := some till, syncLeaseToken := some token })
  | updated {t : WorkTables} {w : WorkItemRow} {r : WorkItemTaskRow} {token : Uuid}
      {channel : ChannelId} {task : ReportedTask} {status : TaskStatus}
      (hw : w ∈ t.items) (hr : r ∈ t.tasks) (hid : r.id = task.id) (hitem : r.workItemId = w.id)
      (htoken : w.syncLeaseToken = some token) (hstatus : task.status = .known status)
      (hfinal : r.status = .pending ∨ status = r.status)
      (hresult : status = .completed → w.definitionVersion = .v110 →
        r.decision.requestId.isSome = true ∧
          task.resultMetadata = some (completionResult decode task.nodeId r.decision)) :
      WorkChange service decode (.projected w.id token channel task none) t
        ((t.setTask (r.progressed status)).setItem
          (if status = .completed then w.settledBy task.nodeId r.decision else w))
  | posted {t : WorkTables} {w : WorkItemRow} {token : Uuid} {channel : ChannelId}
      {task : ReportedTask} {status : TaskStatus} {messageId : MessageId}
      (hw : w ∈ t.items) (htoken : w.syncLeaseToken = some token)
      (hstatus : task.status = .known status)
      (hopen : w.definitionVersion = .v110 → status ≠ .completed)
      (hnew : ∀ r ∈ t.tasks, r.id ≠ task.id)
      (hnode : ∀ r ∈ t.tasks, (r.workItemId, r.nodeId) ≠ (w.id, task.nodeId))
      (hfollows : t.FollowsOn w.id task.nodeId) :
      WorkChange service decode (.projected w.id token channel task (some messageId)) t
        { t with tasks := t.tasks ++ [⟨task.id, w.id, messageId, channel, task.assigneeId,
            task.nodeId, status, true, .undecided⟩] }
  | settled {t : WorkTables} {w : WorkItemRow} {token : Uuid} {state : ProcessStatus}
      (hw : w ∈ t.items) (htoken : w.syncLeaseToken = some token) :
      WorkChange service decode (.settled w.id token state) t
        (t.setItem { w with processStatus := state })
  | settledLate {t : WorkTables} {item token : Uuid} {state : ProcessStatus} :
      WorkChange service decode (.settled item token state) t t
  | released {t : WorkTables} {w : WorkItemRow} {token : Uuid} {till : Int} (hw : w ∈ t.items)
      (htoken : w.syncLeaseToken = some token) :
      WorkChange service decode (.released w.id token) t
        (t.setItem { w with syncLeaseUntil := some till, syncLeaseToken := none })
  | releasedLate {t : WorkTables} {item token : Uuid} :
      WorkChange service decode (.released item token) t t
  | quiet {t : WorkTables} : WorkChange service decode .silent t t
  | starting {t : WorkTables} {w : WorkItemRow} (hw : w ∈ t.items) (status : StartStatus)
      (till : Option Int) (available : Int) (instanceId : Option Uuid) :
      WorkChange service decode .silent t
        (t.setItem { w with
          startStatus := status
          leaseUntil := till
          availableAt := available
          heartInstanceId := instanceId })
  | undelivered {t : WorkTables} (item : Uuid) :
      WorkChange service decode .silent t
        { t with tasks := t.tasks.map (·.undelivered item) }
  | opened {t : WorkTables} {w : WorkItemRow} {x : StatusChangeRow} (hw : w ∈ t.items)
      (hitem : x.workItemId = w.id) (hover : w.processStatus = .completed)
      (hid : ∀ y ∈ t.changes, y.id ≠ x.id)
      (hactive : ∀ y ∈ t.changes, y.workItemId = x.workItemId → y.active = false)
      (hnew : x.taskId = none ∧ x.messageId = none ∧ x.heartInstanceId = none ∧ x.decision = none) :
      WorkChange service decode .silent t { t with changes := t.changes ++ [x] }
  | held {t : WorkTables} {x : StatusChangeRow} (hx : x ∈ t.changes) (till : Int)
      (token : Option Uuid) :
      WorkChange service decode .silent t
        (t.setChange { x with leaseUntil := till, leaseToken := token })
  | located {t : WorkTables} {x : StatusChangeRow} {instanceId : Uuid} (hx : x ∈ t.changes)
      (hunique : uniqueChanges
        (t.setChange { x with heartInstanceId := some instanceId }).changes) :
      WorkChange service decode .silent t
        (t.setChange { x with heartInstanceId := some instanceId })
  | shown {t : WorkTables} {x : StatusChangeRow} {task : Uuid} {messageId : MessageId}
      (hx : x ∈ t.changes) (hnew : x.taskId = none)
      (hunique : uniqueChanges (t.setChange { x with
        taskId := some task, messageId := some messageId, status := .waiting }).changes) :
      WorkChange service decode .silent t
        (t.setChange { x with
          taskId := some task, messageId := some messageId, status := .waiting })
  | terminal {t : WorkTables} {x : StatusChangeRow} {status : ChangeStatus} (hx : x ∈ t.changes)
      (hunique : uniqueChanges (t.setChange { x with status }).changes) :
      WorkChange service decode .silent t (t.setChange { x with status })

section

variable {service : WorkItems} {decode : String → Option Json} {host : Host}

theorem WorkChange.mapItems {l : WorkLabel} {p : WorkItemRow → Prop} [DecidablePred p]
    (hkeys : db.tables.Keyed) (hp : ∀ w, p w → w.id = id) (hf : ∀ w, (f w).id = w.id)
    (hnone : (∀ w ∈ db.items, ¬ p w) → WorkChange service decode l db.tables db.tables)
    (hsome : ∀ w ∈ db.items, p w →
      WorkChange service decode l db.tables (db.tables.setItem (f w))) :
    WorkChange service decode l db.tables (db.mapItems fun w => if p w then f w else w).tables := by
  unfold WorkDb.mapItems
  rcases map_ite_cases hkeys.items hp hf with ⟨hno, heq⟩ | ⟨w, hw, hpw, heq⟩
  · rw [show db.items.map _ = _ from heq]
    exact hnone hno
  · rw [show db.items.map _ = _ from heq]
    exact hsome w hw hpw

theorem WorkChange.mapChanges {p : StatusChangeRow → Prop} [DecidablePred p]
    {f : StatusChangeRow → StatusChangeRow} (hkeys : db.tables.Keyed)
    (hp : ∀ x, p x → x.id = id) (hf : ∀ x, (f x).id = x.id)
    (hsome : ∀ x ∈ db.statusChanges,
      WorkChange service decode .silent db.tables (db.tables.setChange (f x))) :
    WorkChange service decode .silent db.tables
      (db.mapChanges fun x => if p x then f x else x).tables := by
  unfold WorkDb.mapChanges
  rcases map_ite_cases hkeys.changes hp hf with ⟨-, heq⟩ | ⟨x, hx, -, heq⟩
  · rw [show db.statusChanges.map _ = _ from heq]
    exact .quiet
  · rw [show db.statusChanges.map _ = _ from heq]
    exact hsome x hx

theorem WorkChange.of_commit {α : Type} {t : Txn WorkDb RepositoryError α}
    (h : ∀ a db', t.run db = .ok (a, db') →
      WorkChange service decode .silent db.tables db'.tables) :
    WorkChange service decode .silent db.tables (t.commit db).2.tables :=
  commit_snd (P := fun u : WorkDb => WorkChange service decode .silent _ u.tables) .quiet h

namespace WorkItems

variable {item token : Uuid} {now next clock : Int} {chat chat' : Db} {channel : ChannelId}
  {o : Option MessageId} {messageId : MessageId}

/-! ### Leases and the process -/

section

variable (hkeys : db.tables.Keyed)

include hkeys

theorem claimSync_change (h : (claimSync id token now).run db = .ok (true, db')) :
    WorkChange service decode (.claimed id token) db.tables db'.tables := by
  simp only [claimSync, answers] at h
  obtain ⟨hany, rfl⟩ := h
  obtain ⟨w₀, hw₀, hfree₀⟩ := any_eq_true.1 hany
  refine .mapItems hkeys (fun w hw => hw.1) (fun _ => rfl) (fun hnone => ?_) fun w hw hfree => ?_
  · exact absurd (of_decide_eq_true hfree₀) (hnone w₀ hw₀)
  · obtain ⟨rfl, -, -, hopen⟩ := hfree
    exact .claimed hw hopen

theorem settleProcess_change {state : ProcessStatus} :
    WorkChange service decode (.settled id token state) db.tables
      ((settleProcess id token state).commit db).2.tables := by
  refine .mapItems hkeys (fun w hw => hw.1) (fun _ => rfl) (fun _ => .settledLate)
    fun w hw hheld => ?_
  obtain ⟨rfl, htoken⟩ := hheld
  exact .settled hw htoken

theorem releaseSync_change :
    WorkChange service decode (.released id token) db.tables
      ((releaseSync id token next).commit db).2.tables := by
  refine .mapItems hkeys (fun w hw => hw.1) (fun _ => rfl) (fun _ => .releasedLate)
    fun w hw hheld => ?_
  obtain ⟨rfl, htoken⟩ := hheld
  exact .released hw htoken

theorem claimStart_change :
    WorkChange service decode .silent db.tables ((claimStart id now).commit db).2.tables := by
  refine .mapItems hkeys (fun w hw => hw.1) (fun _ => rfl) (fun _ => .quiet) fun w hw _ => ?_
  exact .starting hw .leased (some (now + 90)) w.availableAt w.heartInstanceId

theorem settleStart_change {lease : Int} {started : Option Uuid} :
    WorkChange service decode .silent db.tables
      ((settleStart id lease started next).commit db).2.tables := by
  refine .of_commit fun u db' h => ?_
  simp only [settleStart, answers] at h
  obtain ⟨-, rfl⟩ := h
  refine .mapItems hkeys (fun w hw => hw.1) (fun _ => rfl) (fun _ => .quiet) fun w hw _ => ?_
  exact .starting hw _ none next started

end

/-! ### Projections -/

variable {task : HeartTask} {env : ProjectEnv}

theorem holdsTaskLease_review (hnode : task.nodeId.ofReview = true)
    (h : chat.holdsTaskLease item token channel task = true) :
    ∃ w ∈ chat.workItems, w.id = item ∧ w.syncLeaseToken = some token := by
  cases hn : task.nodeId with
  | review | provideInformation | followupReview =>
    simp only [Db.holdsTaskLease, hn] at h
    obtain ⟨w, hw, hlease⟩ := any_eq_true.1 h
    have hlease := of_decide_eq_true hlease
    exact ⟨w, hw, hlease.1, hlease.2.1⟩
  | publishGithub | other name =>
    rw [hn] at hnode
    cases hnode

theorem storedStatus_ok {status : HeartStatus} {stored : TaskStatus}
    (h : storedStatus status = .ok stored) : status = .known stored := by
  cases status with
  | known status =>
    cases h
    rfl
  | other text => cases h

theorem updateTask_ok {version : DefinitionVersion}
    (h : (updateTask item task version r env).run chat = .ok (o, chat')) :
    ∃ status, task.status = .known status ∧ o = none ∧
      (r.status = .pending ∨ status = r.status) ∧
      (status = .completed → version = .v110 →
        r.decision.requestId.isSome = true ∧ env.resultMatches = true) ∧
      chat' = { chat with
        workItemTasks := chat.workItemTasks.map fun x =>
          if x.id = task.id ∧ x.workItemId = item then x.progressed status else x
        workItems := chat.workItems.map (settleWorkItem item task r.decision) } := by
  simp only [updateTask, answers] at h
  obtain ⟨hfinal, hresult, status, hstatus, rfl, rfl⟩ := h
  have hknown := storedStatus_ok hstatus
  refine ⟨status, hknown, rfl, ?_, ?_, rfl⟩
  · rcases hfinal with hpending | hsame
    · exact .inl hpending
    · rw [hknown] at hsame
      exact .inr (HeartStatus.known.inj hsame)
  · rintro rfl hversion
    exact hresult ⟨hknown, by simp [checksCompletion, hversion]⟩

/-- The tables of the chat that the Heart agent's messages are told from. -/
def workView (chat : Db) : List WorkItemRow × List WorkItemTaskRow × List ChatMessage :=
  (chat.workItems, chat.workItemTasks, chat.messages)

variable {bot : UserId} {m : ChatMessage}

theorem insertHeartUser_work : Frame workView (insertHeartUser bot) :=
  .mapError (Sql.insertOrIgnore_frame fun _ => rfl)

theorem insertHeartProfile_work {item : WorkItemRow} :
    Frame workView (insertHeartProfile bot item) :=
  .mapError (Sql.insertOrIgnore_frame fun _ => rfl)

theorem insertMessage_work (h : (Sql.insertMessage m).run chat = .ok (u, chat')) :
    (∀ x ∈ chat.messages, x.id ≠ m.id) ∧
      workView chat' = (chat.workItems, chat.workItemTasks, chat.messages ++ [m]) := by
  obtain ⟨hfree, -, rfl⟩ := Sql.insert_ok.1 h
  refine ⟨fun x hx heq => ?_, rfl⟩
  have hnot := any_eq_false.1 hfree x hx
  simp [heq] at hnot

theorem storeTask_work (h : (storeTask item task m).run chat = .ok (o, chat')) :
    ∃ status, task.status = .known status ∧ o = some m.id ∧
      (∀ r ∈ chat.workItemTasks, r.id ≠ task.id ∧ (r.workItemId, r.nodeId) ≠ (item, task.nodeId)) ∧
      (∀ x ∈ chat.messages, x.id ≠ m.id) ∧
      workView chat' = (chat.workItems, chat.workItemTasks ++ [⟨task.id, item, m.id, m.channelId,
        task.assigneeId, task.nodeId, status, true, .undecided⟩], chat.messages ++ [m]) := by
  simp only [storeTask, enqueueMessage, insertTask, Sql.answers, answers] at h
  obtain ⟨_, chat₁, hinsert, status, hstatus, hfree, -, rfl, rfl⟩ := h
  obtain ⟨hfresh, hview⟩ := insertMessage_work hinsert
  obtain ⟨hitems, htasks, hmessages⟩ := by simpa only [workView, Prod.mk.injEq] using hview
  refine ⟨status, storedStatus_ok hstatus, rfl, fun r hr => ?_, hfresh, ?_⟩
  · have hnot := any_eq_false.1 hfree r (htasks ▸ hr)
    refine ⟨fun heq => ?_, fun heq => ?_⟩
    · simp [heq] at hnot
    · simp [(Prod.mk.inj heq).1, (Prod.mk.inj heq).2] at hnot
  · simp only [workView, hitems, htasks, hmessages]

theorem postTask_work {item : WorkItemRow}
    (h : (postTask host item channel task env).run chat = .ok (o, chat')) :
    ∃ status m, task.status = .known status ∧ o = some m.id ∧ m.channelId = channel ∧
      (item.definitionVersion = .v110 → status ≠ .completed) ∧
      chat.predecessorDone item.id task.nodeId = true ∧
      (∀ r ∈ chat.workItemTasks,
        r.id ≠ task.id ∧ (r.workItemId, r.nodeId) ≠ (item.id, task.nodeId)) ∧
      (∀ x ∈ chat.messages, x.id ≠ m.id) ∧
      workView chat' = (chat.workItems, chat.workItemTasks ++ [⟨task.id, item.id, m.id, channel,
        task.assigneeId, task.nodeId, status, true, .undecided⟩], chat.messages ++ [m]) := by
  simp only [postTask, Sql.bumpSequence, Sql.answers, answers] at h
  obtain ⟨hopen, hfollows, sequence, -, _, chat₁, huser, _, chat₂, hprofile, body, -, hstore⟩ := h
  -- the counter and the agent's own rows are not told here
  have hview := (insertHeartProfile_work hprofile).trans (insertHeartUser_work huser)
  obtain ⟨hitems, htasks, hmessages⟩ := by
    simpa only [workView, Prod.mk.injEq] using hview
  obtain ⟨status, hstatus, ho, hnew, hfresh, hafter⟩ := storeTask_work hstore
  rw [hitems, htasks, hmessages] at hafter
  rw [htasks] at hnew
  rw [hmessages] at hfresh
  refine ⟨status, _, hstatus, ho, rfl, ?_, hfollows, hnew, hfresh, hafter⟩
  rintro hversion rfl
  exact hopen ⟨by simp [checksCompletion, hversion], hstatus⟩

theorem followsOn_of_predecessorDone {node : TaskNode}
    (h : db.chat.predecessorDone item node = true) : db.tables.FollowsOn item node := by
  intro previous hprevious
  rw [Db.predecessorDone, mem_def.1 hprevious, all_some] at h
  obtain ⟨r, hr, hrow⟩ := any_eq_true.1 h
  have hrow := of_decide_eq_true hrow
  exact ⟨r, hr, hrow.1, hrow.2.1, hrow.2.2.1⟩

theorem settledBy_id {node : TaskNode} {d : TaskDecision} : (w.settledBy node d).id = w.id := by
  unfold WorkItemRow.settledBy
  split
  · rfl
  · split <;> rfl

theorem map_settleWorkItem {rows : List WorkItemRow} {d : TaskDecision}
    {status : TaskStatus} (hkeys : (rows.map (·.id)).Nodup) (hw : w ∈ rows)
    (hstatus : task.status = .known status) :
    rows.map (settleWorkItem w.id task d) =
      set (·.id) (if status = .completed then w.settledBy task.nodeId d else w) rows := by
  have hid : (if status = .completed then w.settledBy task.nodeId d else w).id = w.id := by
    split
    · exact settledBy_id
    · rfl
  apply map_congr_left
  intro x hx
  by_cases hxw : x.id = w.id
  · obtain rfl : x = w := eq_of_key_eq hkeys hx hw hxw
    rw [if_pos hid.symm]
    by_cases hdone : status = .completed
    · rw [if_pos hdone]
      exact if_pos ⟨rfl, hdone ▸ hstatus⟩
    · rw [if_neg hdone]
      refine if_neg fun hboth => hdone ?_
      exact HeartStatus.known.inj (hstatus.symm.trans hboth.2)
  · rw [if_neg fun heq => hxw (heq.trans hid)]
    exact if_neg fun hboth => hxw hboth.1

variable (service) in
/-- What a projection under the lease does, and what it posts. -/
theorem project_change {task : ReportedTask} {now : Time} (hkeys : db.tables.Keyed)
    (hnode : task.nodeId.ofReview = true)
    (h : (project host decode item token channel task messageId now).run db = .ok (o, db')) :
    WorkChange service decode (.projected item token channel task o) db.tables db'.tables ∧
      (∀ m ∈ o, (∀ x ∈ db.chat.messages, x.id ≠ m) ∧
        ∃ x, x.id = m ∧ x.channelId = channel ∧ db'.chat.messages = db.chat.messages ++ [x]) ∧
      (o = none → db'.chat.messages = db.chat.messages) := by
  simp only [project, onChat_ok, projectTask, Sql.fetchOne, answers] at h
  obtain ⟨chat', ⟨hlease, w, hfind, h⟩, rfl⟩ := h
  have hw : w ∈ db.items := mem_of_find?_eq_some hfind
  obtain rfl : w.id = item := by simpa using find?_some hfind
  obtain ⟨w', hw', hid, htoken⟩ := holdsTaskLease_review hnode hlease
  obtain rfl : w' = w := eq_of_key_eq hkeys.items hw' hw hid
  split at h
  · next r hknown =>
    obtain ⟨status, hstatus, rfl, hfinal, hresult, rfl⟩ := updateTask_ok h
    have hr : r ∈ db.tasks := mem_of_find?_eq_some hknown
    have hrow : r.id = task.id ∧ r.workItemId = w'.id := by simpa using find?_some hknown
    refine ⟨?_, fun m hm => (by cases hm), fun _ => rfl⟩
    have hset : (db.tasks.map fun x =>
        if x.id = task.id ∧ x.workItemId = w'.id then x.progressed status else x) =
          set (·.id) (r.progressed status) db.tasks := by
      rcases map_ite_cases (f := (·.progressed status)) hkeys.tasks
        (fun x (hx : x.id = task.id ∧ x.workItemId = w'.id) => hx.1) (fun _ => rfl) with
        ⟨hnone, -⟩ | ⟨r', hr', hrow', heq⟩
      · exact absurd hrow (hnone r hr)
      · obtain rfl : r' = r := eq_of_key_eq hkeys.tasks hr' hr (hrow'.1.trans hrow.1.symm)
        exact heq
    have htables : tables { db with chat := { db.chat with
          workItemTasks := db.tasks.map fun x =>
            if x.id = task.id ∧ x.workItemId = w'.id then x.progressed status else x
          workItems := db.items.map (settleWorkItem w'.id task.toHeartTask r.decision) } } =
        (db.tables.setTask (r.progressed status)).setItem
          (if status = .completed then w'.settledBy task.nodeId r.decision else w') := by
      have hitems : db.items.map (settleWorkItem w'.id task.toHeartTask r.decision) = _ :=
        map_settleWorkItem hkeys.items hw hstatus
      rw [hset, hitems]
      rfl
    refine htables ▸ .updated hw hr hrow.1 hrow.2 htoken hstatus hfinal fun hdone hversion => ?_
    obtain ⟨hrequest, hmatches⟩ := hresult hdone hversion
    refine ⟨hrequest, ?_⟩
    rw [hknown] at hmatches
    simpa using hmatches
  · obtain ⟨status, m, hstatus, rfl, rfl, hopen, hfollows, hnew, hfresh, hafter⟩ := postTask_work h
    obtain ⟨hitems, htasks, hmessages⟩ := by simpa only [workView, Prod.mk.injEq] using hafter
    refine ⟨?_, fun m' hm' => ?_, fun hnone => (by cases hnone)⟩
    · have htables : tables { db with chat := chat' } = { db.tables with
          tasks := db.tasks ++ [⟨task.id, w'.id, m.id, m.channelId, task.assigneeId, task.nodeId,
            status, true, .undecided⟩] } := by
        simp only [tables, items, tasks, hitems, htasks]
      rw [htables]
      exact .posted hw htoken hstatus hopen (fun r hr => (hnew r hr).1) (fun r hr => (hnew r hr).2)
        (followsOn_of_predecessorDone hfollows)
    · cases hm'
      exact ⟨hfresh, m, rfl, rfl, hmessages⟩

/-! ### Status changes -/

theorem insertChange_ok (h : (insertChange x).run db = .ok (u, db')) :
    (∀ y ∈ db.statusChanges, y.id ≠ x.id) ∧
      (∀ y ∈ db.statusChanges, y.workItemId = x.workItemId → x.active = true → y.active = false) ∧
      db' = { db with statusChanges := db.statusChanges ++ [x] } := by
  simp only [insertChange, answers] at h
  obtain ⟨hfree, rfl⟩ := h
  refine ⟨fun y hy heq => ?_, fun y hy hitem hactive => ?_, rfl⟩
  · have hnot := any_eq_false.1 hfree y hy
    simp [heq] at hnot
  · have hnot := any_eq_false.1 hfree y hy
    cases hyes : y.active with
    | false => rfl
    | true => simp [hitem, hactive, hyes] at hnot

theorem startStatus_change {c : StatusStart} :
    WorkChange service decode .silent db.tables
      ((service.startStatus actor item c id now).commit db).2.tables := by
  refine .of_commit fun u db' h => ?_
  simp only [startStatus, answers] at h
  obtain ⟨-, r, hroute, h⟩ := h
  split at h
  · simp only [answers] at h
    obtain ⟨-, -, rfl⟩ := h
    exact .quiet
  · simp only [openChange, answers] at h
    obtain ⟨_, -, -, _, _, hinsert, -, rfl⟩ := h
    obtain ⟨hid, hactive, rfl⟩ := insertChange_ok hinsert
    obtain ⟨w, hw, rfl, hover⟩ := route_some hroute
    exact .opened hw rfl hover hid (fun y hy hitem => hactive y hy hitem rfl) ⟨rfl, rfl, rfl, rfl⟩

theorem claimChange_change {claimed : Bool} (hkeys : db.tables.Keyed)
    (h : (claimChange id token now).run db = .ok (claimed, db')) :
    WorkChange service decode .silent db.tables db'.tables := by
  simp only [claimChange, answers] at h
  obtain ⟨rfl, rfl⟩ := h
  refine .mapChanges hkeys (fun x hx => hx.1) (fun _ => rfl) fun x hx => ?_
  exact .held hx (now + 180) (some token)

theorem releaseChange_change (hkeys : db.tables.Keyed) :
    WorkChange service decode .silent db.tables
      ((releaseChange id token next).commit db).2.tables := by
  refine .mapChanges hkeys (fun x hx => hx.1) (fun _ => rfl) fun x hx => ?_
  exact .held hx next none

theorem updateChange_ok {f : StatusChangeRow → StatusChangeRow}
    (h : (updateChange id token f).run db = .ok (u, db'))
    (hkeys : (db.statusChanges.map (·.id)).Nodup) (hf : ∀ x, (f x).id = x.id) :
    db' = db ∨ ∃ x ∈ db.statusChanges, x.id = id ∧ x.leaseToken = some token ∧
      uniqueChanges (db.setChange (f x)).statusChanges ∧ db' = db.setChange (f x) := by
  simp only [updateChange, answers] at h
  rcases map_ite_cases (f := f) hkeys
    (fun x (hx : x.id = id ∧ x.leaseToken = some token) => hx.1) hf with
    ⟨-, heq⟩ | ⟨x, hx, ⟨hid, htoken⟩, heq⟩
  · rw [heq] at h
    exact .inl h.2.symm
  · rw [heq] at h
    exact .inr ⟨x, hx, hid, htoken, h.1, h.2.symm⟩

theorem saveInstance_change {id instanceId : Uuid} (hkeys : db.tables.Keyed)
    (h : (saveInstance id token instanceId).run db = .ok (u, db')) :
    WorkChange service decode .silent db.tables db'.tables := by
  simp only [saveInstance, answers] at h
  obtain ⟨-, h⟩ := h
  rcases updateChange_ok h hkeys.changes (fun _ => rfl) with rfl | ⟨x, hx, -, -, hunique, rfl⟩
  · exact .quiet
  · exact .located hx hunique

theorem settleChange_change {status : ChangeStatus} (hkeys : db.tables.Keyed) :
    WorkChange service decode .silent db.tables
      ((settleChange id token status).commit db).2.tables := by
  refine .of_commit fun u db' h => ?_
  rcases updateChange_ok h hkeys.changes (fun _ => rfl) with rfl | ⟨x, hx, -, -, hunique, rfl⟩
  · exact .quiet
  · exact .terminal hx hunique

theorem showInChat_frame {item : WorkItemRow} {text : String} {now : Time} :
    Frame (fun chat : Db => (chat.workItems, chat.workItemTasks))
      (showInChat host item channel text messageId now) := by
  intro chat m chat' h
  simp only [showInChat, Sql.bumpSequence, Sql.answers, answers] at h
  obtain ⟨_, -, _, chat₁, huser, _, chat₂, hprofile, _, -, _, _, hinsert, -, rfl⟩ := h
  have hview := (insertHeartProfile_work hprofile).trans (insertHeartUser_work huser)
  have hafter := (insertMessage_work hinsert).2
  simp only [workView, Prod.mk.injEq] at hview hafter
  simp only [hafter.1, hafter.2.1, hview.1, hview.2.1]

theorem onChat_tables {α : Type} {t : Sql α} {a : α}
    (ht : Frame (fun chat : Db => (chat.workItems, chat.workItemTasks)) t)
    (h : (onChat t).run db = .ok (a, db')) : db'.tables = db.tables := by
  obtain ⟨chat', hrun, rfl⟩ := onChat_ok.1 h
  have hview := ht hrun
  simp only [Prod.mk.injEq] at hview
  simp only [tables, items, tasks, hview.1, hview.2]

theorem heldChange_ok (h : (heldChange id token clock).run db = .ok ((x, w), db')) :
    db' = db ∧ x ∈ db.statusChanges ∧ x.id = id := by
  simp only [heldChange, answers] at h
  obtain ⟨hrow, rfl⟩ := h
  obtain ⟨x', hfind, hrow⟩ := bind_eq_some_iff.1 hrow
  obtain ⟨w', -, heq⟩ := map_eq_some_iff.1 hrow
  cases heq
  have hx : x.id = id ∧ x.leaseToken = some token ∧ clock < x.leaseUntil := by
    simpa using find?_some hfind
  exact ⟨rfl, mem_of_find?_eq_some hfind, hx.1⟩

theorem publishStatus_tables {now : Time}
    (h : (publishStatus host id token messageId now clock).run db = .ok (o, db')) :
    db'.tables = db.tables := by
  simp only [publishStatus, answers] at h
  obtain ⟨⟨x, w⟩, _, hheld, h⟩ := h
  obtain ⟨rfl, -, -⟩ := heldChange_ok hheld
  split at h
  · rw [(pure_ok.1 h).2]
  · simp only [answers] at h
    obtain ⟨_, db₁, hshow, -, -, rfl⟩ := h
    have hshown := onChat_tables (showInChat_frame) hshow
    exact hshown

theorem enqueueMessage_work :
    Frame (fun chat : Db => (chat.workItems, chat.workItemTasks)) (enqueueMessage m) :=
  .write fun _ => rfl

theorem showChange_change {task : ReportedTask} {now : Time} (hkeys : db.tables.Keyed)
    (h : (showChange host id token task messageId now clock).run db = .ok (o, db')) :
    WorkChange service decode .silent db.tables db'.tables := by
  simp only [showChange, answers] at h
  obtain ⟨⟨x, w⟩, db₀, hheld, h⟩ := h
  obtain ⟨hsame, hx, -⟩ := heldChange_ok hheld
  subst db₀
  cases htask : x.taskId with
  | some old =>
    simp only [htask, answers] at h
    obtain ⟨-, -, rfl⟩ := h
    exact .quiet
  | none =>
    simp only [htask, postChange, answers] at h
    obtain ⟨-, m, db₁, hshow, _, db₂, hupdate, _, db₃, henqueue, -, rfl⟩ := h
    have hshown := onChat_tables (showInChat_frame) hshow
    have hqueued : db₃.tables = db₂.tables := onChat_tables (enqueueMessage_work) henqueue
    have hchanges : db₁.statusChanges = db.statusChanges := congrArg WorkTables.changes hshown
    rw [hqueued]
    rcases updateChange_ok hupdate (hchanges ▸ hkeys.changes) (fun _ => rfl) with
      rfl | ⟨x', hx', hid, -, hunique, rfl⟩
    · rw [hshown]
      exact .quiet
    · rw [hchanges] at hx'
      obtain rfl : x' = x := eq_of_key_eq hkeys.changes hx' hx hid
      have hafter : (db₁.setChange { x' with
          taskId := some task.id, messageId := some messageId, status := .waiting }).tables =
          db.tables.setChange { x' with
            taskId := some task.id, messageId := some messageId, status := .waiting } := by
        show db₁.tables.setChange _ = _
        rw [hshown]
      rw [hafter]
      refine .shown hx htask ?_
      rw [← hafter]
      exact hunique

end WorkItems

end

end Sproyt
