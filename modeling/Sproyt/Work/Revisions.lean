import Sproyt.Work.Steps

/-!
# Commands and revisions

Every command is given the revision its author has seen. What a command was accepted with is
stored, and from then on the same command is answered from there and any other is turned down.
-/

namespace Sproyt

open Txn Table WorkItems WorkCommand Option

namespace WorkCommand

def expectedRevision : WorkCommand → Int
  | decide _ _ d => d.expectedRevision
  | addSupplement _ _ c _ => c.expectedRevision
  | exportGithub _ _ c _ => c.expectedRevision
  | changeStatus _ _ c _ _ => c.expectedRevision

/-- All but a decision to leave the status as it is. -/
def advances : WorkCommand → Bool
  | changeStatus _ _ c _ _ => !c.noChange
  | _ => true

def item (db : WorkDb) : WorkCommand → Option Uuid
  | decide _ task _ => (db.tasks.find? fun r => r.id = task).map (·.workItemId)
  | addSupplement _ item _ _ => some item
  | exportGithub _ task _ _ => (db.tasks.find? fun r => r.id = task).map (·.workItemId)
  | changeStatus _ task _ _ _ =>
    (db.statusChanges.find? fun x => x.taskId = some task).map (·.workItemId)

def Permitted (db : WorkDb) : WorkCommand → Prop
  | decide actor task d => (db.taskRights actor task d.messageId).isSome = true
  | addSupplement actor item c _ => (db.supplementRights actor item c.sourceMessageId).isSome = true
  | exportGithub actor task c _ => ∃ found ∈ db.exportRights actor task c.messageId,
    c.send = true → found.2.2.2 = true
  | changeStatus actor task c _ _ => ∃ found ∈ db.changeRights actor task c.messageId,
    ∃ r ∈ db.route actor found.2.id, r.id = found.1.routeId ∧ r.channelId = found.1.channelId

/-- What a command says, without who says it and what is generated for it. -/
inductive Content
  | decision (d : Decision)
  | supplement (item : Uuid) (c : SupplementCommand)
  | export (c : ExportCommand)
  | status (c : StatusDecision)

def content : WorkCommand → Content
  | decide _ _ d => .decision d
  | addSupplement _ item c _ => .supplement item c
  | exportGithub _ _ c _ => .export c
  | changeStatus _ _ c _ _ => .status c

def origin : WorkCommand → UserId × Option Uuid
  | decide actor task _ => (actor, some task)
  | addSupplement actor _ _ _ => (actor, none)
  | exportGithub actor task _ _ => (actor, some task)
  | changeStatus actor task _ _ _ => (actor, some task)

/-- Two commands on one task, one status change, one export receipt, or one request for a
supplement. -/
def Rivals (db : WorkDb) : WorkCommand → WorkCommand → Prop
  | decide _ task _, decide _ task' _ => task = task'
  | decide _ task _, exportGithub _ task' _ _ => task = task'
  | exportGithub _ task _ _, decide _ task' _ => task = task'
  | exportGithub actor task c now, exportGithub actor' task' c' now' =>
    (exportGithub actor task c now).item db = (exportGithub actor' task' c' now').item db
  | addSupplement actor _ c _, addSupplement actor' _ c' _ =>
    actor = actor' ∧ c.requestId = c'.requestId
  | changeStatus _ task _ _ _, changeStatus _ task' _ _ _ => task = task'
  | _, _ => False

def Recorded (service : WorkItems) (t : WorkTables) : WorkCommand → Prop
  | decide _ task d => ∃ r ∈ t.tasks, ∃ w ∈ t.items, r.id = task ∧ w.id = r.workItemId ∧
    r.messageId = d.messageId ∧ r.nodeId ≠ .publishGithub ∧ r.decision = d.stored r.nodeId ∧
    d.validFor r.nodeId w.definitionVersion = true ∧
    1 ≤ d.expectedRevision ∧ d.note.utf8ByteSize ≤ 8000
  | addSupplement actor item c _ => ∃ s ∈ t.supplements, ∃ w ∈ t.items, w.id = item ∧
    w.sourceMessageId = c.sourceMessageId ∧ s.actorId = actor ∧ s.requestId = c.requestId ∧
    s.workItemId = item ∧ s.expectedRevision = c.expectedRevision ∧ s.body = c.body ∧
    1 ≤ c.expectedRevision ∧ trim c.body ≠ "" ∧ c.body.utf8ByteSize ≤ 8000
  | exportGithub _ task c _ => ∃ r ∈ t.tasks, ∃ e ∈ t.exports, r.id = task ∧
    r.messageId = c.messageId ∧ r.nodeId = .publishGithub ∧ r.decision.requestId.isSome = true ∧
    e.workItemId = r.workItemId ∧ c.sameAs e ∧ c.valid service.github
  | changeStatus actor task c _ _ => ∃ x ∈ t.changes, ∃ old, x.taskId = some task ∧
    x.messageId = some c.messageId ∧ x.actorId = actor ∧ x.decision = some old ∧ c.sameAs old ∧
    c.valid

end WorkCommand

variable {service : WorkItems} {t t' : WorkTables} {c : WorkCommand}

theorem Accepts.recorded (h : Accepts service c t t') : c.Recorded service t' := by
  cases h with
  | @decide t actor d r w hr hw hitem hmessage hnode hbounds hvalid =>
    refine ⟨{ r with decision := d.stored r.nodeId, deliveryReady := false },
      mem_set_self ⟨r, hr, rfl⟩, { w with revision := w.revision + 1 },
      mem_set_self ⟨w, hw, rfl⟩, rfl, hitem, hmessage, hnode, rfl, hvalid, hbounds⟩
  | @addSupplement t actor c id w hw hmessage hbounds =>
    exact ⟨⟨id, w.id, actor, c.requestId, c.expectedRevision, c.body⟩,
      List.mem_append_right _ (List.mem_singleton_self _), { w with revision := w.revision + 1 },
      mem_set_self ⟨w, hw, rfl⟩, rfl, hmessage, rfl, rfl, rfl, rfl, rfl, hbounds⟩
  | @exportGithub t actor c now r w target hr hw hitem hmessage hnode hvalid htarget =>
    refine ⟨{ r with decision := c.stored, deliveryReady := false },
      mem_set_self ⟨r, hr, rfl⟩, c.row w.id r.id actor target now,
      List.mem_append_right _ (List.mem_singleton_self _), rfl, hmessage, hnode, rfl, hitem, ?_,
      hvalid⟩
    refine ⟨rfl, rfl, rfl, rfl, rfl, fun hsend => ?_⟩
    obtain ⟨hrepository, hrevision⟩ := htarget hsend
    rw [← hrepository, ← hrevision]
    cases target with
    | none | some => exact ⟨rfl, rfl⟩
  | @noChange t actor task c id now x w hx hw hitem htask hmessage hactor hvalid
  | @changeStatus t actor task c id now x w hx hw hitem htask hmessage hactor hvalid =>
    exact ⟨{ x with decision := some (c.stored x.id w.status) }, mem_set_self ⟨x, hx, rfl⟩,
      _, htask, hmessage, hactor, rfl, ⟨rfl, rfl, rfl, rfl, rfl, rfl⟩, hvalid⟩

theorem WorkCommand.Recorded.kept (h : c.Recorded service t) (hkept : t.Kept t') :
    c.Recorded service t' := by
  cases c with
  | decide actor task d =>
    obtain ⟨r, hr, w, hw, hid, hitem, hmessage, hnode, hdecision, hvalid, hbounds⟩ := h
    obtain ⟨r', hr', hrr⟩ := hkept.tasks r hr
    obtain ⟨w', hw', hww⟩ := hkept.items w hw
    have hsame := hrr.decision (by rw [hdecision]; rfl)
    refine ⟨r', hr', w', hw', hrr.id.trans hid, ?_, hrr.message.trans hmessage, ?_, ?_, ?_, hbounds⟩
    · rw [hww.id, hitem, hrr.item]
    · rw [hrr.node]
      exact hnode
    · rw [hsame, hdecision, hrr.node]
    · rw [hrr.node, hww.version]
      exact hvalid
  | addSupplement actor item c id =>
    obtain ⟨s, hs, w, hw, hid, hsource, hrest⟩ := h
    obtain ⟨w', hw', hww⟩ := hkept.items w hw
    exact ⟨s, hkept.supplements s hs, w', hw', hww.id.trans hid, hww.source.trans hsource, hrest⟩
  | exportGithub actor task c now =>
    obtain ⟨r, hr, e, he, hid, hmessage, hnode, hdecided, hitem, hrest⟩ := h
    obtain ⟨r', hr', hrr⟩ := hkept.tasks r hr
    refine ⟨r', hr', e, hkept.exports e he, hrr.id.trans hid, hrr.message.trans hmessage,
      hrr.node.trans hnode, ?_, hitem.trans hrr.item.symm, hrest⟩
    rw [hrr.decision hdecided]
    exact hdecided
  | changeStatus actor task c id now =>
    obtain ⟨x, hx, old, htask, hmessage, hactor, hdecision, hrest⟩ := h
    obtain ⟨x', hx', hxx⟩ := hkept.changes x hx
    obtain ⟨htask', hmessage'⟩ := hxx.shown (by rw [htask]; exact some_ne_none _)
    have hdecision' := hxx.decision (by rw [hdecision]; exact some_ne_none _)
    exact ⟨x', hx', old, htask'.trans htask, hmessage'.trans hmessage, hxx.actor.trans hactor,
      hdecision'.trans hdecision, hrest⟩

/-! ### What is stored tells the content -/

variable {d : Decision} {node : TaskNode} {version : DefinitionVersion} {e : ExportRow}
    {old : StatusRecord} {r : WorkItemTaskRow} {task : Uuid} {now : Int} {x : StatusChangeRow}

theorem Decision.sameAs_stored (hvalid : d.validFor node version = true) : d.sameAs
    (d.stored node) := by
  refine ⟨rfl, ?_, ?_, ?_, rfl, rfl, fun r hr => (some.inj hr).symm⟩
  all_goals
    by_cases hnode : node = .provideInformation
    · simp only [validFor, hnode, if_true, decide_eq_true_eq] at hvalid
      simp [stored, hnode, hvalid]
    · simp [stored, hnode]

attribute [ext] Decision SupplementCommand ExportCommand StatusDecision

theorem Decision.eq_of_sameAs {d' : Decision} (hvalid : d.validFor node version = true)
    (hsame : d'.sameAs (d.stored node)) (hmessage : d'.messageId = d.messageId) : d' = d := by
  obtain ⟨hrequest, hcategory, hpriority, hstatus, hnote, hsupplement, hrevision⟩ := hsame
  obtain ⟨-, hcategory', hpriority', hstatus', -⟩ := sameAs_stored hvalid
  apply Decision.ext
  · exact hmessage
  · exact (some.inj hrequest).symm
  · exact (hrevision d.expectedRevision rfl).symm
  · exact hsupplement.symm
  · exact hcategory.symm.trans hcategory'
  · exact hpriority.symm.trans hpriority'
  · exact hstatus.symm.trans hstatus'
  · exact hnote.symm

theorem ExportCommand.eq_of_sameAs {c c' : ExportCommand} {github : Bool} (hvalid : c.valid github)
    (hvalid' : c'.valid github) (hsame : c.sameAs e) (hsame' : c'.sameAs e)
    (hmessage : c'.messageId = c.messageId) : c' = c := by
  obtain ⟨hrequest, hrevision, hdisposition, htitle, hbody, htarget⟩ := hsame
  obtain ⟨hrequest', hrevision', hdisposition', htitle', hbody', htarget'⟩ := hsame'
  have hsend : c'.send = c.send := by
    have heq := hdisposition'.symm.trans hdisposition
    unfold disposition at heq
    cases hs : c.send with
    | true => cases hs' : c'.send with
      | true => rfl
      | false => simp [hs, hs'] at heq
    | false => cases hs' : c'.send with
      | true => simp [hs, hs'] at heq
      | false => rfl
  -- what is skipped has no target, what is sent has the one of the receipt
  have hexpected : c'.expectedRepositoryId = c.expectedRepositoryId ∧
      c'.expectedBindingRevision = c.expectedBindingRevision := by
    cases hs : c.send with
    | true =>
      obtain ⟨h₁, h₂⟩ := htarget hs
      obtain ⟨h₁', h₂'⟩ := htarget' (hsend.trans hs)
      exact ⟨h₁'.symm.trans h₁, h₂'.symm.trans h₂⟩
    | false =>
      obtain ⟨-, -, -, -, -, hskip, -⟩ := hvalid
      obtain ⟨-, -, -, -, -, hskip', -⟩ := hvalid'
      obtain ⟨-, -, h₁, h₂⟩ := hskip hs
      obtain ⟨-, -, h₁', h₂'⟩ := hskip' (hsend.trans hs)
      exact ⟨h₁'.trans h₁.symm, h₂'.trans h₂.symm⟩
  apply ExportCommand.ext
  · exact hmessage
  · exact hrequest'.symm.trans hrequest
  · exact hrevision'.symm.trans hrevision
  · exact htitle'.symm.trans htitle
  · exact hbody'.symm.trans hbody
  · exact hsend
  · exact hexpected.1
  · exact hexpected.2

theorem StatusDecision.eq_of_sameAs {c c' : StatusDecision} (hsame : c.sameAs old)
    (hsame' : c'.sameAs old) (hmessage : c'.messageId = c.messageId) : c' = c := by
  obtain ⟨hrequest, hrevision, hstatus, hnote, hfeedback, hnoChange⟩ := hsame
  obtain ⟨hrequest', hrevision', hstatus', hnote', hfeedback', hnoChange'⟩ := hsame'
  apply StatusDecision.ext
  · exact hmessage
  · exact hrequest'.symm.trans hrequest
  · exact hrevision'.symm.trans hrevision
  · exact hstatus'.symm.trans hstatus
  · exact hnote'.symm.trans hnote
  · exact hfeedback'.symm.trans hfeedback
  · exact hnoChange'.symm.trans hnoChange

/-! ### Rivals of what is recorded -/

variable {service : WorkItems} {db db' : WorkDb} {c c' : WorkCommand} {a : Acceptance}

theorem item_of_task (hkeys : db.tables.Keyed) (hr : r ∈ db.tasks)
    {actor : UserId} {c : ExportCommand} (hid : r.id = task) :
    (exportGithub actor task c now).item db = some r.workItemId := by
  subst hid
  have hfind : (db.tasks.find? fun x => x.id = r.id) = some r := find?_of_mem hkeys.tasks hr
  simp only [item, hfind, map_some]

/-- No rival of a recorded command is accepted. -/
theorem WorkCommand.Recorded.not_accepts (hkeys : db.tables.Keyed)
    (h : c.Recorded service db.tables) (hrivals : c.Rivals db c') :
    ¬ Accepts service c' db.tables t' := by
  -- a task that has a decision is not open
  have htask : ∀ r₀ ∈ db.tasks, ∀ r ∈ db.tasks, r.id = r₀.id → r₀.decision.requestId.isSome = true →
      r.decision.requestId ≠ none := by
    intro r₀ hr₀ r hr hid hdecided hnone
    obtain rfl : r = r₀ := eq_of_key_eq hkeys.tasks hr hr₀ hid
    rw [hnone] at hdecided
    cases hdecided
  intro haccepts
  cases haccepts with
  | decide hr hw hitem hmessage hnode hbounds hvalid hopen =>
    cases c with
    | decide actor task d =>
      obtain ⟨r₀, hr₀, -, -, hid, -, -, -, hdecision, -⟩ := h
      exact htask r₀ hr₀ _ hr (hrivals.symm.trans hid.symm) (by rw [hdecision]; rfl) hopen
    | exportGithub actor task c now =>
      obtain ⟨r₀, hr₀, -, -, hid, -, -, hdecided, -⟩ := h
      exact htask r₀ hr₀ _ hr (hrivals.symm.trans hid.symm) hdecided hopen
    | addSupplement | changeStatus => exact hrivals.elim
  | addSupplement hw hmessage hbounds hnew =>
    cases c with
    | addSupplement actor item c id =>
      obtain ⟨s, hs, -, -, -, -, hactor, hrequest, -⟩ := h
      refine hnew s hs ?_
      rw [hactor, hrequest, hrivals.1, hrivals.2]
    | decide | exportGithub | changeStatus => exact hrivals.elim
  | exportGithub hr hw hitem hmessage hnode hvalid htarget hnew hopen =>
    cases c with
    | decide actor task d =>
      obtain ⟨r₀, hr₀, -, -, hid, -, -, -, hdecision, -⟩ := h
      exact htask r₀ hr₀ _ hr (hrivals.symm.trans hid.symm) (by rw [hdecision]; rfl) hopen
    | exportGithub actor task c now =>
      obtain ⟨r₀, hr₀, e, he, hid, -, -, -, hreceipt, -⟩ := h
      have hsame : some r₀.workItemId = some _ :=
        (item_of_task hkeys hr₀ hid).symm.trans (hrivals.trans (item_of_task hkeys hr rfl))
      exact hnew e he (hreceipt.trans ((some.inj hsame).trans hitem.symm))
    | addSupplement | changeStatus => exact hrivals.elim
  | noChange hx hw hitem htask' hmessage hactor hvalid hopen
  | changeStatus hx hw hitem htask' hmessage hactor hvalid hopen =>
    cases c with
    | changeStatus actor task c id now =>
      obtain ⟨x₀, hx₀, old, htask₀, -, -, hdecision, -⟩ := h
      obtain rfl := eq_of_column_eq hkeys.columns.1 hx₀ hx htask₀ (hrivals ▸ htask')
      rw [hopen] at hdecision
      cases hdecision
    | decide | addSupplement | exportGithub => exact hrivals.elim

theorem WorkCommand.Recorded.rival_ok (hkeys : db.tables.Keyed)
    (h : c.Recorded service db.tables) (hrivals : c.Rivals db c')
    (hrun : (c'.exec service).run db = .ok (a, db')) : c'.content = c.content := by
  have hnot : ¬ Accepts service c' db.tables db'.tables := h.not_accepts hkeys hrivals
  cases c' with
  | decide actor' task' d' =>
    obtain ⟨-, -, r', w', hrights, hnode', hsame⟩ :=
      (decide_ok service hkeys hrun).resolve_right fun hyes => hnot hyes.2
    obtain ⟨hr', -, hid', hmessage', -⟩ := taskRights_some hrights
    cases c with
    | decide actor task d =>
      obtain ⟨r, hr, w, hw, hid, hitem, hmessage, hnode, hdecision, hvalid, -⟩ := h
      obtain rfl : r' = r :=
        eq_of_key_eq hkeys.tasks hr' hr (hid'.trans (hrivals.symm.trans hid.symm))
      rw [hdecision] at hsame
      exact congrArg Content.decision
        (Decision.eq_of_sameAs hvalid hsame (hmessage'.symm.trans hmessage))
    | exportGithub actor task c now =>
      obtain ⟨r, hr, -, -, hid, -, hnode, -⟩ := h
      obtain rfl : r' = r :=
        eq_of_key_eq hkeys.tasks hr' hr (hid'.trans (hrivals.symm.trans hid.symm))
      exact absurd hnode hnode'
    | addSupplement | changeStatus => exact hrivals.elim
  | addSupplement actor' item' c' id' =>
    obtain ⟨-, -, w', s', hrights, hs', hactor', hrequest', hitem', hrevision', hbody'⟩ :=
      (addSupplement_ok service hkeys hrun).resolve_right fun hyes => hnot hyes.2
    obtain ⟨hw', hid', hsource', -⟩ := supplementRights_some hrights
    cases c with
    | addSupplement actor item c id =>
      obtain ⟨s, hs, w, hw, hid, hsource, hactor, hrequest, hitem, hrevision, hbody, -⟩ := h
      have hkey : (s'.actorId, s'.requestId) = (s.actorId, s.requestId) := by
        rw [hactor', hrequest', hactor, hrequest, hrivals.1, hrivals.2]
      obtain rfl : s' = s := eq_of_key_eq hkeys.supplements hs' hs hkey
      obtain rfl : item' = item := hitem'.symm.trans hitem
      obtain rfl : w' = w := eq_of_key_eq hkeys.items hw' hw (hid'.trans hid.symm)
      refine congrArg (Content.supplement item') (SupplementCommand.ext ?_ ?_ ?_ ?_)
      · exact hsource'.symm.trans hsource
      · exact hrivals.2.symm
      · exact hrevision'.symm.trans hrevision
      · exact hbody'.symm.trans hbody
    | decide | exportGithub | changeStatus => exact hrivals.elim
  | exportGithub actor' task' c' now' =>
    obtain ⟨-, -, hvalid', r', w', x, canExport, e', hrights, he', hitem', hsame'⟩ :=
      (exportGithub_ok service hkeys hrun).resolve_right fun hyes => hnot hyes.2
    obtain ⟨hr', hw', hid', hmessage', hnode', hwr'⟩ := exportRights_some hrights
    cases c with
    | decide actor task d =>
      obtain ⟨r, hr, -, -, hid, -, -, hnode, -⟩ := h
      obtain rfl : r' = r :=
        eq_of_key_eq hkeys.tasks hr' hr (hid'.trans (hrivals.symm.trans hid.symm))
      exact absurd hnode' hnode
    | exportGithub actor task c now =>
      obtain ⟨r, hr, e, he, hid, hmessage, hnode, -, hitem, hsame, hvalid⟩ := h
      have hone : r'.workItemId = r.workItemId := by
        have hitems : some r.workItemId = some r'.workItemId :=
          (item_of_task hkeys hr hid).symm.trans (hrivals.trans (item_of_task hkeys hr' hid'))
        exact (some.inj hitems).symm
      -- the work item has one such task, and one receipt
      obtain rfl : r' = r := eq_of_key_eq hkeys.nodes hr' hr (by rw [hone, hnode', hnode])
      obtain rfl : e' = e :=
        eq_of_key_eq hkeys.exports he' he (hitem'.trans (hwr'.trans hitem.symm))
      exact congrArg Content.export (ExportCommand.eq_of_sameAs hvalid hvalid' hsame hsame'
        (hmessage'.symm.trans hmessage))
    | addSupplement | changeStatus => exact hrivals.elim
  | changeStatus actor' task' c' id' now' =>
    obtain ⟨-, -, x', w', old', hrights, hdecision', hsame'⟩ :=
      (changeStatus_ok service hkeys hrun).resolve_right fun hyes => hnot hyes.2
    obtain ⟨hx', -, htask', hmessage', -⟩ := changeRights_some hrights
    cases c with
    | changeStatus actor task c id now =>
      obtain ⟨x, hx, old, htask, hmessage, hactor, hdecision, hsame, -⟩ := h
      obtain rfl : x' = x :=
        eq_of_column_eq hkeys.columns.1 hx' hx (hrivals ▸ htask') htask
      obtain rfl : old' = old := some.inj (hdecision'.symm.trans hdecision)
      exact congrArg Content.status (StatusDecision.eq_of_sameAs hsame hsame'
        (some.inj (hmessage'.symm.trans hmessage)))
    | decide | addSupplement | exportGithub => exact hrivals.elim

namespace WorkItems

variable {actor : UserId} {id : Uuid} {w : WorkItemRow}

/-! ### Answers from what is stored -/

theorem decide_repeated (hbounds : 1 ≤ d.expectedRevision ∧ d.note.utf8ByteSize ≤ 8000)
    (hrights : db.taskRights actor id d.messageId = some (r, w))
    (hnode : r.nodeId ≠ .publishGithub) (hvalid : d.validFor r.nodeId w.definitionVersion = true)
    (hsome : r.decision.requestId.isSome = true) (hsame : d.sameAs r.decision) :
    (decide actor id d).run db = .ok (.repeated, db) := by
  simp only [decide, answers]
  refine ⟨hbounds, (r, w), hrights, hnode, hvalid, ?_⟩
  rw [if_pos hsome]
  exact bind_pure_ok.2 ⟨(), ensure_ok.2 ⟨hsame, rfl⟩, rfl⟩

theorem addSupplement_repeated {item : Uuid} {c : SupplementCommand} {s : SupplementRow}
    (hbounds : 1 ≤ c.expectedRevision ∧ trim c.body ≠ "" ∧ c.body.utf8ByteSize ≤ 8000)
    (hrights : (db.supplementRights actor item c.sourceMessageId).isSome = true)
    (hfind : (db.supplements.find? fun s => s.actorId = actor ∧ s.requestId = c.requestId) = some s)
    (hsame : s.workItemId = item ∧ s.expectedRevision = c.expectedRevision ∧ s.body = c.body) :
    (service.addSupplement actor item c id).run db = .ok (.repeated, db) := by
  obtain ⟨w, hrights⟩ := isSome_iff_exists.1 hrights
  simp only [addSupplement, answers]
  refine ⟨hbounds, w, hrights, ?_⟩
  rw [hfind]
  exact bind_pure_ok.2 ⟨(), ensure_ok.2 ⟨hsame, rfl⟩, rfl⟩

theorem exportGithub_repeated {c : ExportCommand} {x : ExportProcessRow} {canExport : Bool}
    (hvalid : c.valid service.github)
    (hrights : db.exportRights actor id c.messageId = some (r, w, x, canExport))
    (hsend : c.send = true → canExport = true)
    (hfind : (db.githubExports.find? fun e => e.workItemId = w.id) = some e) (hsame : c.sameAs e) :
    (service.exportGithub actor id c now).run db = .ok (.repeated, db) := by
  simp only [exportGithub, answers]
  refine ⟨hvalid, (r, w, x, canExport), hrights, hsend, ?_⟩
  rw [hfind]
  exact bind_pure_ok.2 ⟨(), ensure_ok.2 ⟨hsame, rfl⟩, rfl⟩

theorem changeStatus_repeated {c : StatusDecision} {r : TaskRouteRow} (hvalid : c.valid)
    (hrights : db.changeRights actor task c.messageId = some (x, w))
    (hroute : db.route actor w.id = some r) (hplace : r.id = x.routeId ∧ r.channelId = x.channelId)
    (hdecision : x.decision = some old) (hsame : c.sameAs old) :
    (changeStatus actor task c id now).run db = .ok (.repeated, db) := by
  simp only [changeStatus, answers]
  refine ⟨hvalid, (x, w), hrights, r, hroute, hplace, ?_⟩
  simp only [hdecision]
  exact bind_pure_ok.2 ⟨(), ensure_ok.2 ⟨hsame, rfl⟩, rfl⟩

end WorkItems

/-- A recorded command that is given again is answered from what is recorded. -/
theorem WorkCommand.Recorded.repeated (hkeys : db.tables.Keyed)
    (h : c.Recorded service db.tables) (hcontent : c'.content = c.content)
    (horigin : c'.origin = c.origin) (hpermitted : c'.Permitted db) :
    (c'.exec service).run db = .ok (.repeated, db) := by
  cases c with
  | decide actor task d =>
    cases c' with
    | decide actor' task' d' =>
      cases hcontent
      cases horigin
      obtain ⟨r, hr, w, hw, hid, hitem, hmessage, hnode, hdecision, hvalid, hbounds⟩ := h
      obtain ⟨⟨r', w'⟩, hrights⟩ := isSome_iff_exists.1 hpermitted
      obtain ⟨hr', hw', hid', -, hitem'⟩ := taskRights_some hrights
      obtain rfl : r' = r := eq_of_key_eq hkeys.tasks hr' hr (hid'.trans hid.symm)
      obtain rfl : w' = w := eq_of_key_eq hkeys.items hw' hw (hitem'.trans hitem.symm)
      refine decide_repeated hbounds hrights hnode hvalid ?_ ?_
      · rw [hdecision]
        rfl
      · rw [hdecision]
        exact Decision.sameAs_stored hvalid
    | addSupplement | exportGithub | changeStatus => cases hcontent
  | addSupplement actor item c id =>
    cases c' with
    | addSupplement actor' item' c' id' =>
      cases hcontent
      cases horigin
      obtain ⟨s, hs, -, -, -, -, hactor, hrequest, hitem, hrevision, hbody, hbounds⟩ := h
      refine addSupplement_repeated hbounds hpermitted ?_ ⟨hitem, hrevision, hbody⟩
      have hfind : db.supplements.find? _ = some s := find?_of_mem hkeys.supplements hs
      simpa [hactor, hrequest, Prod.ext_iff] using hfind
    | decide | exportGithub | changeStatus => cases hcontent
  | exportGithub actor task c now =>
    cases c' with
    | exportGithub actor' task' c' now' =>
      cases hcontent
      cases horigin
      obtain ⟨r, hr, e, he, hid, -, -, -, hitem, hsame, hvalid⟩ := h
      obtain ⟨⟨r', w', x, canExport⟩, hrights, hsend⟩ := hpermitted
      obtain ⟨hr', -, hid', -, -, hitem'⟩ := exportRights_some hrights
      obtain rfl : r' = r := eq_of_key_eq hkeys.tasks hr' hr (hid'.trans hid.symm)
      refine exportGithub_repeated hvalid hrights hsend ?_ hsame
      have hfind := find?_of_mem hkeys.exports he
      rw [hitem, ← hitem'] at hfind
      exact hfind
    | decide | addSupplement | changeStatus => cases hcontent
  | changeStatus actor task c id now =>
    cases c' with
    | changeStatus actor' task' c' id' now' =>
      cases hcontent
      cases horigin
      obtain ⟨x, hx, old, htask, -, -, hdecision, hsame, hvalid⟩ := h
      obtain ⟨⟨x', w'⟩, hrights, r, hroute, hplace⟩ := hpermitted
      obtain ⟨hx', -, htask', -⟩ := changeRights_some hrights
      obtain rfl : x' = x := eq_of_column_eq hkeys.columns.1 hx' hx htask' htask
      exact changeStatus_repeated hvalid hrights hroute hplace hdecision hsame
    | decide | addSupplement | exportGithub => cases hcontent

/-! ### Revisions -/

def WorkDb.revision? (db : WorkDb) (id : Uuid) : Option Int := (db.item? id).map (·.revision)

theorem revision?_of_mem (hkeys : db.tables.Keyed) {w : WorkItemRow} (hw : w ∈ db.items) :
    db.revision? w.id = some w.revision := by
  have hfind : db.item? w.id = some w := find?_of_mem hkeys.items hw
  rw [WorkDb.revision?, hfind, map_some]

theorem find?_change (hkeys : db.tables.Keyed) (hx : x ∈ db.statusChanges)
    (htask : x.taskId = some task) :
    (db.statusChanges.find? fun y => y.taskId = some task) = some x := by
  cases hfind : db.statusChanges.find? fun y => y.taskId = some task with
  | none =>
    have hnone := List.find?_eq_none.1 hfind x hx
    simp [htask] at hnone
  | some y =>
    have hy : y.taskId = some task := by simpa using List.find?_some hfind
    have hmem := List.mem_of_find?_eq_some hfind
    rw [eq_of_column_eq hkeys.columns.1 hmem hx hy htask]

theorem Accepts.advanced (hkeys : db.tables.Keyed)
    (h : Accepts service c db.tables t') (hadvances : c.advances = true) :
    ∃ w ∈ db.items, ∃ w' ∈ t'.items, c.item db = some w.id ∧ w'.id = w.id ∧
      w.revision = c.expectedRevision ∧ w'.revision = w.revision + 1 := by
  have htask : ∀ r ∈ db.tasks, (db.tasks.find? fun x => x.id = r.id) = some r :=
    fun r hr => find?_of_mem hkeys.tasks hr
  cases h with
  | @addSupplement _ actor c id w hw hmessage hbounds hnew hrevision =>
    exact ⟨w, hw, { w with revision := w.revision + 1 }, mem_set_self ⟨w, hw, rfl⟩, rfl, rfl,
      hrevision, rfl⟩
  | @decide _ actor d r w hr hw hitem hmessage hnode hbounds hvalid hopen hpending hrevision
  | @exportGithub _ actor c now r w target hr hw hitem hmessage hnode hvalid htarget hnew hopen
      hpending hrevision =>
    refine ⟨w, hw, { w with revision := w.revision + 1 }, mem_set_self ⟨w, hw, rfl⟩, ?_, rfl,
      hrevision, rfl⟩
    simp only [item, htask r hr, map_some, hitem]
  | noChange hx hw hitem htask hmessage hactor hvalid hopen hwaiting hrevision hsame =>
    simp [advances, hsame] at hadvances
  | @changeStatus _ actor task c id now x w hx hw hitem hshown hmessage hactor hvalid hopen
      hwaiting hrevision =>
    refine ⟨w, hw, { w with status := c.status, revision := w.revision + 1 },
      mem_set_self ⟨w, hw, rfl⟩, ?_, rfl, hrevision, rfl⟩
    simp only [item, find?_change hkeys hx hshown, map_some, hitem]

theorem Accepts.revision (hkeys : db.tables.Keyed) (hkeys' : db'.tables.Keyed)
    (h : Accepts service c db.tables db'.tables) (hadvances : c.advances = true) :
    ∃ id, c.item db = some id ∧ db.revision? id = some c.expectedRevision ∧
      db'.revision? id = some (c.expectedRevision + 1) := by
  obtain ⟨w, hw, w', hw', hitem, hid, hrevision, hnext⟩ := h.advanced hkeys hadvances
  refine ⟨w.id, hitem, ?_, ?_⟩
  · rw [revision?_of_mem hkeys hw, hrevision]
  · rw [← hid, revision?_of_mem hkeys' hw', hnext, hrevision]

theorem revision?_kept (hkeys' : db'.tables.Keyed) (hkept : db.tables.Kept db'.tables) {id : Uuid}
    {n : Int} (h : db.revision? id = some n) : ∃ m, db'.revision? id = some m ∧ n ≤ m := by
  obtain ⟨w, hitem, rfl⟩ := map_eq_some_iff.1 h
  obtain ⟨hw, rfl⟩ := item?_some hitem
  obtain ⟨w', hw', hww⟩ := hkept.items w hw
  exact ⟨w'.revision, hww.id ▸ revision?_of_mem hkeys' hw', hww.revision⟩

/-! ### Main result -/

variable {service : WorkItems} {host : Host} {decode : String → Option Json}

def WorkCommand.AcceptedIn (service : WorkItems) (db : WorkDb) (c : WorkCommand) : Prop :=
  ((c.exec service).commit db).1 = .ok .accepted

def WorkCommand.after (service : WorkItems) (db : WorkDb) (c : WorkCommand) : WorkDb :=
  ((c.exec service).commit db).2

theorem WorkCommand.AcceptedIn.accepts (hkeys : db.tables.Keyed)
    (h : c.AcceptedIn service db) : Accepts service c db.tables (c.after service db).tables := by
  rcases exec_ok hkeys (commit_ok_of_fst h) with ⟨hno, -⟩ | ⟨-, haccepts⟩
  · cases hno
  · exact haccepts

/-- The commands on a work item follow one another by its revision. -/
theorem work_commands_linearized {w₀ w : WorkWorld} {ls : List WorkLabel}
    (hkeys : w₀.db.tables.Keyed) (hpasses : w₀.taskPasses = [])
    (hrun : Run (WorkStep service host decode) w₀ ls w) :
    (w.db.githubExports.map (·.workItemId)).Nodup ∧
    ∀ c : WorkCommand, c.AcceptedIn service w.db →
      (c.advances = true → ∃ id, c.item w.db = some id ∧
        w.db.revision? id = some c.expectedRevision ∧
        (c.after service w.db).revision? id = some (c.expectedRevision + 1)) ∧
      ∀ {ms : List WorkLabel} {w₂ : WorkWorld},
        Run (WorkStep service host decode) { w with db := c.after service w.db } ms w₂ →
        ∀ c₂ : WorkCommand,
          -- no two of them are given one revision
          (c₂.AcceptedIn service w₂.db → c.advances = true → c₂.advances = true →
            c₂.item w₂.db = c.item w.db → c₂.expectedRevision ≠ c.expectedRevision) ∧
          -- what is decided is decided once
          (c.Rivals w₂.db c₂ → ¬ c₂.AcceptedIn service w₂.db) ∧
          -- the same again is answered, and changes nothing
          (c₂.content = c.content → c₂.origin = c.origin → c₂.Permitted w₂.db →
            (c₂.exec service).commit w₂.db = (.ok .repeated, w₂.db)) ∧
          -- anything else is turned down, and changes nothing
          (c.Rivals w₂.db c₂ → c₂.content ≠ c.content →
            ∃ e, (c₂.exec service).commit w₂.db = (.error e, w₂.db)) := by
  have hsound₀ : w₀.Sound := ⟨hkeys, by rw [hpasses]; exact fun p hp => absurd hp List.not_mem_nil⟩
  have hsound := hsound₀.run hrun
  refine ⟨hsound.keyed.exports, fun c haccepted => ?_⟩
  have haccepts := haccepted.accepts hsound.keyed
  have hsound' : WorkWorld.Sound { w with db := c.after service w.db } :=
    ⟨haccepts.keyed hsound.keyed, hsound.sane⟩
  refine ⟨haccepts.revision hsound.keyed hsound'.keyed, fun {ms w₂} hrun₂ c₂ => ?_⟩
  have hsound₂ := hsound'.run hrun₂
  have hkept := hsound'.kept hrun₂
  have hrecorded := haccepts.recorded.kept hkept
  refine ⟨?_, ?_, ?_, ?_⟩
  · intro haccepted₂ hadvances hadvances₂ hitem
    obtain ⟨id, hid, -, hnext⟩ := haccepts.revision hsound.keyed hsound'.keyed hadvances
    have haccepts₂ := haccepted₂.accepts hsound₂.keyed
    obtain ⟨id₂, hid₂, hnow, -⟩ :=
      haccepts₂.revision hsound₂.keyed (haccepts₂.keyed hsound₂.keyed) hadvances₂
    obtain rfl : id₂ = id := Option.some.inj (hid₂.symm.trans (hitem.trans hid))
    obtain ⟨m, hm, hle⟩ := revision?_kept hsound₂.keyed hkept hnext
    have heq : c₂.expectedRevision = m := Option.some.inj (hnow.symm.trans hm)
    omega
  · intro hrivals haccepted₂
    exact hrecorded.not_accepts hsound₂.keyed hrivals (haccepted₂.accepts hsound₂.keyed)
  · intro hcontent horigin hpermitted
    exact commit_eq_ok.2 (hrecorded.repeated hsound₂.keyed hcontent horigin hpermitted)
  · intro hrivals hcontent
    rcases commit_cases (c₂.exec service) w₂.db with ⟨a, db', hok, -⟩ | ⟨e, -, hcommit⟩
    · exact absurd (hrecorded.rival_ok hsound₂.keyed hrivals hok) hcontent
    · exact ⟨e, hcommit⟩

namespace Sample

def reviewing : WorkWorld :=
  { db := { workDb with chat := { workDb.chat with
      workItemTasks := [⟨45, 40, ⟨46⟩, room, alice, .review, .pending, true, .undecided⟩] } }
    taskPasses := []
    statusPasses := []
    issued := [] }

def planned : WorkCommand := .decide alice 45 ⟨⟨46⟩, 47, 1, none, "bug", "normal", "planned", ""⟩

end Sample

theorem work_commands_linearized_planned :
    Sample.planned.AcceptedIn Sample.workItems Sample.reviewing.db ∧
    (Sample.planned.after Sample.workItems Sample.reviewing.db).revision? 40 = some 2 ∧
    (Sample.planned.exec Sample.workItems).commit
        (Sample.planned.after Sample.workItems Sample.reviewing.db) =
      (.ok .repeated, Sample.planned.after Sample.workItems Sample.reviewing.db) := by
  have hkeys : Sample.reviewing.db.tables.Keyed := by
    constructor <;> decide
  have hrun : Run (WorkStep Sample.workItems Sample.host fun _ => none) Sample.reviewing []
      Sample.reviewing := .refl
  have haccepted : Sample.planned.AcceptedIn Sample.workItems Sample.reviewing.db := rfl
  obtain ⟨hrevision, hlater⟩ := (work_commands_linearized hkeys rfl hrun).2 _ haccepted
  obtain ⟨id, hid, -, hnext⟩ := hrevision rfl
  obtain rfl : id = 40 := Option.some.inj (hid.symm.trans rfl)
  exact ⟨haccepted, hnext, (hlater .refl Sample.planned).2.2.1 rfl rfl rfl⟩

end Sproyt
