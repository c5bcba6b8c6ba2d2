import Sproyt.Work.Changes

/-!
# Steps on the work items

`WorkStep.change` says what a step does to the tables. Two things follow for every step: the
unique columns stay unique, and what was decided, given or sent stays as it is.
-/

namespace Sproyt

open List Table WorkItems

/-! ### What a step does -/

def TaskPass.Sane (p : TaskPass) : Prop :=
  ∀ d state rest, p.phase = .projecting d state rest → ∀ task ∈ rest, task.nodeId.ofReview = true

theorem accepts_ofReview {d : ReviewDetails} {reply : HeartReply} {state : ProcessStatus}
    {tasks : List ReportedTask} (h : d.accepts reply = .ok (state, tasks)) :
    ∀ task ∈ tasks, task.nodeId.ofReview = true := by
  unfold ReviewDetails.accepts at h
  split at h
  · split at h
    · cases h
    · split at h
      · next hconsistent =>
        cases h
        intro task htask
        rw [Bool.and_eq_true, ReviewDetails.consistent, Bool.and_eq_true] at hconsistent
        have hall := all_eq_true.1 hconsistent.1.2 task (mem_mergeSort.1 htask)
        simp only [ReviewDetails.assigned, Bool.and_eq_true] at hall
        cases hnode : task.nodeId with
        | review | provideInformation | followupReview => rfl
        | publishGithub | other name => simp [hnode] at hall
      · cases h
  · cases h

variable {service : WorkItems} {host : Host} {decode : String → Option Json} {c : WorkCommand}
  {db db' : WorkDb} {item token : Uuid} {phase phase' : TaskPhase} {l : WorkLabel}
  {w w' : WorkWorld}

theorem WorkCommand.exec_ok {a : Acceptance} (hkeys : db.tables.Keyed)
    (h : (c.exec service).run db = .ok (a, db')) :
    (a = .repeated ∧ db' = db) ∨ (a = .accepted ∧ Accepts service c db.tables db'.tables) := by
  cases c with
  | decide actor task d =>
    exact (decide_ok service hkeys h).imp_left fun h => ⟨h.1, h.2.1⟩
  | addSupplement actor item c id =>
    exact (addSupplement_ok service hkeys h).imp_left fun h => ⟨h.1, h.2.1⟩
  | exportGithub actor task c now =>
    exact (exportGithub_ok service hkeys h).imp_left fun h => ⟨h.1, h.2.1⟩
  | changeStatus actor task c id now =>
    exact (changeStatus_ok service hkeys h).imp_left fun h => ⟨h.1, h.2.1⟩

theorem WorkCommand.exec_change (hkeys : db.tables.Keyed) :
    WorkChange service decode (.command c ((c.exec service).commit db).1) db.tables
      ((c.exec service).commit db).2.tables := by
  rcases Txn.commit_cases (c.exec service) db with ⟨a, db', hrun, hcommit⟩ | ⟨e, -, hcommit⟩
  · rw [hcommit]
    rcases WorkCommand.exec_ok hkeys hrun with ⟨rfl, rfl⟩ | ⟨rfl, haccepts⟩
    · exact .refused fun h => by cases h
    · exact .accepted haccepts
  · rw [hcommit]
    exact .refused fun h => by cases h

theorem TaskMove.change (hkeys : db.tables.Keyed) (hsane : (TaskPass.mk item token phase).Sane)
    (h : TaskMove host decode item token db phase l db' phase') :
    WorkChange service decode l db.tables db'.tables := by
  cases h with
  | details | answered => exact .quiet
  | projected hrun =>
    exact (project_change service hkeys (hsane _ _ _ rfl _ mem_cons_self) hrun).1
  | settled => exact settleProcess_change hkeys
  | undelivered => exact .undelivered item
  | ended => exact .quiet

theorem StatusMove.change {id : Uuid} {phase phase' : StatusPhase} (hkeys : db.tables.Keyed)
    (h : StatusMove host id token db phase db' phase') :
    WorkChange service decode .silent db.tables db'.tables := by
  cases h with
  | read | undecided => exact .quiet
  | published hdecided hrun => exact publishStatus_tables hrun ▸ .quiet
  | known => exact .quiet
  | started hnew hrun => exact saveInstance_change hkeys hrun
  | terminal | answered => exact .quiet
  | shown hrun | shownOnly hrun => exact showChange_change hkeys hrun
  | settled => exact settleChange_change hkeys
  | ended => exact .quiet

theorem WorkStep.change (hkeys : w.db.tables.Keyed)
    (hsane : ∀ p ∈ w.taskPasses, p.Sane) (h : WorkStep service host decode w l w') :
    WorkChange service decode l w.db.tables w'.db.tables := by
  cases h with
  | command c => exact WorkCommand.exec_change hkeys
  | startStatus => exact startStatus_change
  | claimStart => exact claimStart_change hkeys
  | settleStart => exact settleStart_change hkeys
  | claimSync hnew hrun => exact claimSync_change hkeys hrun
  | taskMove hmove => exact hmove.change hkeys (hsane _ mem_append_cons_self)
  | releaseSync => exact releaseSync_change hkeys
  | taskCrash => exact .quiet
  | claimChange hnew hrun => exact claimChange_change hkeys hrun
  | statusMove hmove => exact hmove.change hkeys
  | releaseChange => exact releaseChange_change hkeys
  | statusCrash => exact .quiet
  | outside chat config hitems htasks =>
    have hsame : WorkDb.tables { w.db with chat, config } = w.db.tables := by
      simp only [WorkDb.tables, WorkDb.items, WorkDb.tasks, hitems, htasks]
    exact hsame ▸ .quiet

/-! ### Unique columns -/

def StatusChangeRow.columns (x : StatusChangeRow) :
    Option Uuid × Option MessageId × Option Uuid × Bool × Uuid :=
  (x.taskId, x.messageId, x.heartInstanceId, x.active, x.workItemId)

variable {t t' : WorkTables} {rows : List StatusChangeRow} {x : StatusChangeRow}
  {r : WorkItemTaskRow}

theorem uniqueChanges_congr {rows' : List StatusChangeRow}
    (h : rows'.map (·.columns) = rows.map (·.columns)) (hrows : uniqueChanges rows) :
    uniqueChanges rows' := by
  have hcolumns : ∀ rows : List StatusChangeRow, uniqueChanges rows ↔
      ((rows.map (·.columns)).filterMap (·.1)).Nodup ∧
      ((rows.map (·.columns)).filterMap (·.2.1)).Nodup ∧
      ((rows.map (·.columns)).filterMap (·.2.2.1)).Nodup ∧
      (((rows.map (·.columns)).filter (·.2.2.2.1)).map (·.2.2.2.2)).Nodup := by
    intro rows
    rw [filterMap_map, filterMap_map, filterMap_map, filter_map, map_map]
    rfl
  rw [hcolumns] at hrows ⊢
  rw [h]
  exact hrows

theorem uniqueChanges_append (hrows : uniqueChanges rows)
    (hactive : ∀ y ∈ rows, y.workItemId = x.workItemId → y.active = false)
    (hnew : x.taskId = none ∧ x.messageId = none ∧ x.heartInstanceId = none) :
    uniqueChanges (rows ++ [x]) := by
  obtain ⟨htask, hmessage, hinstance⟩ := hnew
  obtain ⟨htasks, hmessages, hinstances, hone⟩ := hrows
  refine ⟨?_, ?_, ?_, ?_⟩
  · simpa [filterMap_append, htask] using htasks
  · simpa [filterMap_append, hmessage] using hmessages
  · simpa [filterMap_append, hinstance] using hinstances
  · rw [filter_append]
    cases hx : x.active with
    | false => simpa [hx] using hone
    | true =>
      rw [filter_singleton, hx, cond_true]
      refine nodup_append_single hone fun y hy heq => ?_
      obtain ⟨hy, hyes⟩ := mem_filter.1 hy
      rw [hactive y hy heq] at hyes
      cases hyes

namespace WorkTables

theorem Keyed.setItem (h : t.Keyed) (w : WorkItemRow) : (t.setItem w).Keyed := by
  refine { h with items := ?_ }
  show ((set (·.id) w t.items).map (·.id)).Nodup
  rw [map_key_set]
  exact h.items

theorem Keyed.setTask (h : t.Keyed) (r' : WorkItemTaskRow) (hr : r ∈ t.tasks)
    (hid : r'.id = r.id) (hnode : (r'.workItemId, r'.nodeId) = (r.workItemId, r.nodeId)) :
    (t.setTask r').Keyed := by
  refine { h with tasks := ?_, nodes := ?_ }
  · show ((set (·.id) r' t.tasks).map (·.id)).Nodup
    rw [map_key_set]
    exact h.tasks
  · show ((set (·.id) r' t.tasks).map fun r => (r.workItemId, r.nodeId)).Nodup
    rw [map_set_same (g := fun r : WorkItemTaskRow => (r.workItemId, r.nodeId)) h.tasks hr
      hid hnode]
    exact h.nodes

theorem Keyed.setChange (h : t.Keyed) (hunique : uniqueChanges (t.setChange x).changes) :
    (t.setChange x).Keyed := by
  refine { h with changes := ?_, columns := hunique }
  show ((set (·.id) x t.changes).map (·.id)).Nodup
  rw [map_key_set]
  exact h.changes

theorem Keyed.setChange_same (h : t.Keyed) (x' : StatusChangeRow)
    (hx : x ∈ t.changes) (hid : x'.id = x.id) (hcolumns : x'.columns = x.columns) :
    (t.setChange x').Keyed :=
  h.setChange (uniqueChanges_congr (map_set_same h.changes hx hid hcolumns) h.columns)

theorem Keyed.decide (h : t.Keyed) (hr : r ∈ t.tasks) (d : TaskDecision) :
    (t.setTask { r with decision := d, deliveryReady := false }).Keyed :=
  h.setTask _ hr rfl rfl

theorem Keyed.answer (h : t.Keyed) (hx : x ∈ t.changes) (d : StatusRecord) :
    (t.setChange { x with decision := some d }).Keyed :=
  h.setChange_same _ hx rfl rfl

end WorkTables

theorem Accepts.keyed (h : Accepts service c t t') (hkeys : t.Keyed) : t'.Keyed := by
  cases h with
  | decide hr => exact (hkeys.decide hr _).setItem _
  | addSupplement hw hmessage hbounds hnew =>
    refine { hkeys.setItem _ with supplements := ?_ }
    exact nodup_append_single hkeys.supplements hnew
  | exportGithub hr hw hitem hmessage hnode hvalid htarget hnew =>
    refine { (hkeys.decide hr _).setItem _ with exports := ?_ }
    exact nodup_append_single hkeys.exports hnew
  | noChange hx => exact hkeys.answer hx _
  | changeStatus hx => exact { (hkeys.answer hx _).setItem _ with }

theorem WorkChange.keyed (h : WorkChange service decode l t t') (hkeys : t.Keyed) : t'.Keyed := by
  cases h with
  | refused | settledLate | releasedLate | quiet => exact hkeys
  | accepted haccepts => exact haccepts.keyed hkeys
  | claimed | settled | released | starting => exact hkeys.setItem _
  | @updated t w r token channel task status hw hr =>
    exact (hkeys.setTask (r.progressed status) hr rfl rfl).setItem _
  | posted hw htoken hstatus hopen hnew hnode =>
    refine { hkeys with tasks := ?_, nodes := ?_ }
    · exact nodup_append_single hkeys.tasks hnew
    · exact nodup_append_single hkeys.nodes hnode
  | undelivered item =>
    refine { hkeys with tasks := ?_, nodes := ?_ }
    · show ((t.tasks.map (·.undelivered item)).map (·.id)).Nodup
      rw [map_key_map fun r => by rw [undelivered_eq]]
      exact hkeys.tasks
    · show ((t.tasks.map (·.undelivered item)).map fun r => (r.workItemId, r.nodeId)).Nodup
      rw [map_key_map fun r => by rw [undelivered_eq]]
      exact hkeys.nodes
  | opened hw hitem hover hid hactive hnew =>
    refine { hkeys with changes := ?_, columns := ?_ }
    · exact nodup_append_single hkeys.changes hid
    · exact uniqueChanges_append hkeys.columns hactive ⟨hnew.1, hnew.2.1, hnew.2.2.1⟩
  | @held t x hx till token =>
    exact hkeys.setChange_same { x with leaseUntil := till, leaseToken := token } hx rfl rfl
  | located hx hunique | shown hx hnew hunique | terminal hx hunique =>
    exact hkeys.setChange hunique

structure WorkWorld.Sound (w : WorkWorld) : Prop where
  keyed : w.db.tables.Keyed
  sane : ∀ p ∈ w.taskPasses, p.Sane

theorem TaskMove.sane (hsane : (TaskPass.mk item token phase).Sane)
    (h : TaskMove host decode item token db phase l db' phase') :
    (TaskPass.mk item token phase').Sane := by
  intro d state rest hphase
  cases h with
  | answered haccepts =>
    cases hphase
    exact accepts_ofReview haccepts
  | projected hrun =>
    cases hphase
    exact fun task htask => hsane _ _ _ rfl task (mem_cons_of_mem _ htask)
  | _ => cases hphase

theorem WorkStep.sane (hsane : ∀ p ∈ w.taskPasses, p.Sane)
    (h : WorkStep service host decode w l w') : ∀ p ∈ w'.taskPasses, p.Sane := by
  cases h with
  | claimSync hnew hrun =>
    intro p hp
    rcases mem_cons.1 hp with rfl | hp
    · intro d state rest hphase
      cases hphase
    · exact hsane p hp
  | taskMove hmove =>
    intro p hp
    rcases mem_append.1 hp with hp | hp
    · exact hsane p (mem_append_left _ hp)
    · rcases mem_cons.1 hp with rfl | hp
      · exact hmove.sane (hsane _ mem_append_cons_self)
      · exact hsane p (mem_append_right _ (mem_cons_of_mem _ hp))
  | releaseSync | taskCrash => exact fun p hp => hsane p (mem_middle_of_mem hp)
  | _ => exact hsane

theorem WorkStep.sound (hw : w.Sound) (h : WorkStep service host decode w l w') : w'.Sound :=
  ⟨(h.change hw.keyed hw.sane).keyed hw.keyed, h.sane hw.sane⟩

theorem WorkWorld.Sound.run {ls : List WorkLabel} (hw : w.Sound)
    (hrun : Run (WorkStep service host decode) w ls w') : w'.Sound :=
  hrun.invariant (fun _ _ _ h hstep => hstep.sound h) hw

/-! ### What is not taken back -/

structure ItemKept (w w' : WorkItemRow) : Prop where
  id : w'.id = w.id
  version : w'.definitionVersion = w.definitionVersion
  source : w'.sourceMessageId = w.sourceMessageId
  revision : w.revision ≤ w'.revision

/-- A task later on: its decision stays once it has one, and so does a status that is not
pending. -/
structure TaskKept (r r' : WorkItemTaskRow) : Prop where
  id : r'.id = r.id
  item : r'.workItemId = r.workItemId
  message : r'.messageId = r.messageId
  node : r'.nodeId = r.nodeId
  decision : r.decision.requestId.isSome = true → r'.decision = r.decision
  status : r.status ≠ .pending → r'.status = r.status

structure ChangeKept (x x' : StatusChangeRow) : Prop where
  id : x'.id = x.id
  item : x'.workItemId = x.workItemId
  actor : x'.actorId = x.actorId
  shown : x.taskId ≠ none → x'.taskId = x.taskId ∧ x'.messageId = x.messageId
  decision : x.decision ≠ none → x'.decision = x.decision

theorem ItemKept.refl (w : WorkItemRow) : ItemKept w w := ⟨rfl, rfl, rfl, le_rfl⟩

theorem TaskKept.refl (r : WorkItemTaskRow) : TaskKept r r :=
  ⟨rfl, rfl, rfl, rfl, fun _ => rfl, fun _ => rfl⟩

theorem ChangeKept.refl (x : StatusChangeRow) : ChangeKept x x :=
  ⟨rfl, rfl, rfl, fun _ => ⟨rfl, rfl⟩, fun _ => rfl⟩

theorem ItemKept.trans (x y z : WorkItemRow) (h : ItemKept x y) (h' : ItemKept y z) :
    ItemKept x z :=
  ⟨h'.id.trans h.id, h'.version.trans h.version, h'.source.trans h.source,
    h.revision.trans h'.revision⟩

theorem TaskKept.trans (x y z : WorkItemTaskRow) (h : TaskKept x y) (h' : TaskKept y z) :
    TaskKept x z := by
  refine ⟨h'.id.trans h.id, h'.item.trans h.item, h'.message.trans h.message,
    h'.node.trans h.node, fun hsome => ?_, fun hstatus => ?_⟩
  · have hy := h.decision hsome
    exact (h'.decision (by rw [hy]; exact hsome)).trans hy
  · have hy := h.status hstatus
    exact (h'.status (by rw [hy]; exact hstatus)).trans hy

theorem ChangeKept.trans (x y z : StatusChangeRow) (h : ChangeKept x y) (h' : ChangeKept y z) :
    ChangeKept x z := by
  refine ⟨h'.id.trans h.id, h'.item.trans h.item, h'.actor.trans h.actor, fun hsome => ?_,
    fun hsome => ?_⟩
  · obtain ⟨htask, hmessage⟩ := h.shown hsome
    obtain ⟨htask', hmessage'⟩ := h'.shown (by rw [htask]; exact hsome)
    exact ⟨htask'.trans htask, hmessage'.trans hmessage⟩
  · have hy := h.decision hsome
    exact (h'.decision (by rw [hy]; exact hsome)).trans hy

/-- Rows stay, and with them what has been decided. -/
structure WorkTables.Kept (t t' : WorkTables) : Prop where
  items : Table.Carried ItemKept t.items t'.items
  tasks : Table.Carried TaskKept t.tasks t'.tasks
  supplements : ∀ s ∈ t.supplements, s ∈ t'.supplements
  exports : ∀ e ∈ t.exports, e ∈ t'.exports
  changes : Table.Carried ChangeKept t.changes t'.changes

namespace WorkTables.Kept

theorem refl (t : WorkTables) : t.Kept t :=
  ⟨.refl ItemKept.refl _, .refl TaskKept.refl _, fun _ hs => hs, fun _ he => he,
    .refl ChangeKept.refl _⟩

theorem trans {t₁ t₂ t₃ : WorkTables} (h : t₁.Kept t₂) (h' : t₂.Kept t₃) : t₁.Kept t₃ :=
  ⟨h.items.trans ItemKept.trans h'.items, h.tasks.trans TaskKept.trans h'.tasks,
    fun s hs => h'.supplements s (h.supplements s hs), fun e he => h'.exports e (h.exports e he),
    h.changes.trans ChangeKept.trans h'.changes⟩

theorem setItem (hkeys : t.Keyed) {w w' : WorkItemRow} (hw : w ∈ t.items) (h : ItemKept w w') :
    t.Kept (t.setItem w') :=
  { refl t with items := .set ItemKept.refl hkeys.items hw h.id h }

theorem setTask (hkeys : t.Keyed) {r' : WorkItemTaskRow} (hr : r ∈ t.tasks) (h : TaskKept r r') :
    t.Kept (t.setTask r') :=
  { refl t with tasks := .set TaskKept.refl hkeys.tasks hr h.id h }

theorem setChange (hkeys : t.Keyed) {x' : StatusChangeRow} (hx : x ∈ t.changes)
    (h : ChangeKept x x') : t.Kept (t.setChange x') :=
  { refl t with changes := .set ChangeKept.refl hkeys.changes hx h.id h }

end WorkTables.Kept

theorem ItemKept.advanced (w : WorkItemRow) (status : String) :
    ItemKept w { w with status, revision := w.revision + 1 } :=
  ⟨rfl, rfl, rfl, by show w.revision ≤ w.revision + 1; omega⟩

theorem ItemKept.settledBy (w : WorkItemRow) (node : TaskNode) (d : TaskDecision) :
    ItemKept w (w.settledBy node d) := by
  unfold WorkItemRow.settledBy
  split
  · exact ⟨rfl, rfl, rfl, le_rfl⟩
  · split
    · exact ⟨rfl, rfl, rfl, le_rfl⟩
    · exact .refl w

theorem TaskKept.decided (hopen : r.decision.requestId = none)
    (decision : TaskDecision) (ready : Bool) :
    TaskKept r { r with decision, deliveryReady := ready } := by
  refine ⟨rfl, rfl, rfl, rfl, fun h => ?_, fun _ => rfl⟩
  rw [hopen] at h
  cases h

theorem TaskKept.progressed {status : TaskStatus}
    (hfinal : r.status = .pending ∨ status = r.status) : TaskKept r (r.progressed status) := by
  refine ⟨rfl, rfl, rfl, rfl, fun _ => rfl, fun hstatus => ?_⟩
  exact hfinal.resolve_left hstatus

theorem TaskKept.undelivered (r : WorkItemTaskRow) (item : Uuid) :
    TaskKept r (r.undelivered item) := by
  rw [undelivered_eq]
  exact ⟨rfl, rfl, rfl, rfl, fun _ => rfl, fun _ => rfl⟩

theorem Accepts.kept (h : Accepts service c t t') (hkeys : t.Keyed) : t.Kept t' := by
  cases h with
  | @decide t actor d r w hr hw hitem hmessage hnode hbounds hvalid hopen =>
    have htask := WorkTables.Kept.setTask hkeys hr (.decided hopen (d.stored r.nodeId) false)
    exact htask.trans (.setItem (hkeys.decide hr _) hw (.advanced w w.status))
  | @addSupplement t actor c id w hw =>
    refine { WorkTables.Kept.setItem hkeys hw (.advanced w w.status) with supplements := ?_ }
    exact fun s hs => mem_append_left _ hs
  | @exportGithub t actor c now r w target hr hw hitem hmessage hnode hvalid htarget hnew hopen =>
    have htask := WorkTables.Kept.setTask hkeys hr (.decided hopen c.stored false)
    refine { htask.trans (.setItem (hkeys.decide hr _) hw (.advanced w w.status))
      with exports := ?_ }
    exact fun e he => mem_append_left _ he
  | @noChange t actor task c id now x w hx hw hitem htask hmessage hactor hvalid hopen =>
    refine .setChange hkeys hx ⟨rfl, rfl, rfl, fun _ => ⟨rfl, rfl⟩, fun hsome => ?_⟩
    exact absurd hopen hsome
  | @changeStatus t actor task c id now x w hx hw hitem htask hmessage hactor hvalid hopen =>
    have hchange : t.Kept (t.setChange { x with decision := some (c.stored x.id w.status) }) := by
      refine .setChange hkeys hx ⟨rfl, rfl, rfl, fun _ => ⟨rfl, rfl⟩, fun hsome => ?_⟩
      exact absurd hopen hsome
    exact { hchange.trans (.setItem (hkeys.answer hx _) hw (.advanced w c.status)) with }

theorem WorkChange.kept (h : WorkChange service decode l t t') (hkeys : t.Keyed) : t.Kept t' := by
  cases h with
  | refused | settledLate | releasedLate | quiet => exact .refl t
  | accepted haccepts => exact haccepts.kept hkeys
  | claimed hw | settled hw | released hw | starting hw =>
    exact .setItem hkeys hw ⟨rfl, rfl, rfl, le_rfl⟩
  | @updated t w r token channel task status hw hr hid hitem htoken hstatus hfinal =>
    have htask := WorkTables.Kept.setTask hkeys hr (.progressed hfinal)
    have hkeys' := hkeys.setTask (r.progressed status) hr rfl rfl
    refine htask.trans (.setItem hkeys' hw ?_)
    split
    · exact .settledBy w task.nodeId r.decision
    · exact .refl w
  | posted => exact { WorkTables.Kept.refl t with tasks := .append TaskKept.refl _ _ }
  | undelivered item =>
    exact { WorkTables.Kept.refl t with tasks := .map fun r _ => .undelivered r item }
  | opened => exact { WorkTables.Kept.refl t with changes := .append ChangeKept.refl _ _ }
  | held hx | located hx | terminal hx =>
    exact .setChange hkeys hx ⟨rfl, rfl, rfl, fun _ => ⟨rfl, rfl⟩, fun _ => rfl⟩
  | shown hx hnew =>
    exact .setChange hkeys hx ⟨rfl, rfl, rfl, fun hsome => absurd hnew hsome, fun _ => rfl⟩

theorem WorkWorld.Sound.kept {ls : List WorkLabel} (hw : w.Sound)
    (hrun : Run (WorkStep service host decode) w ls w') : w.db.tables.Kept w'.db.tables := by
  have hboth : w'.Sound ∧ w.db.tables.Kept w'.db.tables := by
    refine hrun.invariant (P := fun u => u.Sound ∧ w.db.tables.Kept u.db.tables) ?_ ⟨hw, .refl _⟩
    rintro u l u' ⟨hu, hkept⟩ hstep
    exact ⟨hstep.sound hu, hkept.trans ((hstep.change hu.keyed hu.sane).kept hu.keyed)⟩
  exact hboth.2

end Sproyt
