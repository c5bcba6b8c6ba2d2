import Sproyt.Work.Steps

/-!
# Tasks of the review in the chat

Any number of replicas project the tasks that Heart reports, and nothing is known of the reports.
What a projection commits is decided by the tables it finds, so what is asked of it holds step by
step, and with it for whole runs.
-/

namespace Sproyt

open List

/-- Every task follows on a completed one, where its node has a predecessor. -/
def WorkTables.Ordered (t : WorkTables) : Prop :=
  ∀ r ∈ t.tasks, t.FollowsOn r.workItemId r.nodeId

/-- What is asked of a step, by its label and the stores before and after it. -/
structure ProjectedWell (decode : String → Option Json) (l : WorkLabel) (db db' : WorkDb) :
    Prop where
  /-- A projection is committed under the current lease of its work item. -/
  leased : ∀ {item token : Uuid} {channel : ChannelId} {task : ReportedTask}
    {posted : Option MessageId}, l = .projected item token channel task posted →
    ∃ w ∈ db.items, w.id = item ∧ w.syncLeaseToken = some token
  /-- The row of a task and its message come together. -/
  posted : ∀ {item token : Uuid} {channel : ChannelId} {task : ReportedTask} {m : MessageId},
    l = .projected item token channel task (some m) →
    (∀ r ∈ db.tasks, r.id ≠ task.id) ∧ (∀ x ∈ db.chat.messages, x.id ≠ m) ∧
    (∃ r ∈ db'.tasks, r.id = task.id ∧ r.workItemId = item ∧ r.messageId = m) ∧
    ∃ x, x.id = m ∧ db'.chat.messages = db.chat.messages ++ [x]
  /-- Other projections post nothing. -/
  unposted : ∀ {item token : Uuid} {channel : ChannelId} {task : ReportedTask},
    l = .projected item token channel task none → db'.chat.messages = db.chat.messages
  /-- Rows come from nowhere else. -/
  created : ∀ r' ∈ db'.tasks, (∀ r ∈ db.tasks, r.id ≠ r'.id) →
    ∃ token channel task, task.id = r'.id ∧
      l = .projected r'.workItemId token channel task (some r'.messageId)
  /-- A completion is backed by the stored decision. -/
  completed : ∀ r' ∈ db'.tasks, r'.status = .completed →
    (∃ r ∈ db.tasks, r.id = r'.id ∧ r.status = .completed) ∨
    ∃ w ∈ db.items, w.id = r'.workItemId ∧ (w.definitionVersion = .v110 →
      r'.decision.requestId.isSome = true ∧ ∃ token channel task, task.id = r'.id ∧
        l = .projected w.id token channel task none ∧
        task.resultMetadata = some (completionResult decode task.nodeId r'.decision))

variable {w w' : WorkWorld} {item token : Uuid} {channel : ChannelId} {task : ReportedTask}
    {o : Option MessageId} {r' : WorkItemTaskRow}

section

variable {service : WorkItems} {host : Host} {decode : String → Option Json} {db db' : WorkDb}
  {t t' : WorkTables} {l : WorkLabel}

/-! ### Steps -/

theorem WorkStep.posts (hw : w.Sound)
    (h : WorkStep service host decode w (.projected item token channel task o) w') :
    (∀ m ∈ o, (∀ x ∈ w.db.chat.messages, x.id ≠ m) ∧
      ∃ x, x.id = m ∧ x.channelId = channel ∧
        w'.db.chat.messages = w.db.chat.messages ++ [x]) ∧
      (o = none → w'.db.chat.messages = w.db.chat.messages) := by
  cases h with
  | taskMove hmove =>
    generalize hphase : TaskPass.phase _ = phase at hmove
    cases hmove with
    | projected hrun =>
      have hnode := hw.sane _ mem_append_cons_self _ _ _ hphase _ mem_cons_self
      exact (WorkItems.project_change service hw.keyed hnode hrun).2

theorem mem_setTask {r x : WorkItemTaskRow} (h : x ∈ (t.setTask r).tasks) :
    x = r ∨ x ∈ t.tasks := by
  rcases Table.mem_set h with rfl | ⟨hx, -⟩
  · exact .inl rfl
  · exact .inr hx

theorem WorkChange.created (h : WorkChange service decode l t t') (hr' : r' ∈ t'.tasks)
    (hnew : ∀ r ∈ t.tasks, r.id ≠ r'.id) :
    ∃ token channel task, task.id = r'.id ∧
      l = .projected r'.workItemId token channel task (some r'.messageId) := by
  -- a row that is written over was there
  have hset : ∀ r x : WorkItemTaskRow, r ∈ t.tasks → r' ∈ (t.setTask x).tasks → x.id = r.id →
      False := by
    intro r x hr hmem hid
    rcases mem_setTask hmem with rfl | hmem
    · exact hnew r hr hid.symm
    · exact hnew r' hmem rfl
  cases h with
  | accepted haccepts =>
    cases haccepts with
    | decide hr | exportGithub hr => exact (hset _ _ hr hr' rfl).elim
    | addSupplement | noChange | changeStatus => exact absurd rfl (hnew r' hr')
  | updated hw hr => exact (hset _ _ hr hr' rfl).elim
  | posted hw htoken hstatus hopen hfresh =>
    rcases mem_append.1 hr' with hr' | hr'
    · exact absurd rfl (hnew r' hr')
    · obtain rfl := mem_singleton.1 hr'
      exact ⟨_, _, _, rfl, rfl⟩
  | undelivered item =>
    obtain ⟨r, hr, rfl⟩ := mem_map.1 hr'
    exact absurd (by rw [undelivered_eq]) (hnew r hr)
  | _ => exact absurd rfl (hnew r' hr')

/-- A row becomes completed when Heart reports so, and the decision backs it. -/
theorem WorkChange.completed (h : WorkChange service decode l t t') (hr' : r' ∈ t'.tasks)
    (hdone : r'.status = .completed) :
    (∃ r ∈ t.tasks, r.id = r'.id ∧ r.status = .completed) ∨
      ∃ w ∈ t.items, w.id = r'.workItemId ∧ (w.definitionVersion = .v110 →
        r'.decision.requestId.isSome = true ∧ ∃ token channel task, task.id = r'.id ∧
          l = .projected w.id token channel task none ∧
          task.resultMetadata = some (completionResult decode task.nodeId r'.decision)) := by
  have hset : ∀ r x : WorkItemTaskRow, r ∈ t.tasks → r' ∈ (t.setTask x).tasks → x.id = r.id →
      x.status = r.status → ∃ r ∈ t.tasks, r.id = r'.id ∧ r.status = .completed := by
    intro r x hr hmem hid hstatus
    rcases mem_setTask hmem with rfl | hmem
    · exact ⟨r, hr, hid.symm, hstatus.symm.trans hdone⟩
    · exact ⟨r', hmem, rfl, hdone⟩
  cases h with
  | accepted haccepts =>
    cases haccepts with
    | decide hr | exportGithub hr => exact .inl (hset _ _ hr hr' rfl rfl)
    | addSupplement | noChange | changeStatus => exact .inl ⟨r', hr', rfl, hdone⟩
  | updated hw hr hid hitem htoken hstatus hfinal hresult =>
    rcases mem_setTask hr' with rfl | hmem
    · refine .inr ⟨_, hw, hitem.symm, fun hversion => ?_⟩
      obtain ⟨hrequest, hmetadata⟩ := hresult hdone hversion
      exact ⟨hrequest, _, _, _, hid.symm, rfl, hmetadata⟩
    · exact .inl ⟨r', hmem, rfl, hdone⟩
  | posted hw htoken hstatus hopen =>
    rcases mem_append.1 hr' with hr' | hr'
    · exact .inl ⟨r', hr', rfl, hdone⟩
    · obtain rfl := mem_singleton.1 hr'
      exact .inr ⟨_, hw, rfl, fun hversion => absurd hdone (hopen hversion)⟩
  | undelivered item =>
    obtain ⟨r, hr, rfl⟩ := mem_map.1 hr'
    rw [undelivered_eq] at hdone ⊢
    exact .inl ⟨r, hr, rfl, hdone⟩
  | _ => exact .inl ⟨r', hr', rfl, hdone⟩

theorem WorkChange.projected
    (h : WorkChange service decode (.projected item token channel task o) t t') :
    (∃ w ∈ t.items, w.id = item ∧ w.syncLeaseToken = some token) ∧
      ∀ m ∈ o, (∀ r ∈ t.tasks, r.id ≠ task.id) ∧
        ∃ r ∈ t'.tasks, r.id = task.id ∧ r.workItemId = item ∧ r.messageId = m := by
  cases h with
  | updated hw hr hid hitem htoken =>
    exact ⟨⟨_, hw, rfl, htoken⟩, fun m hm => by cases hm⟩
  | posted hw htoken hstatus hopen hnew =>
    refine ⟨⟨_, hw, rfl, htoken⟩, fun m hm => ?_⟩
    cases hm
    exact ⟨hnew, _, mem_append_right _ (mem_singleton_self _), rfl, rfl, rfl⟩

theorem WorkStep.projectedWell (hw : w.Sound)
    (h : WorkStep service host decode w l w') : ProjectedWell decode l w.db w'.db := by
  have hchange := h.change hw.keyed hw.sane
  refine ⟨?_, ?_, ?_, ?_, ?_⟩
  · rintro item token channel task posted rfl
    exact hchange.projected.1
  · rintro item token channel task m rfl
    obtain ⟨hnew, hrow⟩ := hchange.projected.2 m rfl
    obtain ⟨hfresh, x, hid, -, hmessages⟩ := (h.posts hw).1 m rfl
    exact ⟨hnew, hfresh, hrow, x, hid, hmessages⟩
  · rintro item token channel task rfl
    exact (h.posts hw).2 rfl
  · exact fun r' hr' hnew => hchange.created hr' hnew
  · exact fun r' hr' hdone => hchange.completed hr' hdone

/-! ### Runs -/

theorem WorkTables.FollowsOn.kept {node : TaskNode} (h : t.FollowsOn item node)
    (hkept : t.Kept t') : t'.FollowsOn item node := by
  intro previous hprevious
  obtain ⟨r, hr, hitem, hnode, hdone⟩ := h previous hprevious
  obtain ⟨r', hr', hrr⟩ := hkept.tasks r hr
  refine ⟨r', hr', hrr.item.trans hitem, hrr.node.trans hnode, ?_⟩
  rw [hrr.status (by rw [hdone]; exact TaskStatus.noConfusion), hdone]

theorem WorkChange.ordered (h : WorkChange service decode l t t') (hkeys : t.Keyed)
    (horder : t.Ordered) : t'.Ordered := by
  intro r' hr'
  have hkept := h.kept hkeys
  by_cases hnew : ∀ r ∈ t.tasks, r.id ≠ r'.id
  · obtain ⟨token, channel, task, -, rfl⟩ := h.created hr' hnew
    generalize ho : some r'.messageId = o at h
    generalize hitem : r'.workItemId = item at h
    cases h with
    | updated => cases ho
    | posted hw htoken hstatus hopen hfresh hnode hfollows =>
      rcases mem_append.1 hr' with hr' | hr'
      · exact absurd rfl (hnew r' hr')
      · obtain rfl := mem_singleton.1 hr'
        exact hfollows.kept hkept
  · push Not at hnew
    obtain ⟨r, hr, hid⟩ := hnew
    obtain ⟨r'', hr'', hrr⟩ := hkept.tasks r hr
    obtain rfl : r'' = r' :=
      Table.eq_of_key_eq (h.keyed hkeys).tasks hr'' hr' (hrr.id.trans hid)
    rw [hrr.item, hrr.node]
    exact (horder r hr).kept hkept

/-- However the passes of the replicas are interleaved and whatever Heart reports, each task is
posted once, under the lease, and its row keeps to its decision and to the order of the review. -/
theorem task_projection_sound {w₀ w : WorkWorld} {ls : List WorkLabel}
    (hkeys : w₀.db.tables.Keyed) (hpasses : w₀.taskPasses = []) (horder : w₀.db.tables.Ordered)
    (hrun : Run (WorkStep service host decode) w₀ ls w) :
    (w.db.tasks.map (·.id)).Nodup ∧
    (∀ r ∈ w.db.tasks, w.db.tables.FollowsOn r.workItemId r.nodeId) ∧
    (∀ before mid after item token channel task m item' token' channel' task' m',
      ls = before ++ .projected item token channel task (some m) ::
        (mid ++ .projected item' token' channel' task' (some m') :: after) → task'.id ≠ task.id) ∧
    (∀ l w', WorkStep service host decode w l w' → ProjectedWell decode l w.db w'.db) ∧
    ∀ ms w₂, Run (WorkStep service host decode) w ms w₂ → ∀ r ∈ w.db.tasks, r.status ≠ .pending →
      ∃ r' ∈ w₂.db.tasks, r'.id = r.id ∧ r'.status = r.status := by
  have hsound₀ : w₀.Sound := ⟨hkeys, by rw [hpasses]; exact fun p hp => absurd hp not_mem_nil⟩
  have hsound := hsound₀.run hrun
  refine ⟨hsound.keyed.tasks, ?_, ?_, fun l w' hstep => hstep.projectedWell hsound, ?_⟩
  · have hboth : w.Sound ∧ w.db.tables.Ordered := by
      refine hrun.invariant (P := fun u => u.Sound ∧ u.db.tables.Ordered) ?_ ⟨hsound₀, horder⟩
      rintro u l u' ⟨hu, hordered⟩ hstep
      exact ⟨hstep.sound hu, (hstep.change hu.keyed hu.sane).ordered hu.keyed hordered⟩
    exact hboth.2
  · -- the row of the first message is still there when the second is posted
    rintro before mid after item token channel task m item' token' channel' task' m' rfl hid
    obtain ⟨u, u', hbefore, hfirst, hrest⟩ := hrun.split
    obtain ⟨v, v', hmid, hsecond, -⟩ := hrest.split
    have hu := hsound₀.run hbefore
    have hu' := hfirst.sound hu
    have hv := hu'.run hmid
    obtain ⟨-, -, ⟨r, hr, hrid, -⟩, -⟩ := (hfirst.projectedWell hu).posted rfl
    obtain ⟨r', hr', hrr⟩ := (hu'.kept hmid).tasks r hr
    exact ((hsecond.projectedWell hv).posted rfl).1 r' hr' (by rw [hrr.id, hrid, hid])
  · intro ms w₂ hrun₂ r hr hfinal
    obtain ⟨r', hr', hrr⟩ := (hsound.kept hrun₂).tasks r hr
    exact ⟨r', hr', hrr.id, hrr.status hfinal⟩

end

/-! ### A first pass -/

theorem accepts_of_sorted {d : ReviewDetails} {reply : HeartReply} {state : ProcessStatus}
    (howns : d.owns reply.view) (hstate : heartState reply.view = some state)
    (hconsistent : (d.consistent state reply.tasks && d.rounded state reply.tasks) = true)
    (hsorted : reply.tasks.Pairwise fun a b => ReviewDetails.rank a ≤ ReviewDetails.rank b) :
    d.accepts reply = .ok (state, reply.tasks) := by
  rw [ReviewDetails.accepts, if_pos howns]
  simp only [hstate, hconsistent, if_true]
  rw [mergeSort_of_pairwise (by simpa using hsorted)]

section

variable {service : WorkItems} {host : Host} {decode : String → Option Json} {db db' : WorkDb}
  {passes : List StatusPass} {issued : List Uuid}

theorem WorkStep.alone {phase phase' : TaskPhase} {l : WorkLabel}
    (h : TaskMove host decode item token db phase l db' phase') :
    WorkStep service host decode ⟨db, [⟨item, token, phase⟩], passes, issued⟩ l
      ⟨db', [⟨item, token, phase'⟩], passes, issued⟩ :=
  @WorkStep.taskMove service host decode db db' [] [] ⟨item, token, phase⟩ phase' passes issued l h

end

namespace Sample

open WorkItems

def instanceView : Json :=
  .object [("id", .uuid 44),
    ("input_metadata", .object [("application_id", .uuid 42), ("requester_id", .uuid 1),
      ("reviewer_id", .uuid 1), ("work_item_id", .uuid 40)]),
    ("namespace", .string "sproyt"), ("runtime", .string "v2"), ("status", .string "waiting")]

def reported (id : Uuid) (node : TaskNode) (status : TaskStatus) (result : Option Json) :
    ReportedTask :=
  ⟨⟨id, node, alice, .known status⟩, 44, result⟩

def details : ReviewDetails := ⟨40, 44, alice, 42, room, alice, room, .v110⟩

def started : WorkWorld := ⟨workDb, [], [], []⟩

def review : ReportedTask := reported 45 .review .pending none

def claimed : WorkDb := ((claimSync 40 60 100).commit workDb).2

def shown : WorkDb := ((project host noText 40 60 room review ⟨46⟩ 0).commit claimed).2

theorem shown_run :
    Run (WorkStep workItems host noText) started
      [.claimed 40 60, .silent, .silent, .projected 40 60 room review (some ⟨46⟩)]
      ⟨shown, [⟨40, 60, .projecting details .waiting []⟩], [], [60]⟩ := by
  have haccepts : details.accepts ⟨instanceView, [review]⟩ = .ok (.waiting, [review]) :=
    accepts_of_sorted (by decide) rfl (by decide) (by decide)
  have hclaim : (claimSync 40 60 100).run workDb = .ok (true, claimed) := rfl
  have hdetails : (reviewDetails 40 60).run claimed = .ok (details, claimed) := rfl
  have hproject : (project host noText 40 60 room review ⟨46⟩ 0).run claimed =
      .ok (some ⟨46⟩, shown) := rfl
  exact .cons (.claimSync (by decide) hclaim) (.cons (.alone (.details hdetails))
    (.cons (.alone (.answered haccepts)) (.single (.alone (.projected hproject)))))

end Sample

theorem task_projection_sound_shown :
    Sample.shown.tasks.length = 1 ∧ (Sample.shown.tasks.map (·.id)).Nodup ∧
      ∀ r ∈ Sample.shown.tasks, Sample.shown.tables.FollowsOn r.workItemId r.nodeId := by
  have hkeys : Sample.started.db.tables.Keyed := by
    constructor <;> decide
  have horder : Sample.started.db.tables.Ordered := fun r hr => absurd hr not_mem_nil
  obtain ⟨hone, hfollows, -⟩ := task_projection_sound hkeys rfl horder Sample.shown_run
  exact ⟨rfl, hone, hfollows⟩

end Sproyt
