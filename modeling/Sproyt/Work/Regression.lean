import Sproyt.Work.History
import Sproyt.Work.Projection

/-!
# The status that a review leads to

Every pass projects every task of the review again, and each completed one writes the status of
the work item. A pass that is cut short, or one that is only under way, therefore leaves the
status of an early task where a later one had been. As long as no completed task is projected
after a later one, the status is that of the last completed task.
-/

namespace Sproyt

open List

def TaskNode.rank : TaskNode → Nat
  | .review => 0
  | .provideInformation => 1
  | _ => 2

theorem TaskNode.eq_of_rank_eq {a b : TaskNode} (ha : a.ofReview = true) (hb : b.ofReview = true)
    (h : a.rank = b.rank) : a = b := by
  cases a <;> cases b <;> simp [TaskNode.ofReview, TaskNode.rank] at ha hb h ⊢

namespace WorkItemTaskRow

variable {r : WorkItemTaskRow}

def outcome (r : WorkItemTaskRow) : Option String :=
  if r.nodeId = .provideInformation then some "reviewing" else r.decision.status

/-- The decision is one of the kind that is asked for. -/
def Judged (r : WorkItemTaskRow) : Prop :=
  if r.nodeId = .provideInformation then r.decision.category = none
  else ∃ category priority status, r.decision.category = some category ∧
    r.decision.priority = some priority ∧ r.decision.status = some status

theorem Judged.settledBy (h : r.Judged) {w : WorkItemRow} :
    some (w.settledBy r.nodeId r.decision).status = r.outcome := by
  unfold Judged at h
  unfold WorkItemRow.settledBy outcome
  by_cases hnode : r.nodeId = .provideInformation
  · rw [if_pos hnode] at h ⊢
    simp only [h, if_pos hnode]
  · rw [if_neg hnode] at h ⊢
    obtain ⟨category, priority, status, hcategory, hpriority, hstatus⟩ := h
    simp only [hcategory, hpriority, hstatus, if_neg hnode]

theorem Judged.same {r' : WorkItemTaskRow} (h : r.Judged) (hnode : r'.nodeId = r.nodeId)
    (hdecision : r'.decision = r.decision) : r'.Judged := by
  rw [Judged, hnode, hdecision]
  exact h

theorem Judged.of_stored {d : Decision} (h : r.decision = d.stored r.nodeId) : r.Judged := by
  unfold Judged
  rw [h]
  by_cases hnode : r.nodeId = .provideInformation
  · rw [if_pos hnode, Decision.stored]
    exact if_pos hnode
  · rw [if_neg hnode, Decision.stored]
    exact ⟨d.category, d.priority, d.status, if_neg hnode, if_neg hnode, if_neg hnode⟩

end WorkItemTaskRow

/-- The completed task of a work item after which none is completed. -/
structure WorkTables.Latest (t : WorkTables) (item : Uuid) (r : WorkItemTaskRow) : Prop where
  mem : r ∈ t.tasks
  own : r.workItemId = item
  done : r.status = .completed
  last : ∀ r' ∈ t.tasks, r'.workItemId = item → r'.status = .completed →
    r'.nodeId.rank ≤ r.nodeId.rank

/-! ### What is asked of the projections -/

/-- Heart lists tasks as pending or completed, and each one under the node it has. -/
def Advances (w : WorkWorld) : WorkLabel → Prop
  | .projected item _ _ task _ =>
    (task.status = .known .pending ∨ task.status = .known .completed) ∧
      ∀ r ∈ w.db.tasks, r.id = task.id → r.workItemId = item → r.nodeId = task.nodeId
  | _ => True

/-- A completed task is not projected after the completion of a later one. -/
def Sequenced (w : WorkWorld) : WorkLabel → Prop
  | .projected item _ _ task _ => task.status = .known .completed →
      ∀ r ∈ w.db.tasks, r.workItemId = item → r.status = .completed →
        r.nodeId.rank ≤ task.nodeId.rank
  | _ => True

def Undisturbed (w : WorkWorld) (l : WorkLabel) : Prop := Advances w l ∧ Sequenced w l

/-! ### Tasks step by step -/

/-- What a step with this label does to a task. -/
structure TaskMoved (l : WorkLabel) (r r' : WorkItemTaskRow) : Prop where
  item : r'.workItemId = r.workItemId
  node : r'.nodeId = r.nodeId
  decision : r'.decision = r.decision ∨ (r.status = .pending ∧ r'.status = .pending ∧
    (r.nodeId.ofReview = true → r'.Judged))
  status : r'.status = r.status ∨ ∃ token channel task,
    l = .projected r.workItemId token channel task none ∧ task.status = .known r'.status

variable {x' : WorkItemRow} {token item : Uuid} {channel : ChannelId} {task : ReportedTask}
    {o : Option MessageId} {w : WorkWorld} {issued : List Uuid}

section

variable {r' : WorkItemTaskRow}

variable {service : WorkItems} {host : Host} {decode : String → Option Json}
  {t t' : WorkTables} {l : WorkLabel} {w w' : WorkWorld}

theorem TaskMoved.refl (r : WorkItemTaskRow) : TaskMoved l r r := ⟨rfl, rfl, .inl rfl, .inl rfl⟩

theorem task_moved_set {r x : WorkItemTaskRow} (hr : r ∈ t.tasks)
    (hx : x ∈ (t.setTask r').tasks) (h : TaskMoved l r r') : ∃ y ∈ t.tasks, TaskMoved l y x := by
  rcases mem_setTask hx with rfl | hmem
  · exact ⟨r, hr, h⟩
  · exact ⟨x, hmem, .refl x⟩

section

variable (h : WorkChange service decode l t t')

include h

theorem WorkChange.task_moved (hr' : r' ∈ t'.tasks) : (∃ r ∈ t.tasks, TaskMoved l r r') ∨
      ∃ w ∈ t.items, ∃ token channel task m, w.id = r'.workItemId ∧
        l = .projected w.id token channel task (some m) ∧ r'.nodeId = task.nodeId ∧
        r'.decision = .undecided ∧ (w.definitionVersion = .v110 → r'.status ≠ .completed) := by
  cases h with
  | accepted haccepts =>
    cases haccepts with
    | @decide _ _ d r w hr hw hitem hmessage hnode hbounds hvalid hopen hpending =>
      exact .inl (task_moved_set hr hr'
        ⟨rfl, rfl, .inr ⟨hpending, hpending, fun _ => .of_stored rfl⟩, .inl rfl⟩)
    | @exportGithub _ _ _ _ r _ _ hr hw hitem hmessage hnode _ _ _ hopen hpending =>
      refine .inl (task_moved_set hr hr'
        ⟨rfl, rfl, .inr ⟨hpending, hpending, fun hreview => ?_⟩, .inl rfl⟩)
      rw [hnode] at hreview
      cases hreview
    | addSupplement | noChange | changeStatus => exact .inl ⟨r', hr', .refl r'⟩
  | updated hw hr hid hitem htoken hstatus =>
    exact .inl (task_moved_set hr hr' ⟨rfl, rfl, .inl rfl, .inr ⟨_, _, _, by rw [hitem], hstatus⟩⟩)
  | posted hw htoken hstatus hopen =>
    rcases mem_append.1 hr' with hr' | hr'
    · exact .inl ⟨r', hr', .refl r'⟩
    · rw [mem_singleton.1 hr']
      exact .inr ⟨_, hw, _, _, _, _, rfl, rfl, rfl, rfl, hopen⟩
  | undelivered item =>
    obtain ⟨r, hr, rfl⟩ := mem_map.1 hr'
    refine .inl ⟨r, hr, ?_⟩
    rw [undelivered_eq]
    exact ⟨rfl, rfl, .inl rfl, .inl rfl⟩
  | _ => exact .inl ⟨r', hr', .refl r'⟩

/-! ### Statuses step by step -/

theorem WorkChange.history_grows : ∃ es, t'.history = t.history ++ es := by
  cases h with
  | accepted haccepts =>
    cases haccepts with
    | changeStatus => exact ⟨_, rfl⟩
    | _ => exact ⟨[], (append_nil _).symm⟩
  | _ =>
    exact ⟨[], (append_nil _).symm⟩

theorem WorkChange.entries_nil {id : Uuid} (hnil : t'.entries id = []) : t.entries id = [] := by
  obtain ⟨es, hes⟩ := h.history_grows
  rw [WorkTables.entries, hes, filter_append] at hnil
  exact (append_eq_nil_iff.1 hnil).1

end

theorem Accepts.recorded_status {c : WorkCommand} (h : Accepts service c t t') (hx' : x' ∈ t'.items)
    (hnil : t'.entries x'.id = []) : ∃ x ∈ t.items, x.id = x'.id ∧ x.status = x'.status := by
  have hset : ∀ x y : WorkItemRow, x ∈ t.items → x' ∈ (t.setItem y).items → y.id = x.id →
      y.status = x.status → ∃ x ∈ t.items, x.id = x'.id ∧ x.status = x'.status := by
    intro x y hx hmem hid hstatus
    rcases Table.mem_set hmem with rfl | ⟨hmem, -⟩
    · exact ⟨x, hx, hid.symm, hstatus.symm⟩
    · exact ⟨x', hmem, rfl, rfl⟩
  cases h with
  | decide hr hw | addSupplement hw | exportGithub hr hw => exact hset _ _ hw hx' rfl rfl
  | noChange => exact ⟨x', hx', rfl, rfl⟩
  | changeStatus hy hw =>
    rcases Table.mem_set hx' with rfl | ⟨hmem, -⟩
    · rw [WorkTables.entries, filter_append] at hnil
      have hlast := (append_eq_nil_iff.1 hnil).2
      rw [filter_singleton, decide_eq_true rfl] at hlast
      cases hlast
    · exact ⟨x', hmem, rfl, rfl⟩

/-- What is known of the tasks of reviews, and of the statuses they lead to. -/
structure WorkTables.Settled (t : WorkTables) : Prop where
  nodes : ∀ r ∈ t.tasks, r.nodeId.ofReview = true
  judged : ∀ r ∈ t.tasks, r.decision.requestId.isSome = true → r.Judged
  status : ∀ x ∈ t.items, x.definitionVersion = .v110 → t.entries x.id = [] →
    ∀ r, t.Latest x.id r → some x.status = r.outcome

theorem WorkChange.latest (h : WorkChange service decode l t t') (hkeys : t.Keyed)
    {x : WorkItemRow} (hx : x ∈ t.items) (hversion : x.definitionVersion = .v110)
    (hlatest : t'.Latest x.id r')
    (hl : ∀ token channel task, task.status = .known .completed →
      l ≠ .projected x.id token channel task none) :
    ∃ r, t.Latest x.id r ∧ r'.outcome = r.outcome := by
  rcases h.task_moved hlatest.mem with ⟨r, hr, hmoved⟩ | ⟨y, hy, -, -, -, -, hid, -, -, -, hopen⟩
  · have hitem : r.workItemId = x.id := hmoved.item.symm.trans hlatest.own
    have hdone : r.status = .completed := by
      rcases hmoved.status with hsame | ⟨token, channel, task, heq, hstatus⟩
      · rw [← hsame, hlatest.done]
      · rw [hlatest.done] at hstatus
        exact absurd (hitem ▸ heq) (hl token channel task hstatus)
    have hdecision : r'.decision = r.decision := by
      refine hmoved.decision.resolve_right fun hpending => ?_
      rw [hpending.1] at hdone
      cases hdone
    refine ⟨r, ⟨hr, hitem, hdone, fun r₁ hr₁ hitem₁ hdone₁ => ?_⟩, ?_⟩
    · obtain ⟨r₁', hr₁', hkept⟩ := (h.kept hkeys).tasks r₁ hr₁
      have hstays : r₁'.status = .completed :=
        (hkept.status (by rw [hdone₁]; exact nofun)).trans hdone₁
      have hle := hlatest.last r₁' hr₁' (hkept.item.trans hitem₁) hstays
      rwa [hkept.node, hmoved.node] at hle
    · rw [WorkItemTaskRow.outcome, WorkItemTaskRow.outcome, hmoved.node, hdecision]
  · obtain rfl : y = x := Table.eq_of_key_eq hkeys.items hy hx (hid.trans hlatest.own)
    exact absurd hlatest.done (hopen hversion)

/-- A completed task that comes in its order settles the work item. -/
theorem WorkChange.settles (hkeys : t.Keyed) (hsettled : t.Settled)
    (h : WorkChange service decode (.projected x'.id token channel task none) t t')
    (hx' : x' ∈ t'.items) (hversion : x'.definitionVersion = .v110)
    (hdone : task.status = .known .completed)
    (hnode : ∀ r ∈ t.tasks, r.id = task.id → r.workItemId = x'.id → r.nodeId = task.nodeId)
    (horder : ∀ r ∈ t.tasks, r.workItemId = x'.id → r.status = .completed →
      r.nodeId.rank ≤ task.nodeId.rank) (hlatest :
        t'.Latest x'.id r') : some x'.status = r'.outcome := by
  generalize hitem : x'.id = item at h
  cases h with
  | @updated _ w r _ _ _ status hw hr hid hown htoken hstatus hfinal hresult =>
    obtain rfl : status = .completed := by
      rw [hdone] at hstatus
      injection hstatus with hstatus
      exact hstatus.symm
    have hsame : r.nodeId = task.nodeId := hnode r hr hid (hown.trans hitem.symm)
    obtain ⟨hid', hversion', -⟩ := settledBy_moved w task.nodeId r.decision
    rw [if_pos rfl] at hx' hlatest
    rcases Table.mem_set hx' with rfl | ⟨-, hne⟩
    · have hjudged : r.Judged :=
        hsettled.judged r hr (hresult rfl (hversion'.symm.trans hversion)).1
      rw [← hsame, hjudged.settledBy]
      rcases mem_setTask hlatest.mem with rfl | hmem
      · rfl
      · -- another task would come after this one and before it
        have hle := horder r' hmem hlatest.own hlatest.done
        have hge := hlatest.last (r.progressed .completed)
          (Table.mem_set_self ⟨r, hr, rfl⟩) (hown.trans hid'.symm) rfl
        have hrank : r.nodeId.rank ≤ r'.nodeId.rank := hge
        rw [← hsame] at hle
        have heq : r'.nodeId = r.nodeId := TaskNode.eq_of_rank_eq (hsettled.nodes r' hmem)
          (hsettled.nodes r hr) (Nat.le_antisymm hle hrank)
        have hitem' : r'.workItemId = r.workItemId := (hlatest.own.trans hid').trans hown.symm
        obtain rfl : r' = r :=
          Table.eq_of_key_eq hkeys.nodes hmem hr (Prod.ext hitem' heq)
        rfl
    · exact absurd (hitem.trans hid'.symm) hne

theorem WorkStep.ofReview (hw : w.Sound)
    (h : WorkStep service host decode w (.projected item token channel task o) w') :
    task.nodeId.ofReview = true := by
  cases h with
  | taskMove hmove =>
    generalize hphase : TaskPass.phase _ = phase at hmove
    cases hmove with
    | projected => exact hw.sane _ mem_append_cons_self _ _ _ hphase _ mem_cons_self

theorem WorkStep.settled (hw : w.Sound) (hsettled : w.db.tables.Settled) (hadvances : Advances w l)
    (horder : Sequenced w l) (h : WorkStep service host decode w l w') : w'.db.tables.Settled := by
  have hchange := h.change hw.keyed hw.sane
  refine ⟨?_, ?_, ?_⟩
  · intro r' hr'
    rcases hchange.task_moved hr' with ⟨r, hr, hmoved⟩ | ⟨_, -, _, _, task, _, -, rfl, hnode, -⟩
    · rw [hmoved.node]
      exact hsettled.nodes r hr
    · rw [hnode]
      exact h.ofReview hw
  · intro r' hr' hsome
    rcases hchange.task_moved hr' with ⟨r, hr, hmoved⟩ | ⟨_, -, _, _, _, _, -, -, -, hopen, -⟩
    · rcases hmoved.decision with hsame | ⟨-, -, hjudged⟩
      · exact (hsettled.judged r hr (hsame ▸ hsome)).same hmoved.node hsame
      · exact hjudged (hsettled.nodes r hr)
    · rw [hopen] at hsome
      cases hsome
  · intro x' hx' hversion hnil r' hlatest
    obtain ⟨x, hx, hmoved⟩ := hchange.item_moved hx'
    by_cases hl : ∃ token channel task, task.status = .known .completed ∧
        l = .projected x'.id token channel task none
    · obtain ⟨token, channel, task, hdone, rfl⟩ := hl
      exact hchange.settles hw.keyed hsettled hx' hversion hdone hadvances.2 (horder hdone) hlatest
    · rw [hmoved.id] at hlatest hl
      rw [hmoved.version] at hversion
      obtain ⟨r, hr, houtcome⟩ := hchange.latest hw.keyed hx hversion hlatest
        fun token channel task hdone heq => hl ⟨token, channel, task, hdone, heq⟩
      have hstatus : x'.status = x.status := by
        rcases hmoved.status with hsame | ⟨token, channel, task, heq, -, hdone⟩ |
          ⟨_, _, _, _, _, rfl⟩
        · exact hsame
        · exact absurd ⟨token, channel, task, hdone, heq⟩ hl
        · obtain ⟨y, hy, hid, hsame⟩ := hchange.accepts.recorded_status hx' hnil
          obtain rfl : y = x := Table.eq_of_key_eq hw.keyed.items hy hx (hid.trans hmoved.id)
          exact hsame.symm
      rw [hstatus, houtcome]
      exact hsettled.status x hx hversion (hchange.entries_nil (hmoved.id ▸ hnil)) r hr

theorem transitions_ne {a b : String} (h : b ∈ transitions a) : b ≠ "needs_information" := by
  unfold transitions at h
  rintro rfl
  split_ifs at h <;> simp at h

/-- As long as no completed task is projected after a later one, the status that information has
brought back to the review stays there until the follow-up review says otherwise, and without a
history the status is that of the last completed task. -/
theorem status_follows_latest_task {w₀ w : WorkWorld} {ls : List WorkLabel}
    (hkeys : w₀.db.tables.Keyed) (hpasses : w₀.taskPasses = []) (htasks : w₀.db.tasks = [])
    (hchanges : w₀.db.statusChanges = []) (hhistory : w₀.db.statusHistory = [])
    (hrun : Run (Guarded Undisturbed (WorkStep service host decode)) w₀ ls w) :
    ∀ x ∈ w.db.items, x.definitionVersion = .v110 →
      (∀ r ∈ w.db.tasks, r.workItemId = x.id → r.nodeId = .provideInformation →
        r.status = .completed → x.status = "needs_information" →
        ∃ f ∈ w.db.tasks, f.workItemId = x.id ∧ f.nodeId = .followupReview ∧
          f.status = .completed ∧ f.decision.status = some "needs_information") ∧
      (w.db.statusHistory.filter (·.workItemId = x.id) = [] →
        ∀ r, w.db.tables.Latest x.id r → some x.status = r.outcome) := by
  have hsettled₀ : w₀.db.tables.Settled := by
    have hnone : ∀ r, r ∉ w₀.db.tables.tasks := by
      intro r (hr : r ∈ w₀.db.tasks)
      rw [htasks] at hr
      cases hr
    exact ⟨fun r hr => absurd hr (hnone r), fun r hr => absurd hr (hnone r),
      fun _ _ _ _ r hr => absurd hr.mem (hnone r)⟩
  have hsound₀ : w₀.Sound := ⟨hkeys, by rw [hpasses]; exact fun p hp => absurd hp not_mem_nil⟩
  have hall : w.Sound ∧ w.db.tables.Settled := by
    refine hrun.invariant (P := fun u => u.Sound ∧ u.db.tables.Settled) ?_ ⟨hsound₀, hsettled₀⟩
    rintro u l u' ⟨hsound, hsettled⟩ ⟨⟨hadvances, horder⟩, hstep⟩
    exact ⟨hstep.sound hsound, hstep.settled hsound hsettled hadvances horder⟩
  obtain ⟨-, hsettled⟩ := hall
  obtain ⟨-, -, hchained⟩ := chained_of_run hkeys hpasses hchanges hhistory hrun.of_guarded
  intro x hx hversion
  refine ⟨fun r hr hitem hnode hdone hstatus => ?_, hsettled.status x hx hversion⟩
  have hchain := hchained.chain x hx
  by_cases hnil : w.db.tables.entries x.id = []
  · by_cases hfollow : ∃ f ∈ w.db.tasks, f.workItemId = x.id ∧ f.nodeId = .followupReview ∧
        f.status = .completed
    · obtain ⟨f, hf, hown, hfnode, hfdone⟩ := hfollow
      have hlatest : w.db.tables.Latest x.id f := by
        refine ⟨hf, hown, hfdone, fun r' hr' _ _ => ?_⟩
        rw [hfnode]
        cases r'.nodeId <;> simp [TaskNode.rank]
      have houtcome := hsettled.status x hx hversion hnil f hlatest
      rw [WorkItemTaskRow.outcome, hfnode, if_neg nofun, hstatus] at houtcome
      exact ⟨f, hf, hown, hfnode, hfdone, houtcome.symm⟩
    · have hlatest : w.db.tables.Latest x.id r := by
        refine ⟨hr, hitem, hdone, fun r' hr' hown hdone' => ?_⟩
        have hreview := hsettled.nodes r' hr'
        rw [hnode]
        cases hnode' : r'.nodeId with
        | review | provideInformation => decide
        | followupReview => exact absurd ⟨r', hr', hown, hnode', hdone'⟩ hfollow
        | publishGithub | other =>
          rw [hnode'] at hreview
          cases hreview
      have houtcome := hsettled.status x hx hversion hnil r hlatest
      rw [WorkItemTaskRow.outcome, if_pos hnode, hstatus] at houtcome
      exact absurd houtcome (by decide)
  · -- a status from the history is never this one
    obtain ⟨e, he⟩ := Option.ne_none_iff_exists'.1 (mt getLast?_eq_none_iff.1 hnil)
    have hlast := hchain.last e he
    exact absurd (hlast.trans hstatus) (transitions_ne (hchain.allowed e (mem_of_getLast? he)))

end

/-! ### A status that goes back -/

theorem advances_of_all (hstatus : task.status = .known .pending ∨ task.status = .known .completed)
    (h : (w.db.tasks.all fun r => r.id ≠ task.id ∨ r.nodeId = task.nodeId) = true) :
    Advances w (.projected item token channel task o) := by
  refine ⟨hstatus, fun r hr hid _ => ?_⟩
  have hrow := of_decide_eq_true (all_eq_true.1 h r hr)
  exact hrow.resolve_left fun hne => hne hid

theorem advances_run {step : WorkWorld → WorkLabel → WorkWorld → Prop} {w' : WorkWorld}
    {ls : List WorkLabel} (h : Run (Guarded Undisturbed step) w ls w') :
    Run (Guarded Advances step) w ls w' :=
  h.mono fun _ _ _ hst => ⟨hst.1.1, hst.2⟩

namespace Sample

variable {db : WorkDb}

open WorkItems

def asking : Decision :=
  ⟨⟨46⟩, 80, 1, none, "bug", "low", "needs_information", "since when?"⟩

def answering : Decision := ⟨⟨49⟩, 81, 2, none, "", "", "", "since today"⟩

def askedTask : ReportedTask :=
  reported 45 .review .completed (some (completionResult noText .review (asking.stored .review)))

def informationTask : ReportedTask := reported 48 .provideInformation .pending none

def answeredTask : ReportedTask :=
  reported 48 .provideInformation .completed
    (some (completionResult noText .provideInformation (answering.stored .provideInformation)))

def asked : WorkDb := ((WorkCommand.decide alice 45 asking).exec workItems |>.commit shown).2

def askedClaimed : WorkDb := ((claimSync 40 61 300).commit asked).2

def askedShown : WorkDb :=
  ((project host noText 40 61 room askedTask ⟨47⟩ 0).commit askedClaimed).2

def informationShown : WorkDb :=
  ((project host noText 40 61 room informationTask ⟨49⟩ 0).commit askedShown).2

def informed : WorkDb :=
  ((WorkCommand.decide alice 48 answering).exec workItems |>.commit informationShown).2

def answeredClaimed : WorkDb := ((claimSync 40 62 500).commit informed).2

def answeredShown : WorkDb :=
  ((project host noText 40 62 room askedTask ⟨50⟩ 0).commit answeredClaimed).2

def broughtBack : WorkDb :=
  ((project host noText 40 62 room answeredTask ⟨50⟩ 0).commit answeredShown).2

def broughtBackClaimed : WorkDb := ((claimSync 40 63 700).commit broughtBack).2

def regressed : WorkDb :=
  ((project host noText 40 63 room askedTask ⟨50⟩ 0).commit broughtBackClaimed).2

abbrev Calm := Run (Guarded Undisturbed (WorkStep workItems host noText))

theorem pass_run (db db' : WorkDb) (token : Uuid) (now : Int) (issued : List Uuid)
    {tasks : List ReportedTask} (hnew : token ∉ issued)
    (hclaim : (claimSync 40 token now).run db = .ok (true, db'))
    (hdetails : (reviewDetails 40 token).run db' = .ok (details, db'))
    (haccepts : details.accepts ⟨instanceView, tasks⟩ = .ok (.waiting, tasks)) :
    Calm ⟨db, [], [], issued⟩ [.claimed 40 token, .silent, .silent]
      ⟨db', [⟨40, token, .projecting details .waiting tasks⟩], [], token :: issued⟩ :=
  .cons ⟨⟨trivial, trivial⟩, .claimSync hnew hclaim⟩ <|
    .cons ⟨⟨trivial, trivial⟩, .alone (.details hdetails)⟩ <|
    .single ⟨⟨trivial, trivial⟩, .alone (.answered haccepts)⟩

theorem projected_step (db' : WorkDb) (id : MessageId) (o : Option MessageId)
    {state : ProcessStatus} {rest : List ReportedTask}
    (h : (project host noText 40 token (details.target task) task id 0).run db = .ok (o, db'))
    (hstatus : task.status = .known .pending ∨ task.status = .known .completed)
    (hsame : (db.tasks.all fun r => r.id ≠ task.id ∨ r.nodeId = task.nodeId) = true)
    (horder : (db.tasks.all fun r => r.status ≠ .completed ∨
      r.nodeId.rank ≤ task.nodeId.rank) = true) :
    Guarded Undisturbed (WorkStep workItems host noText)
      ⟨db, [⟨40, token, .projecting details state (task :: rest)⟩], [], issued⟩
      (.projected 40 token (details.target task) task o)
      ⟨db', [⟨40, token, .projecting details state rest⟩], [], issued⟩ := by
  refine ⟨⟨advances_of_all hstatus hsame, fun _ r hr _ hdone => ?_⟩, .alone (.projected h)⟩
  have hrow := of_decide_eq_true (all_eq_true.1 horder r hr)
  exact hrow.resolve_left fun hne => hne hdone

theorem command_run {c : WorkCommand} :
    Calm ⟨db, [], [], issued⟩ [.command c ((c.exec workItems).commit db).1]
      ⟨((c.exec workItems).commit db).2, [], [], issued⟩ :=
  .single ⟨⟨trivial, trivial⟩, .command c⟩

theorem crash_run {p : TaskPass} : Calm ⟨db, [p], [], issued⟩ [.silent] ⟨db, [], [], issued⟩ :=
  .single ⟨⟨trivial, trivial⟩, @WorkStep.taskCrash workItems host noText db [] [] p [] issued⟩

set_option maxRecDepth 4000 in
theorem asked_run : ∃ ls, Calm started ls ⟨asked, [], [], [60]⟩ := by
  have haccepts : details.accepts ⟨instanceView, [review]⟩ = .ok (.waiting, [review]) :=
    accepts_of_sorted (by decide) rfl (by decide) (by decide)
  have hpass := pass_run workDb claimed 60 100 [] (by decide) rfl rfl haccepts
  exact ⟨_, (hpass.step (projected_step shown ⟨46⟩ (some ⟨46⟩) rfl (.inl rfl) rfl rfl)).append <|
    crash_run.append (command_run)⟩

set_option maxRecDepth 4000 in
theorem answered_run : ∃ ls, Calm ⟨asked, [], [], [60]⟩ ls ⟨informed, [], [], [61, 60]⟩ := by
  have haccepts : details.accepts ⟨instanceView, [askedTask, informationTask]⟩ =
      .ok (.waiting, [askedTask, informationTask]) :=
    accepts_of_sorted (by decide) rfl (by decide) (by decide)
  have hpass := pass_run asked askedClaimed 61 300 [60] (by decide) rfl rfl haccepts
  exact ⟨_, ((hpass.step (projected_step askedShown ⟨47⟩ none rfl (.inr rfl) rfl rfl)).step
    (projected_step informationShown ⟨49⟩ (some ⟨49⟩) rfl (.inl rfl) rfl rfl)).append <|
    crash_run.append (command_run)⟩

theorem answers_accepted : details.accepts ⟨instanceView, [askedTask, answeredTask]⟩ =
    .ok (.waiting, [askedTask, answeredTask]) :=
  accepts_of_sorted (by decide) rfl (by decide) (by decide)

set_option maxRecDepth 10000 in
theorem broughtBack_run : ∃ ls, Calm ⟨informed, [], [], [61, 60]⟩ ls
    ⟨broughtBack, [⟨40, 62, .projecting details .waiting []⟩], [], [62, 61, 60]⟩ := by
  have hpass := pass_run informed answeredClaimed 62 500 [61, 60] (by decide) rfl rfl
    answers_accepted
  exact ⟨_, (hpass.step (projected_step answeredShown ⟨50⟩ none rfl (.inr rfl) rfl rfl)).step
    (projected_step broughtBack ⟨50⟩ none rfl (.inr rfl) rfl rfl)⟩

theorem returned_run : ∃ ls, Calm started ls
    ⟨broughtBack, [⟨40, 62, .projecting details .waiting []⟩], [], [62, 61, 60]⟩ := by
  obtain ⟨ls, hasked⟩ := asked_run
  obtain ⟨ms, hanswered⟩ := answered_run
  obtain ⟨ns, hback⟩ := broughtBack_run
  exact ⟨_, (hasked.append hanswered).append hback⟩

set_option maxRecDepth 10000 in
theorem regressed_run : ∃ ls, Run (Guarded Advances (WorkStep workItems host noText))
    ⟨broughtBack, [⟨40, 62, .projecting details .waiting []⟩], [], [62, 61, 60]⟩ ls
    ⟨regressed, [⟨40, 63, .projecting details .waiting [answeredTask]⟩], [], [63, 62, 61, 60]⟩ := by
  have hpass := pass_run broughtBack broughtBackClaimed 63 700 [62, 61, 60] (by decide) rfl rfl
    answers_accepted
  have hreview : (project host noText 40 63 room askedTask ⟨50⟩ 0).run broughtBackClaimed =
      .ok (none, regressed) := rfl
  exact ⟨_, (advances_run (crash_run.append hpass)).step
    ⟨advances_of_all (.inr rfl) rfl, .alone (.projected hreview)⟩⟩

end Sample

set_option maxRecDepth 10000 in
theorem status_follows_latest_task_broughtBack :
    Sample.broughtBack.items.map (·.status) = ["reviewing"] ∧ ∀ x ∈ Sample.broughtBack.items,
      x.definitionVersion = .v110 →
      Sample.broughtBack.statusHistory.filter (·.workItemId = x.id) = [] →
        ∀ r, Sample.broughtBack.tables.Latest x.id r → some x.status = r.outcome := by
  have hkeys : Sample.started.db.tables.Keyed := by
    constructor <;> decide
  obtain ⟨ls, hrun⟩ := Sample.returned_run
  have hfollows := status_follows_latest_task hkeys rfl rfl rfl rfl hrun
  exact ⟨rfl, fun x hx hversion => (hfollows x hx hversion).2⟩

set_option maxRecDepth 10000 in
/-- Without the order, the information is in and the status says that it is needed. -/
theorem status_regresses :
    ∃ ls ms w₁ w₂,
      Run (Guarded Advances (WorkStep Sample.workItems Sample.host Sample.noText))
        Sample.started ls w₁ ∧
      Run (Guarded Advances (WorkStep Sample.workItems Sample.host Sample.noText)) w₁ ms w₂ ∧
      w₁.db.items.map (fun x =>
        (x.id, x.definitionVersion, x.status)) = [(40, .v110, "reviewing")] ∧
      w₁.db.tasks.map (fun r => (r.workItemId, r.nodeId, r.status)) =
        [(40, .review, .completed), (40, .provideInformation, .completed)] ∧
      w₂.db.items.map (fun x => (x.id, x.definitionVersion, x.status)) =
        [(40, .v110, "needs_information")] ∧
      w₂.db.tasks.map (fun r => (r.workItemId, r.nodeId, r.status)) =
        [(40, .review, .completed), (40, .provideInformation, .completed)] := by
  obtain ⟨ls, hrun⟩ := Sample.returned_run
  obtain ⟨ks, hregressed⟩ := Sample.regressed_run
  exact ⟨ls, ks, _, _, advances_run hrun, hregressed, rfl, rfl, rfl, rfl⟩

/-- Commands, task passes and status passes leave decisions alone: a task keeps its message and
its decision, a change of status its actor and its decision, and no supplement is lost. The
delivery of an export, which replaces the note of its decision, is no such step. -/
theorem decisions_are_permanent {service : WorkItems} {host : Host} {decode : String → Option Json}
    {w₀ w w' : WorkWorld} {ls ms : List WorkLabel} (hkeys : w₀.db.tables.Keyed)
    (hpasses : w₀.taskPasses = []) (hrun : Run (WorkStep service host decode) w₀ ls w)
    (hlater : Run (WorkStep service host decode) w ms w') :
    (∀ r ∈ w.db.tasks, r.decision.requestId.isSome = true → ∃ r' ∈ w'.db.tasks,
      r'.id = r.id ∧ r'.messageId = r.messageId ∧ r'.decision = r.decision) ∧
    (∀ x ∈ w.db.statusChanges, x.decision ≠ none → ∃ x' ∈ w'.db.statusChanges,
      x'.id = x.id ∧ x'.actorId = x.actorId ∧ x'.decision = x.decision) ∧
    w.db.supplements ⊆ w'.db.supplements := by
  have hsound₀ : w₀.Sound := ⟨hkeys, by rw [hpasses]; exact fun p hp => absurd hp not_mem_nil⟩
  have hkept := (hsound₀.run hrun).kept hlater
  refine ⟨fun r hr hdone => ?_, fun x hx hdone => ?_, fun s hs => hkept.supplements s hs⟩
  · obtain ⟨r', hr', h⟩ := hkept.tasks r hr
    exact ⟨r', hr', h.id, h.message, h.decision hdone⟩
  · obtain ⟨x', hx', h⟩ := hkept.changes x hx
    exact ⟨x', hx', h.id, h.actor, h.decision hdone⟩

set_option maxRecDepth 10000 in
/-- The decisions stand where the status regresses. -/
theorem decisions_are_permanent_regressed :
    Sample.broughtBack.tasks.map (·.decision.requestId.isSome) = [true, true] ∧
      ∀ r ∈ Sample.broughtBack.tasks, r.decision.requestId.isSome = true →
        ∃ r' ∈ Sample.regressed.tasks,
          r'.id = r.id ∧ r'.messageId = r.messageId ∧ r'.decision = r.decision := by
  have hkeys : Sample.started.db.tables.Keyed := by
    constructor <;> decide
  obtain ⟨ls, hrun⟩ := Sample.returned_run
  obtain ⟨ms, hlater⟩ := Sample.regressed_run
  exact ⟨rfl, (decisions_are_permanent hkeys rfl hrun.of_guarded hlater.of_guarded).1⟩

end Sproyt
